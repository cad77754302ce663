import EdgeRouting.Http.Basic
import EdgeRouting.Http.Form
import EdgeRouting.Platform.Basic
import EdgeRouting.Remote.Reply
import EdgeRouting.Resource.Fields
import EdgeRouting.Settings.Basic
import EdgeRouting.Url.Parser

/-!
# The client of the service

The platform as a service that is reached over HTTP. Every call is one request, or two where a
resource has to be created because it cannot be changed. All of a request but one header is
determined without the secret.
-/

namespace EdgeRouting.Remote

open Http

structure Client where
  /-- The URL that all others are built on. -/
  api : Url
  service : String
  /-- The secret. -/
  key : String
  deriving Repr, DecidableEq

namespace Client

/-- The client for a service at the URL that a text denotes. -/
def ofAccess (a : Access) (apiUrl : String) : Except CallFailure Client :=
  match Url.parse apiUrl with
  | .ok api => .ok ⟨api, a.service, a.auth⟩
  | .error f =>
    .error (.unusable "api" ("invalid API URL '" ++ apiUrl ++ "': " ++ f.message))

/-- The client for settings, or none if they are not ready. -/
def ofSettings (s : ServiceSettings) : Except CallFailure (Option Client) :=
  match s.access? with
  | none => .ok none
  | some a => (ofAccess a s.apiUrl).map some

/-- The client as it is shown, without its secret. -/
def describe (c : Client) : String :=
  ServiceSettings.recordText "FastlyClient" [
    ("api", Text.quoted c.api.text), ("service", Text.quoted c.service)]

/-! ## Requests -/

/-- The URL of something about the service. -/
def endpoint? (c : Client) (segments : List String) : Option Url :=
  c.api.append? ("service" :: c.service :: segments)

/-- The headers of every request. -/
def commonHeaders (c : Client) : List (String × String) :=
  [("Fastly-Key", c.key), ("Accept", "application/json"), ("User-Agent", "edge-gateway/0.1.0")]

/-- A request with a form, or without a body. -/
def request (c : Client) (method : Method) (url : Url) : Option Fields → Request
  | none => ⟨method, url, c.commonHeaders, ""⟩
  | some fields =>
    ⟨method, url, c.commonHeaders ++ [("Content-Type", formType)], formBody fields.toForm⟩

variable {σ : Type}

/-- Sends a request about a resource and reads the body of a success. -/
def exchange {α : Type} (c : Client) (t : Transport σ) (resource : String) (method : Method)
    (segments : List String) (form : Option Fields) (decode : String → Option α) (s : σ) :
    Except CallFailure α × σ :=
  match c.endpoint? segments with
  | none => (.error (.unusable resource ("API URL '" ++ c.api.text ++ "' cannot be a base")), s)
  | some url =>
    match t.deliver (c.request method url form) s with
    | (none, s) => (.error (.unreachable resource), s)
    | (some reply, s) =>
      if reply.isSuccess then
        match decode reply.body with
        | some a => (.ok a, s)
        | none => (.error (.unusable resource "undecodable response body"), s)
      else (.error (.refused resource reply.status (refusalText reply.body)), s)

/-- The segments of something about a version. -/
def versioned (version : Nat) (segments : List String) : List String :=
  "version" :: toString version :: segments

/-! ## Calls -/

/-- Makes a version as a copy of the one that is active, or else of the latest one. -/
def openVersion (c : Client) (t : Transport σ) (s : σ) : Except CallFailure Nat × σ :=
  match c.exchange t "version" .get ["version"] none readVersions s with
  | (.error e, s) => (.error e, s)
  | (.ok versions, s) =>
    match ServiceVersion.base? versions with
    | none => (.error (.unusable "version" "service has no versions"), s)
    | some base =>
      match c.exchange t "version" .put (versioned base.number ["clone"]) none readVersion s with
      | (.error e, s) => (.error e, s)
      | (.ok made, s) => (.ok made.number, s)

/-- Changes a resource, or creates it if there is none to change. -/
def write (c : Client) (t : Transport σ) (version : Nat) (r : Resource) (s : σ) :
    Except CallFailure Unit × σ :=
  let key := r.key
  match c.exchange t key.text .put (versioned version [key.kind.word, key.name])
      (some r.fields) readAnything s with
  | (.ok (), s) => (.ok (), s)
  | (.error e, s) =>
    if e.isNotFound then
      c.exchange t key.text .post (versioned version [key.kind.word]) (some r.fields)
        readAnything s
    else (.error e, s)

/-- The answer to a call. -/
def answer (c : Client) (t : Transport σ) :
    (call : Call) → σ → Except CallFailure call.Answer × σ
  | .openVersion, s => c.openVersion t s
  | .write version r, s => c.write t version r s
  | .create version b, s =>
    c.exchange t (Resource.backend b).key.text .post (versioned version ["backend"])
      (some b.fields) readAnything s
  | .update version b, s =>
    c.exchange t (Resource.backend b).key.text .put (versioned version ["backend", b.name])
      (some b.fields) readAnything s
  | .activate version, s =>
    c.exchange t "version" .put (versioned version ["activate"]) none readAnything s

/-- The platform that a client reaches over a transport. -/
def platform (c : Client) (t : Transport σ) : Platform σ := ⟨c.answer t⟩

end Client

end EdgeRouting.Remote
