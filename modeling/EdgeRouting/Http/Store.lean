import EdgeRouting.Http.Basic
import EdgeRouting.Http.Form

/-!
# A server that keeps resources

The server keeps, for each version and kind, the form bodies of resources under their names. A
resource that is there is changed under its own path and created under the path of its kind; what is
not there cannot be changed, and what is there cannot be created again.
-/

namespace EdgeRouting.Http

/-- Where a resource is kept: its version, its kind and its name. -/
structure Slot where
  version : String
  kind : String
  name : String
  deriving Repr, DecidableEq

/-- The bodies that are kept. -/
abbrev Store := Slot → Option String

namespace Store

def put (s : Store) (slot : Slot) (body : String) : Store :=
  fun slot' => if slot' = slot then some body else s slot'

/-- The text of a segment of a path. -/
def segment? (s : String) : Option String :=
  (Url.percentDecode? s.toList).map String.ofList

/-- The segments of the path of a URL behind those in front that are given. -/
def segmentsBehind? (root : List String) (u : Url) : Option (List String) :=
  match u.path with
  | .segments l => if root <+: l then (l.drop root.length).mapM segment? else none
  | .verbatim _ => none

def done : Reply := ⟨200, "\x7b\x7d"⟩
def notFound : Reply := ⟨404, "\x7b\"msg\":\"Record not found\"\x7d"⟩
def conflict : Reply := ⟨409, "\x7b\"msg\":\"Duplicate record\"\x7d"⟩

/-- The answer to a request for what stands behind a root, which ends with the service. -/
def answer (root : List String) (r : Request) (s : Store) : Reply × Store :=
  match r.method, segmentsBehind? root r.url with
  | .put, some ["version", version, kind, name] =>
    let slot : Slot := ⟨version, kind, name⟩
    if (s slot).isSome then (done, s.put slot r.body) else (notFound, s)
  | .post, some ["version", version, kind] =>
    match (formFields? r.body).bind (·.lookup "name") with
    | none => (notFound, s)
    | some name =>
      let slot : Slot := ⟨version, kind, name⟩
      if (s slot).isSome then (conflict, s) else (done, s.put slot r.body)
  | _, _ => (notFound, s)

/-- The transport to such a server. -/
def transport (root : List String) : Transport Store where
  send r s :=
    let (reply, next) := answer root r s
    (some reply, next)

end Store

end EdgeRouting.Http
