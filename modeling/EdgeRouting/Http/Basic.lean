import EdgeRouting.Url.Basic

/-!
# HTTP exchanges

A client sends requests through a transport, which answers each with a reply or with nothing. The
transport is a function of its state and the request, so that it can be a network, a server that
keeps what it is sent, or one that follows a script.
-/

namespace EdgeRouting.Http

inductive Method where
  | get
  | put
  | post
  deriving Repr, DecidableEq

def Method.word : Method → String
  | .get => "GET"
  | .put => "PUT"
  | .post => "POST"

structure Request where
  method : Method
  url : Url
  headers : List (String × String)
  body : String
  deriving Repr, DecidableEq

namespace Request

/-- The method and the target, which is all of the URL that a server is told. -/
def line (r : Request) : String := r.method.word ++ " " ++ r.url.target

/-- The value of a header can hold no control character but the tab. -/
def isHeaderValue (v : String) : Bool :=
  v.toList.all fun c => c = '\t' || (0x20 ≤ c.toNat && c.toNat ≠ 0x7F)

/-- Whether a request can be sent at all: over HTTP, to a host, with headers that can be written. -/
def isSendable (r : Request) : Bool :=
  (r.url.scheme = "http" || r.url.scheme = "https") && r.url.authority.isSome
    && r.headers.all fun h => isHeaderValue h.2

end Request

structure Reply where
  status : Nat
  body : String
  deriving Repr, DecidableEq

def Reply.isSuccess (r : Reply) : Bool := 200 ≤ r.status && r.status < 300

/-- A transport with states in `σ`. -/
structure Transport (σ : Type) where
  send : Request → σ → Option Reply × σ

namespace Transport

variable {σ : Type}

/-- Sends a request if it can be sent. -/
def deliver (t : Transport σ) (r : Request) (s : σ) : Option Reply × σ :=
  if r.isSendable then t.send r s else (none, s)

/-- The transport over which no request arrives anywhere. -/
def unreachable : Transport σ := ⟨fun _ s => (none, s)⟩

end Transport

end EdgeRouting.Http
