import EdgeRouting.Resource.Basic
import EdgeRouting.Text.LowerCase
import EdgeRouting.Text.Occurrence

/-!
# The edge platform

A platform answers calls. Each call but the first names the version of the service it is about, and
each may fail on its own. Nothing is assumed of a platform beyond that: it is a function from its
state and a call to an answer and its next state, so that it can be a service far away, a store in
memory, or one that fails at will.
-/

namespace EdgeRouting

/-- Why a call failed. -/
inductive CallFailure where
  /-- The platform answered with a status that is no success. -/
  | refused (resource : String) (status : Nat) (message : String)
  /-- No answer arrived. -/
  | unreachable (resource : String)
  /-- The answer reported success but cannot be used. -/
  | unusable (resource : String) (message : String)
  deriving Repr, DecidableEq

namespace CallFailure

/-- The resource that the call was about. -/
def resource : CallFailure → String
  | .refused resource _ _ => resource
  | .unreachable resource => resource
  | .unusable resource _ => resource

def status? : CallFailure → Option Nat
  | .refused _ status _ => some status
  | _ => none

/-- The wording of a failure; what kept an answer from arriving has none of its own. -/
def message? : CallFailure → Option String
  | .refused resource status message =>
    some (resource ++ ": API returned " ++ toString status ++ ": " ++ message)
  | .unreachable _ => none
  | .unusable resource message => some (resource ++ ": unexpected response: " ++ message)

/-- Whether a message, in whatever case, says that something exists already. -/
def saysDuplicate (message : String) : Bool :=
  let s := (Text.lower message).toList
  Text.occurs "duplicate".toList s || Text.occurs "already exists".toList s

/-- Whether the named resource exists already. -/
def isConflict : CallFailure → Bool
  | .refused _ status message =>
    status == 409 || (status == 400 || status == 422) && saysDuplicate message
  | _ => false

/-- Whether the named resource does not exist. -/
def isNotFound (f : CallFailure) : Bool := f.status? == some 404

end CallFailure

/-- A call to a platform. -/
inductive Call where
  /-- Opens a version that can be changed. -/
  | openVersion
  /-- Writes a resource, whether or not it exists. -/
  | write (version : Nat) (resource : Resource)
  /-- Creates a backend, which must not exist. -/
  | create (version : Nat) (backend : Backend)
  /-- Changes a backend, which must exist. -/
  | update (version : Nat) (backend : Backend)
  /-- Makes a version the one that is served. -/
  | activate (version : Nat)
  deriving Repr, DecidableEq

namespace Call

/-- What a call answers when it succeeds: the number of the opened version, or nothing. -/
def Answer : Call → Type
  | .openVersion => Nat
  | _ => Unit

/-- The verb of a call and the resource it is about. -/
def verb : Call → String
  | .openVersion => "open"
  | .write _ _ => "write"
  | .create _ _ => "create"
  | .update _ _ => "update"
  | .activate _ => "activate"

def resource : Call → String
  | .openVersion => "version"
  | .write _ r => r.key.text
  | .create _ b => (ResourceKey.mk .backend b.name).text
  | .update _ b => (ResourceKey.mk .backend b.name).text
  | .activate _ => "version"

def text (c : Call) : String := c.verb ++ " " ++ c.resource

/-- The version that a call is about. -/
def version? : Call → Option Nat
  | .openVersion => none
  | .write v _ => some v
  | .create v _ => some v
  | .update v _ => some v
  | .activate v => some v

end Call

/-- A platform with states in `σ`. -/
structure Platform (σ : Type) where
  answer : (c : Call) → σ → Except CallFailure c.Answer × σ

namespace Platform

/-- The platform that also keeps a record of its calls, latest last. -/
def recorded {σ : Type} (p : Platform σ) : Platform (σ × List Call) where
  answer c s :=
    let (result, next) := p.answer c s.1
    (result, (next, s.2 ++ [c]))

end Platform

end EdgeRouting
