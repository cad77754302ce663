import EdgeRouting.Remote.Client
import EdgeRouting.Rollout.Interleaving

/-!
# Interleavings over HTTP

What can pass between a client and a server while a rollout is under way. A call is a conversation:
it makes its requests one behind the other, and what comes back for one decides about the next. The
conversations of calls that are under way at the same time mix in any order. Of the server nothing
is assumed: any reply can come back for any request, and so can the end of the connection.
-/

namespace EdgeRouting

namespace Http

/-- What passes between a client and a server. -/
inductive Passage where
  | sent (r : Request)
  /-- What comes back for the request before it; without a reply the connection has ended. -/
  | received (reply : Option Reply)
  deriving Repr, DecidableEq

def Passage.request? : Passage → Option Request
  | .sent r => some r
  | .received _ => none

/-- The transport that also keeps a record of what passes, latest last. -/
def Transport.transcribed {σ : Type} (t : Transport σ) : Transport (σ × List Passage) where
  send r s :=
    let (reply, next) := t.send r s.1
    (reply, (next, s.2 ++ [.sent r, .received reply]))

end Http

namespace Rollout

/-- The call that an event is about. -/
def Event.call : Event → Call
  | .asked c => c
  | .granted c => c
  | .refused c _ => c

/-- The answer to a call as an event. -/
def Event.answered (c : Call) : Except CallFailure c.Answer → Event
  | .ok _ => .granted c
  | .error e => .refused c e

end Rollout

namespace Remote

open Http Rollout

/-- What happens between a rollout and the server: an event at the platform, or something that
passes for the sake of a call. -/
inductive Happening where
  | event (e : Event)
  | passage (call : Call) (p : Passage)
  deriving Repr, DecidableEq

namespace Happening

def call : Happening → Call
  | .event e => e.call
  | .passage c _ => c

def event? : Happening → Option Event
  | .event e => some e
  | .passage _ _ => none

def passage? : Happening → Option Passage
  | .event _ => none
  | .passage _ p => some p

/-- The request that is made. -/
def request? (h : Happening) : Option Request := h.passage?.bind Passage.request?

end Happening

namespace Client

/-- What passes in a call on its own, with the answer that the client makes of some server. -/
def Converses (c : Client) (call : Call) (l : List Passage)
    (result : Except CallFailure call.Answer) : Prop :=
  ∃ (σ : Type) (t : Transport σ) (s s' : σ),
    c.answer t.transcribed call (s, []) = (result, (s', l))

/-- A call on its own, from its being made to its answer. -/
def conversation (call : Call) (l : List Passage) (result : Except CallFailure call.Answer) :
    List Happening :=
  .event (.asked call) :: l.map (.passage call) ++ [.event (.answered call result)]

/-- What happens for the sake of each call is a conversation as far as it has come. -/
def Carries (c : Client) (t : List Happening) : Prop :=
  ∀ call, ∃ l result, c.Converses call l result
    ∧ t.filter (·.call = call) <+: conversation call l result

/-- What has happened behind the opening of a version, when a rollout of layers into it has come as
far as this. -/
structure Continues (c : Client) (layers : List (List Blueprint.Item)) (version : Nat)
    (p : Progress) (t : List Happening) : Prop where
  steps : Steps version (Progress.start layers) p
  history : p.history
    = [.asked .openVersion, .granted .openVersion] ++ t.filterMap Happening.event?
  carries : c.Carries t

/-- What can have happened between a rollout of layers and the server, and the failure that the
rollout has ended with, if it has failed. -/
inductive Happens (c : Client) (layers : List (List Blueprint.Item)) :
    List Happening → Option RolloutFailure → Prop where
  | opening {t : List Happening} {l : List Passage} {result : Except CallFailure Nat} :
    c.Converses .openVersion l result → t <+: conversation .openVersion l result →
      Happens c layers t none
  | notOpened {l : List Passage} {e : CallFailure} : c.Converses .openVersion l (.error e) →
      Happens c layers (conversation .openVersion l (.error e)) (some (.call .opening none e))
  | writing {l : List Passage} {version : Nat} {p : Progress} {t : List Happening} :
    c.Converses .openVersion l (.ok version) → c.Continues layers version p t →
      Happens c layers (conversation .openVersion l (.ok version) ++ t) none
  | failed {l : List Passage} {version : Nat} {p : Progress} {t : List Happening} {call : Call}
    {e : CallFailure} :
    c.Converses .openVersion l (.ok version) → c.Continues layers version p t →
      .refused call e ∈ p.history → call.isFatal e = true →
      Happens c layers (conversation .openVersion l (.ok version) ++ t)
        (some (.call (stageOf (p.tasks.map Task.item)) (some version) e))

/-- What can have happened between the deployment of targets and the server, and the failure that
the deployment has ended with, if it has failed. -/
def MayDeploy (c : Client) (settings : RolloutSettings) (targets : List Target)
    (table : WeightTable) (t : List Happening) (failure : Option RolloutFailure) : Prop :=
  match settings.prepare targets table with
  | .error e => t = [] ∧ failure = some e
  | .ok (_, b) => ∃ layers, b.layers = .ok layers ∧ c.Happens layers t failure

end Client

end Remote

end EdgeRouting
