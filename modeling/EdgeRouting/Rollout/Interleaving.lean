import EdgeRouting.Rollout.Basic

/-!
# Interleavings of a rollout

What can happen at the platform when the calls of a layer are under way at the same time. The write
of a resource is a task of its own. The tasks of a layer without logic make a batch: they start and
go on in any order. Those of a layer with logic are done one at a time, in the order of the
blueprint. A layer is left when all of its tasks have come to their end. When one has failed, the
others may go on for a while, until the rollout stops; then nothing happens any more.
-/

namespace EdgeRouting

/-- The key of the resource that a call writes. -/
def Call.key? : Call → Option ResourceKey
  | .openVersion => none
  | .write _ r => some r.key
  | .create _ b => some ⟨.backend, b.name⟩
  | .update _ b => some ⟨.backend, b.name⟩
  | .activate _ => none

/-- Whether a call writes a piece of logic. -/
def Call.isLogic : Call → Bool
  | .write _ r => r.isLogic
  | _ => false

/-- Whether a failure ends the write that the call belongs to. A backend that exists already can
still be changed. -/
def Call.isFatal : Call → CallFailure → Bool
  | .create _ _, e => !e.isConflict
  | _, _ => true

namespace Rollout

/-- What happens at the platform. -/
inductive Event where
  | asked (c : Call)
  | granted (c : Call)
  | refused (c : Call) (e : CallFailure)
  deriving Repr, DecidableEq

/-! ## The write of one resource -/

/-- How far the write of a resource has come. -/
inductive TaskState where
  | waiting
  /-- A call is under way. -/
  | asking (c : Call)
  /-- The backend exists already and is to be changed. -/
  | conflicting
  | written
  | failed
  deriving Repr, DecidableEq

structure Task where
  item : Blueprint.Item
  state : TaskState
  deriving Repr, DecidableEq

/-- The call that the write of a resource begins with. -/
def firstCall (version : Nat) : Resource → Call
  | .backend b => .create version b
  | r => .write version r

/-- One step of the write of a resource, and what happens at the platform. -/
inductive TaskStep (version : Nat) (i : Blueprint.Item) :
    TaskState → Event → TaskState → Prop where
  | start : TaskStep version i .waiting (.asked (firstCall version i.resource))
      (.asking (firstCall version i.resource))
  | again {b : Backend} : i.resource = .backend b →
      TaskStep version i .conflicting (.asked (.update version b)) (.asking (.update version b))
  | grant {c : Call} : TaskStep version i (.asking c) (.granted c) .written
  | conflict {b : Backend} {e : CallFailure} : Call.isFatal (.create version b) e = false →
      TaskStep version i (.asking (.create version b)) (.refused (.create version b) e) .conflicting
  | refuse {c : Call} {e : CallFailure} : c.isFatal e = true →
      TaskStep version i (.asking c) (.refused c e) .failed

/-! ## A rollout with an open version -/

/-- How far a rollout has come. -/
structure Progress where
  /-- The tasks of the layer that is being written. -/
  tasks : List Task
  later : List (List Blueprint.Item)
  stopped : Bool
  /-- What has happened so far, latest last. -/
  history : List Event
  deriving Repr, DecidableEq

namespace Progress

/-- Before the first layer, when a version has been opened. -/
def start (layers : List (List Blueprint.Item)) : Progress :=
  ⟨[], layers, false, [.asked .openVersion, .granted .openVersion]⟩

/-- Whether the tasks are done one at a time. -/
def OneAtATime (p : Progress) : Prop := stageOf (p.tasks.map Task.item) = .writingLogic

end Progress

/-- One thing that can happen next. -/
inductive Step (version : Nat) : Progress → Progress → Prop where
  /-- The layer is done and the next one is entered. -/
  | enter {p : Progress} {layer : List Blueprint.Item} {later : List (List Blueprint.Item)} :
    p.stopped = false → (∀ t ∈ p.tasks, t.state = .written) → p.later = layer :: later →
      Step version p { p with tasks := layer.map fun i => ⟨i, .waiting⟩, later }
  /-- A task goes on. When tasks are done one at a time, it starts behind those before it. -/
  | goOn {p : Progress} {before after : List Task} {t : Task} {e : Event} {state : TaskState} :
    p.stopped = false → p.tasks = before ++ t :: after → TaskStep version t.item t.state e state →
      (p.OneAtATime → t.state = .waiting → ∀ u ∈ before, u.state = .written) →
      Step version p { p with
        tasks := before ++ ⟨t.item, state⟩ :: after, history := p.history ++ [e] }
  /-- The failure of a task ends the rollout. -/
  | stop {p : Progress} {t : Task} :
    p.stopped = false → t ∈ p.tasks → t.state = .failed → Step version p { p with stopped := true }

/-- What can happen in any number of steps. -/
inductive Steps (version : Nat) : Progress → Progress → Prop where
  | refl (p : Progress) : Steps version p p
  | tail {p q r : Progress} : Steps version p q → Step version q r → Steps version p r

/-- What can have happened at the platform during a rollout of layers. -/
inductive CanHappen (layers : List (List Blueprint.Item)) : List Event → Prop where
  | opening : CanHappen layers [.asked .openVersion]
  | notOpened {e : CallFailure} :
    CanHappen layers [.asked .openVersion, .refused .openVersion e]
  | writing {version : Nat} {p : Progress} :
    Steps version (Progress.start layers) p → CanHappen layers p.history

end Rollout

end EdgeRouting
