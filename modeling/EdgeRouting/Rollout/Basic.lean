import EdgeRouting.Blueprint.Basic
import EdgeRouting.Platform.Basic

/-!
# Rollouts

A rollout writes everything a blueprint lists into a version that it opens, layer by layer. It stops
at the first call that fails, and the version is then left as it is; only a rollout that wrote every
resource gives a report, and only with a report can a version be activated. Here every call is
answered before the next one is made, which fixes one order in which the calls of a layer are made:
that of the blueprint.
-/

namespace EdgeRouting

/-- What a rollout is at. -/
inductive Stage where
  | opening
  | provisioning
  | writingLogic
  | ready
  | aborted
  deriving Repr, DecidableEq

def Stage.text : Stage → String
  | .opening => "opening draft version"
  | .provisioning => "provisioning resources"
  | .writingLogic => "writing logic"
  | .ready => "ready"
  | .aborted => "aborted"

/-- Why a rollout ended early. -/
inductive RolloutFailure where
  | routing (e : RoutingError)
  | blueprint (f : Blueprint.Fault)
  /-- A call failed at this stage, with this version open. -/
  | call (stage : Stage) (version : Option Nat) (cause : CallFailure)
  deriving Repr, DecidableEq

namespace RolloutFailure

def message? : RolloutFailure → Option String
  | .routing e => some e.message
  | .blueprint f => some ("invalid provisioning plan: " ++ f.message)
  | .call stage _ cause =>
    cause.message?.map fun m => "deployment aborted while " ++ stage.text ++ ": " ++ m

/-- The resource whose call failed. -/
def resource? : RolloutFailure → Option String
  | .call _ _ cause => some cause.resource
  | _ => none

/-- The version that was open when a call failed. -/
def version? : RolloutFailure → Option Nat
  | .call _ version _ => version
  | _ => none

end RolloutFailure

/-- What a rollout has done so far, and in the end its report. -/
structure Report where
  version : Nat
  /-- What was written, layer by layer and in the order of the blueprint. -/
  written : List ResourceKey
  /-- The backends that existed already and were changed. -/
  updated : List ResourceKey
  stages : List Stage
  deriving Repr, DecidableEq

/-- The stage that a report ends with. -/
def Report.stage (r : Report) : Stage := r.stages.getLast?.getD .ready

namespace Rollout

variable {σ : Type}

/-- Writes one resource; a backend that cannot be created because it exists is changed instead. The
answer says whether that happened. -/
def writeItem (p : Platform σ) (version : Nat) (i : Blueprint.Item) (s : σ) :
    Except CallFailure Bool × σ :=
  match i.resource with
  | .backend b =>
    match p.answer (.create version b) s with
    | (.ok (), s) => (.ok false, s)
    | (.error e, s) =>
      if e.isConflict then
        match p.answer (.update version b) s with
        | (.ok (), s) => (.ok true, s)
        | (.error e, s) => (.error e, s)
      else (.error e, s)
  | r =>
    match p.answer (.write version r) s with
    | (.ok _, s) => (.ok false, s)
    | (.error e, s) => (.error e, s)

/-- Writes resources one after the other and adds them to what has been done. -/
def writeItems (p : Platform σ) (done : Report) (s : σ) :
    List Blueprint.Item → Except CallFailure Report × σ
  | [] => (.ok done, s)
  | i :: r =>
    match writeItem p done.version i s with
    | (.error e, s) => (.error e, s)
    | (.ok existed, s) =>
      writeItems p { done with
        written := done.written ++ [i.key]
        updated := if existed then done.updated ++ [i.key] else done.updated } s r

/-- The stage of a layer: logic is being written as soon as one of its resources is logic. -/
def stageOf (layer : List Blueprint.Item) : Stage :=
  if layer.any fun i => i.resource.isLogic then .writingLogic else .provisioning

/-- Stages passed through, when the next one is entered unless it is the last one already. -/
def enter (stage : Stage) (stages : List Stage) : List Stage :=
  if stages.getLast? = some stage then stages else stages ++ [stage]

def writeLayers (p : Platform σ) (done : Report) (s : σ) :
    List (List Blueprint.Item) → Except RolloutFailure Report × σ
  | [] => (.ok { done with stages := done.stages ++ [.ready] }, s)
  | layer :: r =>
    match writeItems p { done with stages := enter (stageOf layer) done.stages } s layer with
    | (.error e, s) => (.error (.call (stageOf layer) (some done.version) e), s)
    | (.ok done, s) => writeLayers p done s r

/-- Writes what a blueprint lists into a version that is opened for it. -/
def run (p : Platform σ) (b : Blueprint) (s : σ) : Except RolloutFailure Report × σ :=
  match b.layers with
  | .error f => (.error (.blueprint f), s)
  | .ok layers =>
    match p.answer .openVersion s with
    | (.error e, s) => (.error (.call .opening none e), s)
    | (.ok version, s) => writeLayers p ⟨version, [], [], [.opening]⟩ s layers

/-- Activates the version of a report. -/
def activate (p : Platform σ) (r : Report) (s : σ) : Except RolloutFailure Unit × σ :=
  match p.answer (.activate r.version) s with
  | (.ok _, s) => (.ok (), s)
  | (.error e, s) => (.error (.call .ready (some r.version) e), s)

end Rollout

/-- What a rollout needs to know besides targets and weights. -/
structure RolloutSettings where
  checkPath : String
  lockHeader : String
  deriving Repr, DecidableEq

namespace RolloutSettings

/-- The logic for targets and the blueprint that installs it, once it is known to have layers. -/
def prepare (settings : RolloutSettings) (targets : List Target) (table : WeightTable) :
    Except RolloutFailure (EdgeLogic × Blueprint) :=
  match EdgeLogic.ofTargets targets table settings.lockHeader with
  | .error e => .error (.routing e)
  | .ok logic =>
    let blueprint := Blueprint.ofTargets targets logic.fragments settings.checkPath
    match blueprint.layers with
    | .error f => .error (.blueprint f)
    | .ok _ => .ok (logic, blueprint)

/-- Prepares a rollout and runs it. -/
def deploy {σ : Type} (settings : RolloutSettings) (p : Platform σ) (targets : List Target)
    (table : WeightTable) (s : σ) : Except RolloutFailure Report × σ :=
  match settings.prepare targets table with
  | .error e => (.error e, s)
  | .ok (_, blueprint) => Rollout.run p blueprint s

end RolloutSettings

end EdgeRouting
