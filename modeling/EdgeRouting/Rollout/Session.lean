import EdgeRouting.Platform.Memory
import EdgeRouting.Rollout.Basic

/-!
# Sessions

Operations on one platform in memory, one after the other. Rollouts that succeed earn reports, and a
version can be activated only with a report that was earned earlier in the session. Every rollout is
remembered with how it ended.
-/

namespace EdgeRouting

inductive Operation where
  /-- Calls to a target fail from now on. -/
  | fail (target : String) (fault : Fault)
  /-- No call fails from now on. -/
  | clear
  | deploy (targets : List Target) (table : WeightTable)
  | execute (blueprint : Blueprint)
  /-- Activates the version of the report that was earned at this position. -/
  | activate (position : Nat)
  deriving Repr, DecidableEq

/-- A rollout that got as far as having a blueprint, with how it ended. -/
structure Attempt where
  blueprint : Blueprint
  result : Except RolloutFailure Report
  deriving Repr

/-- The version that an attempt opened, if it opened one. -/
def Attempt.version? (a : Attempt) : Option Nat :=
  match a.result with
  | .ok r => some r.version
  | .error f => f.version?

structure Session where
  memory : Memory
  attempts : List Attempt
  /-- The calls of the last operation. -/
  calls : List Call
  deriving Repr

/-- What an operation answers. -/
inductive OperationResult where
  | none
  | report (r : Report)
  | activated
  | failure (f : RolloutFailure)
  /-- No report was earned at this position. -/
  | noReport
  deriving Repr, DecidableEq

namespace Session

def initial : Session := ⟨.initial, [], []⟩

/-- The reports earned so far. -/
def reports (s : Session) : List Report := s.attempts.filterMap fun a => a.result.toOption

/-- Rolls out a blueprint. -/
def attempt (s : Session) (b : Blueprint) : OperationResult × Session :=
  let (result, memory, calls) := Rollout.run Memory.platform.recorded b (s.memory, [])
  let next : Session := ⟨memory, s.attempts ++ [⟨b, result⟩], calls⟩
  match result with
  | .ok r => (.report r, next)
  | .error f => (.failure f, next)

def step (settings : RolloutSettings) (s : Session) : Operation → OperationResult × Session
  | .fail target fault => (.none, { s with memory := s.memory.fail target fault, calls := [] })
  | .clear => (.none, { s with memory := s.memory.clearFaults, calls := [] })
  | .deploy targets table =>
    match settings.prepare targets table with
    | .error f => (.failure f, { s with calls := [] })
    | .ok (_, blueprint) => s.attempt blueprint
  | .execute blueprint => s.attempt blueprint
  | .activate position =>
    match s.reports[position]? with
    | Option.none => (.noReport, { s with calls := [] })
    | some r =>
      let (result, memory, calls) := Rollout.activate Memory.platform.recorded r (s.memory, [])
      let next := { s with memory, calls }
      match result with
      | .ok () => (.activated, next)
      | .error f => (.failure f, next)

/-- The session after operations in order. -/
def run (settings : RolloutSettings) (s : Session) (operations : List Operation) : Session :=
  operations.foldl (fun s o => (s.step settings o).2) s

end Session

end EdgeRouting
