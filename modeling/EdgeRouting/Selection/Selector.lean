import EdgeRouting.Selection.Subfield
import EdgeRouting.Weight.Shares

/-!
# Weighted selection

A selector decides which target serves a request. Without an override the first target wins
whose threshold reaches the draw and that is healthy; with an override the target of that name wins,
whatever the draw and its health. When no target wins, the first one serves as the fallback.
-/

namespace EdgeRouting

/-- A target with its share of the traffic. -/
structure Contender where
  name : String
  /-- The name in lower case. -/
  key : String
  backend : String
  weight : Int64
  threshold : Int64
  deriving Repr, DecidableEq

structure Selector where
  contenders : List Contender
  even : Int64
  /-- The fallback logic of the first target. -/
  fallbackLogic : String
  /-- The header that names an override. -/
  lockHeader : String
  nonempty : contenders ≠ []
  deriving Repr, DecidableEq

/-- What a selection depends on. -/
structure RouteRequest where
  draw : Nat
  /-- The health of the targets in their order; a target without an entry is unhealthy. -/
  health : List Bool
  /-- The value of the override header, if there is one. -/
  lock : Option String
  deriving Repr, DecidableEq

structure Choice where
  index : Nat
  name : String
  /-- The health of all targets, `1` or `0` each, with spaces between them. -/
  healthSnapshot : String
  /-- Whether no target won. -/
  fallback : Bool
  deriving Repr, DecidableEq

namespace Selector

/-- The number of different draws. -/
def drawRange : Nat := 100

def contenderOf (t : Target) (shares : Int64 × Int64) : Contender :=
  ⟨t.name, t.key, t.backendRef, shares.1, shares.2⟩

def contendersOf (targets : List Target) (shares : Shares) : List Contender :=
  List.zipWith contenderOf targets (shares.weights.zip shares.thresholds)

theorem contendersOf_ne_nil {targets : List Target} (table : WeightTable)
    (h : targets ≠ []) : contendersOf targets (Shares.ofTargets targets table) ≠ [] := by
  cases targets with
  | nil => exact absurd rfl h
  | cons t r => simp [contendersOf, Shares.ofTargets, runningSums]

/-- The selector for targets, of which there must be one and whose names must be fit to route. -/
def ofTargets (targets : List Target) (table : WeightTable) (lockHeader : String) :
    Except RoutingError Selector :=
  match targets with
  | [] => .error .noTargets
  | first :: r => do
    verifyNames (first :: r)
    let shares := Shares.ofTargets (first :: r) table
    .ok {
      contenders := contendersOf (first :: r) shares
      even := shares.even
      fallbackLogic := first.fallbackLogic
      lockHeader
      nonempty := contendersOf_ne_nil table (by simp) }

def healthyAt (health : List Bool) (i : Nat) : Bool := health[i]?.getD false

/-- Whether a target wins on its draw, its health and the absence of an override. -/
def winsDraw (request : RouteRequest) (token : Option String) (c : Contender) (i : Nat) : Bool :=
  (request.draw : Int) ≤ c.threshold.toInt && healthyAt request.health i && token.isNone

def isPinned (token : Option String) (c : Contender) : Bool := token == some c.key

/-- The first target that wins, with its position counted from `i`. -/
def firstWinner (request : RouteRequest) (token : Option String) (i : Nat) :
    List Contender → Option (Nat × Contender)
  | [] => none
  | c :: r =>
    if winsDraw request token c i || isPinned token c then some (i, c)
    else firstWinner request token (i + 1) r

def healthSnapshot (count : Nat) (health : List Bool) : String :=
  " ".intercalate ((List.range count).map fun i => if healthyAt health i then "1" else "0")

/-- The target that serves a request. -/
def select (p : Selector) (request : RouteRequest) : Choice :=
  let snapshot := healthSnapshot p.contenders.length request.health
  match firstWinner request (request.lock.bind Selection.overrideToken) 0 p.contenders with
  | some (i, c) => ⟨i, c.name, snapshot, false⟩
  | none => ⟨0, (p.contenders.head p.nonempty).name, snapshot, true⟩

end Selector

end EdgeRouting
