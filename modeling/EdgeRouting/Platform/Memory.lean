import EdgeRouting.Platform.Basic

/-!
# A platform in memory

The platform that keeps the backends of every version in memory and can be told to fail. A version
is opened as a copy of the latest one. Every call of which a failure is set fails before it changes
anything.
-/

namespace EdgeRouting

/-- How a call is told to fail. -/
structure Fault where
  /-- The status of the answer, if there is to be a status. -/
  status : Option Nat
  message : String
  deriving Repr, DecidableEq

/-- The failure of a call about a resource. -/
def Fault.failure (resource : String) (f : Fault) : CallFailure :=
  match f.status with
  | some status => .refused resource status f.message
  | none => .unusable resource f.message

structure Memory where
  /-- The number of the latest version. -/
  latest : Nat
  /-- The backends of each version, latest version first. -/
  backends : List (Nat × List String)
  /-- The faults that are set, by the text of a call or the name of a resource. -/
  faults : List (String × Fault)
  /-- The versions that have been activated, in order. -/
  activated : List Nat
  deriving Repr, DecidableEq

namespace Memory

def initial : Memory := ⟨1, [], [], []⟩

/-- Sets a fault; an earlier one of the same target is replaced. -/
def fail (m : Memory) (target : String) (fault : Fault) : Memory :=
  { m with faults := (target, fault) :: m.faults }

def clearFaults (m : Memory) : Memory := { m with faults := [] }

/-- The fault that a call meets: one set for the call itself, or else one set for its resource. -/
def faultOf? (m : Memory) (c : Call) : Option Fault :=
  (m.faults.lookup c.text).or (m.faults.lookup c.resource)

def backendsOf (m : Memory) (version : Nat) : List String := (m.backends.lookup version).getD []

def duplicateMessage (name : String) : String :=
  "Duplicate record: backend '" ++ name ++ "' already exists"

/-- The answer to a call that meets no fault. -/
def perform (m : Memory) : (c : Call) → Except CallFailure c.Answer × Memory
  | .openVersion =>
    (.ok (m.latest + 1), { m with
      latest := m.latest + 1
      backends := (m.latest + 1, m.backendsOf m.latest) :: m.backends })
  | .write _ _ => (.ok (), m)
  | .create v b =>
    if b.name ∈ m.backendsOf v then
      (.error (.refused (Call.create v b).resource 409 (duplicateMessage b.name)), m)
    else (.ok (), { m with backends := (v, b.name :: m.backendsOf v) :: m.backends })
  | .update v b =>
    if b.name ∈ m.backendsOf v then (.ok (), m)
    else (.error (.refused (Call.update v b).resource 404 "Record not found"), m)
  | .activate v => (.ok (), { m with activated := m.activated ++ [v] })

def answer (c : Call) (m : Memory) : Except CallFailure c.Answer × Memory :=
  match m.faultOf? c with
  | some f => (.error (f.failure c.resource), m)
  | none => m.perform c

def platform : Platform Memory := ⟨answer⟩

end Memory

end EdgeRouting
