import EdgeRouting.Template.Basic
import EdgeRouting.Text.LowerCase

/-!
# Targets

A target is a backend that requests can be routed to. Its name is used in the generated logic, so a
set of targets can be routed only if every name is an identifier and no two names agree in lower
case; `verifyNames` finds the first target that breaks the rule.
-/

namespace EdgeRouting

structure Target where
  name : String
  host : String
  basePath : String
  template : Template
  /-- Logic that runs only when this target serves as the fallback. -/
  fallbackLogic : String
  deriving Repr, DecidableEq

namespace Target

/-- The name in lower case: the key of the target in tables, locals and overrides. -/
def key (t : Target) : String := Text.lower t.name

/-- The name of the backend in the generated logic. -/
def backendRef (t : Target) : String := "F_" ++ t.name

def healthCheckName (t : Target) : String := t.name ++ "Check"

end Target

/-! ## Names -/

def isNameStart (c : Char) : Bool := c.isAlpha

def isNameChar (c : Char) : Bool := c.isAlphanum || c = '_'

/-- An ASCII letter followed by ASCII letters, digits and underscores. -/
def isTargetName (name : String) : Bool :=
  match name.toList with
  | [] => false
  | c :: r => isNameStart c && r.all isNameChar

/-- Why a set of targets cannot be routed. -/
inductive RoutingError where
  | noTargets
  | invalidName (name : String)
  /-- Two names agree in lower case, which is given. -/
  | duplicateName (key : String)
  deriving Repr, DecidableEq

def RoutingError.message : RoutingError → String
  | .noTargets => "routing set has no deployers"
  | .invalidName name =>
    "deployer name '" ++ name
      ++ "' must start with a letter and contain only letters, digits or '_'"
  | .duplicateName key => "duplicate deployer name '" ++ key ++ "'"

/-- The first fault among the names of targets, when the keys in `seen` are taken already. -/
def verifyNamesAfter (seen : List String) : List Target → Except RoutingError Unit
  | [] => .ok ()
  | t :: r =>
    if !isTargetName t.name then .error (.invalidName t.name)
    else if t.key ∈ seen then .error (.duplicateName t.key)
    else verifyNamesAfter (t.key :: seen) r

def verifyNames (targets : List Target) : Except RoutingError Unit := verifyNamesAfter [] targets

/-- Names that can stand in generated logic together. -/
def WellNamed (targets : List Target) : Prop :=
  (∀ t ∈ targets, isTargetName t.name = true) ∧ (targets.map Target.key).Nodup

theorem verifyNamesAfter_eq_ok_iff {seen : List String} {targets : List Target} :
    verifyNamesAfter seen targets = .ok () ↔
      WellNamed targets ∧ ∀ t ∈ targets, t.key ∉ seen := by
  induction targets generalizing seen with
  | nil => simp [verifyNamesAfter, WellNamed]
  | cons t r ih =>
    by_cases hid : isTargetName t.name = true
    · by_cases hseen : t.key ∈ seen
      · simp [verifyNamesAfter, hid, hseen]
      · simp only [verifyNamesAfter, hid, Bool.not_true, Bool.false_eq_true, if_false, hseen, ih,
          WellNamed, List.mem_cons, forall_eq_or_imp, List.map_cons, List.nodup_cons, List.mem_map,
          not_or]
        constructor
        · rintro ⟨⟨hids, hnd⟩, hks⟩
          refine ⟨⟨⟨trivial, hids⟩, ?_, hnd⟩, not_false, fun u hu => (hks u hu).2⟩
          rintro ⟨u, hu, huk⟩
          exact (hks u hu).1 huk
        · rintro ⟨⟨⟨-, hids⟩, hfresh, hnd⟩, -, hks⟩
          exact ⟨⟨hids, hnd⟩, fun u hu => ⟨fun h => hfresh ⟨u, hu, h⟩, hks u hu⟩⟩
    · simp [verifyNamesAfter, hid, WellNamed]

/-- The check accepts exactly the sets whose names can stand together. -/
theorem verifyNames_eq_ok_iff {targets : List Target} :
    verifyNames targets = .ok () ↔ WellNamed targets := by
  simp [verifyNames, verifyNamesAfter_eq_ok_iff]

end EdgeRouting
