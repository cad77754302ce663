import EdgeRouting.Proofs.Rollout.Preparation
import EdgeRouting.Settings.Validation

/-!
# Validation and compilation agree

Validation reads settings once and collects the faults of all targets. Compilation reads them in
passes, each of which stops at what it does not like: templates first, then the names, then the
layers of the blueprint. The two accept the same routing sets (`validate_agrees`).

The comparison is an induction over the targets in which the keys of earlier names are arbitrary
(`forall_targetFaults_iff`). Validation keeps only the keys of well-formed names, while the check of
names stops before an ill-formed one, so as long as neither has found anything the keys are the
same.
-/

namespace EdgeRouting

/-! ## Faults of what is routed -/

/-- A fault of the routing set, not of how the platform or a host is reached. -/
def SettingsFault.IsOfRouting : SettingsFault → Prop
  | .noTargets => True
  | .emptyName _ => True
  | .invalidName _ => True
  | .duplicateName _ => True
  | .invalidTemplate _ _ => True
  | .emptyHost _ => False
  | .invalidApiUrl _ => False
  | .emptyLockHeader => False

namespace Settings

variable {seen : List String} {position : Nat} {t : TargetSettings} {r : List TargetSettings}

theorem forall_nameFaults_iff {name : String} :
    (∀ f ∈ nameFaults seen position name, ¬ f.IsOfRouting)
      ↔ isTargetName name = true ∧ Text.lower name ∉ seen := by
  unfold nameFaults
  by_cases hempty : name.isEmpty = true
  · have hname : name = "" := String.isEmpty_iff.1 hempty
    subst hname
    simp [SettingsFault.IsOfRouting, isTargetName]
  · by_cases hname : isTargetName name = true
    · by_cases hseen : Text.lower name ∈ seen
      · simp [hempty, hname, hseen, SettingsFault.IsOfRouting]
      · simp [hempty, hname, hseen]
    · simp [hempty, hname, SettingsFault.IsOfRouting]

theorem forall_hostFaults : ∀ f ∈ hostFaults t, ¬ f.IsOfRouting := by
  intro f hf
  unfold hostFaults at hf
  split at hf
  · obtain rfl := List.mem_singleton.1 hf
    exact id
  · cases hf

theorem forall_templateFaults_iff :
    (∀ f ∈ templateFaults t, ¬ f.IsOfRouting) ↔ ∃ target, t.target = .ok target := by
  unfold templateFaults TargetSettings.target
  cases Template.parse t.urlTemplate with
  | error f => simp [SettingsFault.IsOfRouting, bind, Except.bind]
  | ok template => simp [bind, Except.bind]

theorem forall_serviceFaults {s : ServiceSettings} : ∀ f ∈ serviceFaults s, ¬ f.IsOfRouting := by
  intro f hf
  unfold serviceFaults at hf
  rcases List.mem_append.1 hf with hf | hf
  · split at hf
    · cases hf
    · obtain rfl := List.mem_singleton.1 hf
      exact id
  · split at hf
    · obtain rfl := List.mem_singleton.1 hf
      exact id
    · cases hf

/-! ## Targets that are read and then checked -/

theorem name_of_target {target : Target} (h : t.target = .ok target) : target.name = t.name := by
  unfold TargetSettings.target at h
  cases hparse : Template.parse t.urlTemplate with
  | error f =>
      rw [hparse] at h
      cases h
  | ok template =>
      rw [hparse] at h
      obtain rfl := Except.ok.inj h
      rfl

theorem buildTargets_cons_eq_ok_iff {targets : List Target} :
    buildTargets (t :: r) = .ok targets ↔ ∃ target later, t.target = .ok target
      ∧ buildTargets r = .ok later ∧ targets = target :: later := by
  rw [buildTargets]
  cases t.target with
  | error f => simp
  | ok target =>
      cases buildTargets r with
      | error f => simp [bind, Except.bind]
      | ok later => simp [bind, Except.bind, eq_comm]

/-- The check of names goes on behind a target whose name is well-formed and new. -/
theorem verifyNamesAfter_cons_eq_ok_iff {target : Target} {later : List Target} :
    verifyNamesAfter seen (target :: later) = .ok () ↔ isTargetName target.name = true
      ∧ target.key ∉ seen ∧ verifyNamesAfter (target.key :: seen) later = .ok () := by
  rw [verifyNamesAfter]
  by_cases hname : isTargetName target.name = true
  · by_cases hseen : target.key ∈ seen
    · simp [hname, hseen]
    · simp [hname, hseen]
  · simp [hname]

theorem forall_targetFaults_iff {targets : List TargetSettings} :
    (∀ f ∈ targetFaults seen position targets, ¬ f.IsOfRouting)
      ↔ ∃ built, buildTargets targets = .ok built ∧ verifyNamesAfter seen built = .ok () := by
  induction targets generalizing seen position with
  | nil => simp [targetFaults, buildTargets, verifyNamesAfter]
  | cons t r ih =>
      rw [targetFaults, List.forall_mem_append, List.forall_mem_append, List.forall_mem_append,
        forall_nameFaults_iff, forall_templateFaults_iff, ih]
      constructor
      · rintro ⟨⟨⟨⟨hname, hfresh⟩, -⟩, target, htarget⟩, later, hlater, hverified⟩
        rw [if_pos hname] at hverified
        have hkey : target.key = Text.lower t.name := congrArg Text.lower (name_of_target htarget)
        refine ⟨target :: later,
          buildTargets_cons_eq_ok_iff.2 ⟨target, later, htarget, hlater, rfl⟩,
          verifyNamesAfter_cons_eq_ok_iff.2 ⟨?_, ?_, ?_⟩⟩
        · rw [name_of_target htarget]
          exact hname
        · rw [hkey]
          exact hfresh
        · rw [hkey]
          exact hverified
      · rintro ⟨built, hbuilt, hverified⟩
        obtain ⟨target, later, htarget, hlater, rfl⟩ := buildTargets_cons_eq_ok_iff.1 hbuilt
        obtain ⟨hname, hfresh, hrest⟩ := verifyNamesAfter_cons_eq_ok_iff.1 hverified
        have hkey : target.key = Text.lower t.name := congrArg Text.lower (name_of_target htarget)
        rw [name_of_target htarget] at hname
        rw [hkey] at hfresh hrest
        refine ⟨⟨⟨⟨hname, hfresh⟩, forall_hostFaults⟩, target, htarget⟩, later, hlater, ?_⟩
        rwa [if_pos hname]

theorem isEmpty_of_buildTargets {targets : List TargetSettings} {built : List Target}
    (h : buildTargets targets = .ok built) : built = [] ↔ targets = [] := by
  cases targets with
  | nil =>
      obtain rfl := Except.ok.inj h
      exact iff_of_true rfl rfl
  | cons t r =>
      obtain ⟨target, later, -, -, rfl⟩ := buildTargets_cons_eq_ok_iff.1 h
      exact iff_of_false (by simp) (by simp)

/-! ## Whole settings -/

variable {s : Settings} {table : WeightTable} {lockHeader : String}

theorem forall_faults_iff : (∀ f ∈ s.faults, ¬ f.IsOfRouting)
    ↔ ∃ targets logic, buildTargets s.targets = .ok targets
      ∧ EdgeLogic.ofTargets targets table lockHeader = .ok logic := by
  have hsome : (∀ f ∈ (if s.targets.isEmpty then [SettingsFault.noTargets] else []),
      ¬ f.IsOfRouting) ↔ s.targets ≠ [] := by
    cases s.targets <;> simp [SettingsFault.IsOfRouting]
  rw [faults, List.forall_mem_append, List.forall_mem_append, hsome, forall_targetFaults_iff]
  constructor
  · rintro ⟨⟨hne, targets, hbuilt, hnames⟩, -⟩
    have htargets : targets ≠ [] := mt (isEmpty_of_buildTargets hbuilt).1 hne
    obtain ⟨logic, hlogic⟩ := EdgeLogic.exists_ofTargets_iff.2 ⟨htargets, hnames⟩
    exact ⟨targets, logic, hbuilt, hlogic⟩
  · rintro ⟨targets, logic, hbuilt, hlogic⟩
    obtain ⟨htargets, hnames⟩ := EdgeLogic.exists_ofTargets_iff.1 ⟨logic, hlogic⟩
    exact ⟨⟨mt (isEmpty_of_buildTargets hbuilt).2 htargets, targets, hbuilt, hnames⟩,
      forall_serviceFaults⟩

theorem faults_of_validate {warnings : List SettingsWarning} (h : s.validate = .ok warnings) :
    s.faults = [] := by
  unfold validate at h
  split at h
  · next hempty => exact List.isEmpty_iff.1 hempty
  · cases h

/-- Accepted settings have targets, and logic can be made for them. -/
theorem exists_logic_of_validate {warnings : List SettingsWarning} (h : s.validate = .ok warnings)
    (table : WeightTable) (lockHeader : String) :
    ∃ targets logic, buildTargets s.targets = .ok targets
      ∧ EdgeLogic.ofTargets targets table lockHeader = .ok logic := by
  have hnone : ∀ f ∈ s.faults, ¬ f.IsOfRouting := by
    rw [faults_of_validate h]
    simp
  exact forall_faults_iff.1 hnone

theorem forall_reported_iff {P : SettingsFault → Prop} :
    (∀ faults, s.validate = .error faults → ∀ f ∈ faults, P f) ↔ ∀ f ∈ s.faults, P f := by
  unfold validate
  cases s.faults with
  | nil => simp
  | cons f r => simp

/-- No fault of the routing set is reported exactly when its targets can be built and their logic
made. When nothing at all is reported, the rollout can be prepared as well, whatever the header, the
path of the checks and the weights are. -/
theorem validate_agrees (s : Settings) (table : WeightTable) :
    (∀ lockHeader,
      (∀ faults, s.validate = .error faults → ∀ f ∈ faults, ¬ f.IsOfRouting)
        ↔ ∃ targets logic, buildTargets s.targets = .ok targets
          ∧ EdgeLogic.ofTargets targets table lockHeader = .ok logic)
      ∧ ∀ warnings, s.validate = .ok warnings → ∀ settings : RolloutSettings,
        ∃ targets logic blueprint layers, buildTargets s.targets = .ok targets
          ∧ EdgeLogic.ofTargets targets table settings.lockHeader = .ok logic
          ∧ settings.prepare targets table = .ok (logic, blueprint)
          ∧ blueprint.layers = .ok layers := by
  refine ⟨fun lockHeader => forall_reported_iff.trans forall_faults_iff, ?_⟩
  intro warnings hvalid settings
  have hnone : ∀ f ∈ s.faults, ¬ f.IsOfRouting := by
    rw [faults_of_validate hvalid]
    simp
  obtain ⟨targets, logic, hbuilt, hlogic⟩ := forall_faults_iff.1 hnone
  exact ⟨targets, logic, _, _, hbuilt, hlogic, RolloutSettings.prepare_eq_ok_iff.2 ⟨hlogic, rfl⟩,
    RolloutSettings.layers_prepared hlogic settings.checkPath⟩

/-! ### A set with a name that is close to another one

The name of the second target is that of the health check of the first one, in another case. -/

def closeTarget (name : String) : TargetSettings :=
  ⟨name, "10.0.0.1", "/api", "\x7bbase_path\x7d/\x7bpackage\x7d\x7brest\x7d", none⟩

def closeSettings : Settings :=
  { Settings.default with
    service := { ServiceSettings.default with apiUrl := "http://10.0.0.1/api" }
    targets := [closeTarget "A", closeTarget "aCHECK"] }

theorem validate_closeSettings :
    closeSettings.validate = .ok []
      ∧ ∃ targets logic blueprint layers, buildTargets closeSettings.targets = .ok targets
        ∧ EdgeLogic.ofTargets targets .empty "X-Pin" = .ok logic
        ∧ RolloutSettings.prepare ⟨"/up", "X-Pin"⟩ targets .empty = .ok (logic, blueprint)
        ∧ blueprint.layers = .ok layers := by
  have hvalid : closeSettings.validate = .ok [] := by with_unfolding_all rfl
  exact ⟨hvalid, (validate_agrees closeSettings .empty).2 [] hvalid ⟨"/up", "X-Pin"⟩⟩

end Settings

end EdgeRouting
