import EdgeRouting.Proofs.Blueprint.Stages
import EdgeRouting.Rollout.Basic

/-!
# What a preparation gives

Edge logic can be made for targets exactly when there is one and their names can stand together
(`exists_ofTargets_iff`). That is also all that a preparation needs: the six fragments have
different names, so the blueprint that installs them is layered in its three stages
(`layers_prepared`), and a preparation fails for no other reason (`prepare_eq_ok_iff`).
-/

namespace EdgeRouting

variable {targets : List Target} {table : WeightTable}

/-! ## Edge logic -/

namespace EdgeLogic

variable {lockHeader : String} {logic : EdgeLogic}

theorem exists_ofTargets_iff :
    (∃ logic, ofTargets targets table lockHeader = .ok logic)
      ↔ targets ≠ [] ∧ verifyNames targets = .ok () := by
  unfold ofTargets Selector.ofTargets Outbound.ofTargets
  cases targets with
  | nil => simp [bind, Except.bind]
  | cons t r =>
      cases hnames : verifyNames (t :: r) with
      | error e => simp [hnames, bind, Except.bind]
      | ok u => simp [hnames, bind, Except.bind]

/-- What the logic for targets is made of. -/
theorem ofTargets_eq_ok (h : ofTargets targets table lockHeader = .ok logic) :
    Selector.ofTargets targets table lockHeader = .ok logic.selector
      ∧ Outbound.ofTargets targets = .ok logic.outbound
      ∧ logic.fragments = fragmentsOf logic.selector logic.outbound := by
  unfold ofTargets at h
  cases hselector : Selector.ofTargets targets table lockHeader with
  | error e =>
      rw [hselector] at h
      cases h
  | ok selector =>
      cases houtbound : Outbound.ofTargets targets with
      | error e =>
          rw [hselector, houtbound] at h
          cases h
      | ok outbound =>
          rw [hselector, houtbound] at h
          obtain rfl := Except.ok.inj h
          exact ⟨rfl, rfl, rfl⟩

/-- The names of the fragments in their order. -/
def fragmentNames : List String :=
  ["backend", "missurl", "passurl", "logurl", "stashsurrogates", "restoresurrogates"]

theorem map_name_fragments (h : ofTargets targets table lockHeader = .ok logic) :
    logic.fragments.map Fragment.name = fragmentNames := by
  rw [(ofTargets_eq_ok h).2.2]
  rfl

end EdgeLogic

theorem WellNamed.nodup_names (h : WellNamed targets) : (targets.map Target.name).Nodup := by
  refine List.pairwise_map.2 ((List.pairwise_map.1 h.2).imp ?_)
  exact fun hne heq => hne (congrArg Text.lower heq)

/-! ## Blueprints -/

namespace RolloutSettings

variable {settings : RolloutSettings} {logic : EdgeLogic} {b : Blueprint}

/-- With a target and with fragments no stage is left out. -/
theorem layers_prepared (h : EdgeLogic.ofTargets targets table settings.lockHeader = .ok logic)
    (checkPath : String) : (Blueprint.ofTargets targets logic.fragments checkPath).layers =
      .ok [Blueprint.standing targets checkPath, targets.map Blueprint.backendItem,
        logic.fragments.map (Blueprint.fragmentItem targets)] := by
  obtain ⟨hne, hnames⟩ := EdgeLogic.exists_ofTargets_iff.1 ⟨logic, h⟩
  have hfragments := EdgeLogic.map_name_fragments h
  have hsome : logic.fragments ≠ [] := by
    intro hnil
    rw [hnil] at hfragments
    cases hfragments
  rw [Blueprint.layers_ofTargets (verifyNames_eq_ok_iff.1 hnames).nodup_names
    (by rw [hfragments]; decide)]
  simp [Blueprint.standing, hne, hsome]

theorem prepare_eq_ok_iff : settings.prepare targets table = .ok (logic, b) ↔
    EdgeLogic.ofTargets targets table settings.lockHeader = .ok logic
      ∧ b = Blueprint.ofTargets targets logic.fragments settings.checkPath := by
  unfold prepare
  cases hlogic : EdgeLogic.ofTargets targets table settings.lockHeader with
  | error e => simp
  | ok logic' =>
      simp only [layers_prepared hlogic, Except.ok.injEq, Prod.mk.injEq]
      constructor
      · rintro ⟨rfl, rfl⟩
        exact ⟨rfl, rfl⟩
      · rintro ⟨rfl, rfl⟩
        exact ⟨rfl, rfl⟩

end RolloutSettings

end EdgeRouting
