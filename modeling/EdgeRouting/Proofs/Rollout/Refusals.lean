import EdgeRouting.Proofs.Rollout.Walk
import EdgeRouting.Rollout.Interleaving

/-!
# Behind a backend that could not be created

A rollout asks for a backend to be created, and what comes next depends on the failure alone. If the
backend exists already, the next call changes it in the same version; otherwise there is no next
call, and the rollout has failed with that failure (`transcript_behind_refused`). When the calls of
a layer are under way at the same time, the same is true of the write of the backend
(`TaskStep.refused_iff`, `TaskStep.conflicting_iff`).
-/

namespace EdgeRouting.Rollout

open Blueprint

variable {v w : Nat} {i : Item} {items : List Item} {b : Backend} {e f : CallFailure}
  {x before after : List Exchange}

/-! ## One call behind the other -/

theorem WritesItem.behind_refused {existed : Bool} (h : WritesItem v i x existed)
    (hsplit : x = before ++ ⟨.create w b, .error e⟩ :: after) :
    e.isConflict = true ∧ ∃ result, after = [⟨.update w b, result⟩] := by
  cases h with
  | written _ =>
      rcases before with _ | ⟨first, before⟩ <;> simp at hsplit
  | created _ =>
      rcases before with _ | ⟨first, before⟩
      · obtain ⟨hfirst, -⟩ := List.cons.inj hsplit
        cases hfirst
      · simp at hsplit
  | updated _ hconflict =>
      rcases before with _ | ⟨first, _ | ⟨second, before⟩⟩
      · obtain ⟨hfirst, rfl⟩ := List.cons.inj hsplit
        cases hfirst
        exact ⟨hconflict, _, rfl⟩
      · simp at hsplit
      · simp at hsplit

theorem FailsItem.behind_refused (h : FailsItem v i x f)
    (hsplit : x = before ++ ⟨.create w b, .error e⟩ :: after) :
    (e.isConflict = true ∧ ∃ result, after = [⟨.update w b, result⟩])
      ∨ (e.isConflict = false ∧ after = [] ∧ f = e ∧ v = w) := by
  cases h with
  | write _ =>
      rcases before with _ | ⟨first, before⟩ <;> simp at hsplit
  | create _ hfatal =>
      rcases before with _ | ⟨first, before⟩
      · obtain ⟨hfirst, rfl⟩ := List.cons.inj hsplit
        cases hfirst
        exact .inr ⟨hfatal, rfl, rfl, rfl⟩
      · simp at hsplit
  | update _ hconflict =>
      rcases before with _ | ⟨first, _ | ⟨second, before⟩⟩
      · obtain ⟨hfirst, rfl⟩ := List.cons.inj hsplit
        cases hfirst
        exact .inl ⟨hconflict, _, rfl⟩
      · simp at hsplit
      · simp at hsplit

theorem WritesAll.behind_refused {existing : List ResourceKey} (h : WritesAll v items x existing)
    (hsplit : x = before ++ ⟨.create w b, .error e⟩ :: after) :
    e.isConflict = true ∧ ∃ result rest, after = ⟨.update w b, result⟩ :: rest := by
  induction h generalizing before with
  | nil => simp at hsplit
  | cons hi _ ih =>
      rcases append_eq_append_cons hsplit with ⟨rest, hfirst, rfl⟩ | ⟨between, -, hlater⟩
      · obtain ⟨hconflict, result, rfl⟩ := hi.behind_refused hfirst
        exact ⟨hconflict, result, _, rfl⟩
      · exact ih hlater

/-- What follows in a rollout on a backend that could not be created. -/
theorem transcript_behind_refused {σ : Type} {p : Platform σ} {blueprint : Blueprint} {s : σ}
    (h : transcript p blueprint s = before ++ ⟨.create v b, .error e⟩ :: after) :
    (e.isConflict = true ∧ ∃ result rest, after = ⟨.update v b, result⟩ :: rest)
      ∨ (e.isConflict = false ∧ after = []
        ∧ ∃ stage, (run p blueprint s).1 = .error (.call stage (some v) e)) := by
  cases hlayers : blueprint.layers with
  | error fault =>
      have hnone : transcript p blueprint s = [] := by rw [transcript, run, hlayers]
      rw [hnone] at h
      simp at h
  | ok layers =>
      have hwalked := walked_of_layers p hlayers s
      revert hwalked
      generalize (run p blueprint s).1 = outcome
      cases outcome with
      | ok r =>
          rintro ⟨⟨x, ht, hall⟩, -⟩
          obtain ⟨between, -, hx⟩ : ∃ between, before = ⟨.openVersion, .ok r.version⟩ :: between
              ∧ x = between ++ ⟨.create v b, .error e⟩ :: after := by
            rcases before with _ | ⟨first, between⟩
            · cases (List.cons.inj (ht.symm.trans h)).1
            · obtain ⟨rfl, hx⟩ := List.cons.inj (ht.symm.trans h)
              exact ⟨between, rfl, hx⟩
          exact .inl (hall.behind_refused hx)
      | error failure =>
          rintro (⟨ht⟩ | ⟨-, ht, hall, hfails, -, -⟩)
          · rcases before with _ | ⟨first, between⟩
            · cases (List.cons.inj (ht.symm.trans h)).1
            · obtain ⟨-, hx⟩ := List.cons.inj (ht.symm.trans h)
              simp at hx
          · rcases before with _ | ⟨first, between⟩
            · cases (List.cons.inj (ht.symm.trans h)).1
            · obtain ⟨-, hx⟩ := List.cons.inj (ht.symm.trans h)
              rcases append_eq_append_cons hx with ⟨rest, hwalk, rfl⟩ | ⟨_, -, hlast⟩
              · obtain ⟨hconflict, result, rest, rfl⟩ := hall.behind_refused hwalk
                exact .inl ⟨hconflict, result, _, rfl⟩
              · rcases hfails.behind_refused hlast with
                  ⟨hconflict, result, rfl⟩ | ⟨hfatal, rfl, rfl, rfl⟩
                · exact .inl ⟨hconflict, result, _, rfl⟩
                · exact .inr ⟨hfatal, rfl, _, rfl⟩

/-! ## Calls that are under way at the same time -/

theorem TaskStep.refused_iff {state : TaskState} :
    TaskStep v i (.asking (.create v b)) (.refused (.create v b) e) state
      ↔ state = if e.isConflict then .conflicting else .failed := by
  have hfatal : Call.isFatal (.create v b) e = !e.isConflict := rfl
  cases hconflict : e.isConflict with
  | true =>
      rw [hconflict] at hfatal
      constructor
      · rintro (_ | _ | _ | _ | h)
        · rfl
        · cases h.symm.trans hfatal
      · rintro rfl
        exact .conflict hfatal
  | false =>
      rw [hconflict] at hfatal
      constructor
      · rintro (_ | _ | _ | h | _)
        · cases h.symm.trans hfatal
        · rfl
      · rintro rfl
        exact .refuse hfatal

theorem TaskStep.conflicting_iff {event : Event} {state : TaskState}
    (hi : i.resource = .backend b) : TaskStep v i .conflicting event state
      ↔ event = .asked (.update v b) ∧ state = .asking (.update v b) := by
  constructor
  · rintro ⟨⟩
    next b' hb' =>
    obtain rfl := Resource.backend.inj (hi.symm.trans hb')
    exact ⟨rfl, rfl⟩
  · rintro ⟨rfl, rfl⟩
    exact .again hi

end EdgeRouting.Rollout
