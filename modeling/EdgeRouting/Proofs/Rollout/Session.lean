import EdgeRouting.Proofs.Blueprint.Layers
import EdgeRouting.Proofs.Rollout.Replay
import EdgeRouting.Proofs.Rollout.Walk
import EdgeRouting.Rollout.Session

/-!
# Only versions that were written are activated

A session is told by its history, the exchanges of all its operations one behind the other. The
platform counts in it: the versions that were opened have the numbers from two on, in order, and the
versions that were activated are those of the activations that it granted (`Accounts`). An operation
is one of three things to the platform: nothing, a rollout, or an activation with a report
(`step_cases`).

From that the invariant `Sound` follows operation by operation. Each attempt has the version that it
opened, so no two share one; a report stands for a stretch of the history in which the version was
opened and the whole blueprint written into it; and before an activation there is such a stretch.
-/

namespace EdgeRouting

open Rollout

/-! ## What a platform in memory counts -/

/-- The version that an exchange opened. -/
def Exchange.opened? : Exchange → Option Nat
  | ⟨.openVersion, .ok v⟩ => some v
  | _ => none

/-- The version that an exchange activated. -/
def Exchange.activated? : Exchange → Option Nat
  | ⟨.activate v, .ok _⟩ => some v
  | _ => none

theorem Exchange.eq_of_activated? {e : Exchange} {v : Nat} (h : e.activated? = some v) :
    e = ⟨.activate v, .ok ()⟩ := by
  unfold Exchange.activated? at h
  split at h
  · obtain rfl := Option.some.inj h
    rfl
  · cases h

namespace Memory

/-- Between two states of a platform in memory there were these exchanges, as far as versions are
concerned. -/
structure Accounts (m : Memory) (t : List Exchange) (m' : Memory) : Prop where
  latest_le : m.latest ≤ m'.latest
  opened : t.filterMap Exchange.opened? = List.range' (m.latest + 1) (m'.latest - m.latest)
  activated : m'.activated = m.activated ++ t.filterMap Exchange.activated?

theorem Accounts.of_eq {m m' : Memory} (hlatest : m'.latest = m.latest)
    (hactivated : m'.activated = m.activated) : Accounts m [] m' where
  latest_le := Nat.le_of_eq hlatest.symm
  opened := by simp [hlatest]
  activated := by simp [hactivated]

theorem Accounts.trans {m m' m'' : Memory} {t u : List Exchange} (h : Accounts m t m')
    (h' : Accounts m' u m'') : Accounts m (t ++ u) m'' where
  latest_le := Nat.le_trans h.latest_le h'.latest_le
  opened := by
    have hle := h.latest_le
    have hle' := h'.latest_le
    have hnext : m'.latest + 1 = m.latest + 1 + (m'.latest - m.latest) := by omega
    have hlength : m''.latest - m.latest = (m'.latest - m.latest) + (m''.latest - m'.latest) := by
      omega
    rw [List.filterMap_append, h.opened, h'.opened, hnext, hlength, List.range'_append_1]
  activated := by rw [List.filterMap_append, h'.activated, h.activated, List.append_assoc]

/-- An exchange that neither opens nor activates a version. -/
theorem Accounts.of_quiet {m m' : Memory} {x : Exchange} (hopened : x.opened? = none)
    (hactivates : x.activated? = none) (hlatest : m'.latest = m.latest)
    (hactivated : m'.activated = m.activated) : Accounts m [x] m' where
  latest_le := Nat.le_of_eq hlatest.symm
  opened := by simp [hopened, hlatest]
  activated := by simp [hactivates, hactivated]

theorem accounts_perform (m : Memory) (c : Call) :
    Accounts m [⟨c, (m.perform c).1⟩] (m.perform c).2 := by
  cases c with
  | openVersion =>
      refine ⟨Nat.le_succ _, ?_, (List.append_nil _).symm⟩
      show [m.latest + 1] = List.range' (m.latest + 1) (m.latest + 1 - m.latest)
      rw [Nat.add_sub_cancel_left]
      rfl
  | write v r => exact .of_quiet rfl rfl rfl rfl
  | create v b =>
      simp only [perform]
      split <;> exact .of_quiet rfl rfl rfl rfl
  | update v b =>
      simp only [perform]
      split <;> exact .of_quiet rfl rfl rfl rfl
  | activate v =>
      refine ⟨Nat.le_refl _, ?_, rfl⟩
      show [] = List.range' (m.latest + 1) (m.latest - m.latest)
      rw [Nat.sub_self]
      rfl

/-- A call that fails changes nothing. -/
theorem accounts_answer (m : Memory) (c : Call) :
    Accounts m [⟨c, (platform.answer c m).1⟩] (platform.answer c m).2 := by
  show Accounts m [⟨c, (answer c m).1⟩] (answer c m).2
  unfold answer
  cases m.faultOf? c with
  | none => exact accounts_perform m c
  | some f => cases c <;> exact .of_quiet rfl rfl rfl rfl

theorem accounts_of_replays {m m' : Memory} {t : List Exchange} (h : platform.Replays m t m') :
    Accounts m t m' := by
  induction t generalizing m with
  | nil =>
      obtain rfl : m = m' := h
      exact .of_eq rfl rfl
  | cons x t ih =>
      obtain ⟨hresult, hrest⟩ := h
      have hfirst := accounts_answer m x.call
      rw [hresult] at hfirst
      exact hfirst.trans (ih hrest)

end Memory

/-! ## What an operation does to the platform -/

namespace Session

/-- The exchanges of an operation. -/
def exchanges (settings : RolloutSettings) (s : Session) : Operation → List Exchange
  | .fail _ _ => []
  | .clear => []
  | .deploy targets table =>
    match settings.prepare targets table with
    | .error _ => []
    | .ok (_, blueprint) => transcript Memory.platform blueprint s.memory
  | .execute blueprint => transcript Memory.platform blueprint s.memory
  | .activate position =>
    match s.reports[position]? with
    | none => []
    | some r =>
      [⟨.activate r.version, (Memory.platform.answer (.activate r.version) s.memory).1⟩]

/-- The exchanges of operations in order. -/
def history (settings : RolloutSettings) : Session → List Operation → List Exchange
  | _, [] => []
  | s, o :: r => s.exchanges settings o ++ history settings (s.step settings o).2 r

/-- What an operation is to the session: it may set faults, roll out a blueprint, or activate the
version of a report. -/
inductive Effect (s : Session) : List Exchange → Session → Prop where
  | quiet (faults : List (String × Fault)) :
    Effect s [] { s with memory := { s.memory with faults }, calls := [] }
  | attempt (b : Blueprint) :
    Effect s (transcript Memory.platform b s.memory)
      ⟨(Rollout.run Memory.platform b s.memory).2,
        s.attempts ++ [⟨b, (Rollout.run Memory.platform b s.memory).1⟩],
        (transcript Memory.platform b s.memory).map Exchange.call⟩
  | activate {r : Report} : r ∈ s.reports →
    Effect s [⟨.activate r.version, (Memory.platform.answer (.activate r.version) s.memory).1⟩]
      { s with
        memory := (Memory.platform.answer (.activate r.version) s.memory).2
        calls := [.activate r.version] }

theorem attempt_eq (s : Session) (b : Blueprint) :
    (s.attempt b).2 = ⟨(Rollout.run Memory.platform b s.memory).2,
      s.attempts ++ [⟨b, (Rollout.run Memory.platform b s.memory).1⟩],
      (transcript Memory.platform b s.memory).map Exchange.call⟩ := by
  rw [attempt, run_recorded]
  cases (Rollout.run Memory.platform b s.memory).1 <;> rfl

theorem activate_recorded {σ : Type} (p : Platform σ) (r : Report) (m : σ) :
    Rollout.activate p.recorded r (m, []) = ((Rollout.activate p r m).1,
      ((p.answer (.activate r.version) m).2, [.activate r.version])) := by
  unfold Rollout.activate
  obtain ⟨⟨result, m'⟩, hanswer⟩ : ∃ a, p.answer (.activate r.version) m = a := ⟨_, rfl⟩
  simp only [Platform.recorded, hanswer]
  cases result <;> rfl

theorem step_effect (settings : RolloutSettings) (s : Session) (o : Operation) :
    s.Effect (s.exchanges settings o) (s.step settings o).2 := by
  cases o with
  | fail target fault => exact .quiet _
  | clear => exact .quiet _
  | deploy targets table =>
      simp only [exchanges, step]
      cases settings.prepare targets table with
      | error f => exact .quiet s.memory.faults
      | ok prepared =>
          show s.Effect (transcript Memory.platform prepared.2 s.memory) (s.attempt prepared.2).2
          rw [attempt_eq]
          exact .attempt prepared.2
  | execute b =>
      show s.Effect (transcript Memory.platform b s.memory) (s.attempt b).2
      rw [attempt_eq]
      exact .attempt b
  | activate position =>
      simp only [exchanges, step]
      cases hr : s.reports[position]? with
      | none => exact .quiet s.memory.faults
      | some r =>
          simp only [activate_recorded]
          have heffect := Effect.activate (s := s) (List.mem_of_getElem? hr)
          cases (Rollout.activate Memory.platform r s.memory).1 <;> exact heffect

end Session

/-! ## What a rollout opens and writes -/

namespace Rollout

open Blueprint

theorem WritesItem.opened {v : Nat} {i : Item} {x : List Exchange} {existed : Bool}
    (h : WritesItem v i x existed) : x.filterMap Exchange.opened? = [] := by
  cases h <;> rfl

theorem FailsItem.opened {v : Nat} {i : Item} {x : List Exchange} {e : CallFailure}
    (h : FailsItem v i x e) : x.filterMap Exchange.opened? = [] := by
  cases h <;> rfl

theorem WritesAll.opened {v : Nat} {items : List Item} {x : List Exchange}
    {existing : List ResourceKey} (h : WritesAll v items x existing) :
    x.filterMap Exchange.opened? = [] := by
  induction h with
  | nil => rfl
  | cons hi _ ih => rw [List.filterMap_append, hi.opened, ih, List.append_nil]

/-- A rollout opens the version that its attempt has, and no other. -/
theorem opened_transcript {σ : Type} (p : Platform σ) (b : Blueprint) (s : σ) :
    (transcript p b s).filterMap Exchange.opened?
      = (Attempt.version? ⟨b, (run p b s).1⟩).toList := by
  cases h : b.layers with
  | error f =>
      have hrun : (run p b s).1 = .error (.blueprint f) := by rw [run, h]
      have hnone : transcript p b s = [] := by rw [transcript, run, h]
      rw [hrun, hnone]
      rfl
  | ok layers =>
      have hwalked := walked_of_layers p h s
      revert hwalked
      generalize transcript p b s = t
      cases (run p b s).1 with
      | ok r =>
          rintro ⟨⟨x, rfl, hall⟩, -⟩
          show r.version :: x.filterMap Exchange.opened? = [r.version]
          rw [hall.opened]
      | error f =>
          intro hstopped
          cases hstopped with
          | opening ht =>
              subst ht
              rfl
          | @writing v _ _ _ _ _ x y _ _ _ _ ht hall hfails =>
              subst ht
              show v :: (x ++ y).filterMap Exchange.opened? = [v]
              rw [List.filterMap_append, hall.opened, hfails.opened]
              rfl

/-- In a stretch of exchanges the version of a report was opened and all that the blueprint lists
was written into it. -/
def WrittenWhole (t : List Exchange) (b : Blueprint) (r : Report) : Prop :=
  ∃ items x, items.Perm b.items ∧ WritesAll r.version items x r.updated
    ∧ ⟨.openVersion, .ok r.version⟩ :: x <:+: t

theorem WrittenWhole.append {t : List Exchange} {b : Blueprint} {r : Report}
    (h : WrittenWhole t b r) (u : List Exchange) : WrittenWhole (t ++ u) b r := by
  obtain ⟨items, x, hperm, hall, hinfix⟩ := h
  exact ⟨items, x, hperm, hall, hinfix.trans (List.prefix_append t u).isInfix⟩

/-- A rollout that gives a report has written everything. -/
theorem writtenWhole_transcript {σ : Type} {p : Platform σ} {b : Blueprint} {s : σ} {r : Report}
    (hrun : (run p b s).1 = .ok r) (t : List Exchange) :
    WrittenWhole (t ++ transcript p b s) b r := by
  cases h : b.layers with
  | error f =>
      rw [run, h] at hrun
      cases hrun
  | ok layers =>
      have hwalked := walked_of_layers p h s
      rw [hrun] at hwalked
      obtain ⟨⟨x, ht, hall⟩, -⟩ : Completed layers (transcript p b s) r := hwalked
      refine ⟨layers.flatten, x, (layering_of_layers h).perm, hall, ?_⟩
      rw [ht]
      exact (List.suffix_append t _).isInfix

theorem not_activate_transcript {σ : Type} (p : Platform σ) (b : Blueprint) (s : σ) :
    ∀ e ∈ transcript p b s, ∀ v, e.call ≠ .activate v := by
  cases h : b.layers with
  | error f =>
      have hnone : transcript p b s = [] := by rw [transcript, run, h]
      simp [hnone]
  | ok layers =>
      have hwalked := walked_of_layers p h s
      revert hwalked
      cases (run p b s).1 with
      | ok r => exact Completed.not_activate
      | error f => exact Stopped.not_activate

end Rollout

/-! ## The invariant of a session -/

namespace Session

variable {settings : RolloutSettings} {s s' : Session} {t u : List Exchange}

/-- What a session and its history have to do with each other. -/
structure Sound (s : Session) (t : List Exchange) : Prop where
  accounts : Memory.Accounts .initial t s.memory
  versions : s.attempts.filterMap Attempt.version? = t.filterMap Exchange.opened?
  written : ∀ a ∈ s.attempts, ∀ r, a.result = .ok r → WrittenWhole t a.blueprint r
  /-- Before a version is activated, an attempt has written its whole blueprint into it. -/
  earned : ∀ {before v after}, t = before ++ ⟨.activate v, .ok ()⟩ :: after →
    ∃ a ∈ s.attempts, ∃ r, a.result = .ok r ∧ r.version = v ∧ WrittenWhole before a.blueprint r

theorem sound_initial : Sound .initial [] where
  accounts := .of_eq rfl rfl
  versions := rfl
  written a ha := by cases ha
  earned h := by
    simp at h

theorem exists_of_mem_reports {r : Report} (h : r ∈ s.reports) :
    ∃ a ∈ s.attempts, a.result = .ok r := by
  obtain ⟨a, ha, hr⟩ := List.mem_filterMap.1 h
  refine ⟨a, ha, ?_⟩
  cases hresult : a.result with
  | ok r' =>
      rw [hresult] at hr
      exact congrArg _ (Option.some.inj hr)
  | error f =>
      rw [hresult] at hr
      cases hr

/-- Every operation keeps the invariant. -/
theorem Sound.effect (h : Sound s t) (heffect : Effect s u s') : Sound s' (t ++ u) := by
  cases heffect with
  | quiet faults =>
      rw [List.append_nil]
      refine ⟨?_, h.versions, h.written, h.earned⟩
      have hfaults : Memory.Accounts s.memory [] { s.memory with faults } := .of_eq rfl rfl
      rw [← List.append_nil t]
      exact h.accounts.trans hfaults
  | attempt b =>
      refine ⟨?_, ?_, ?_, ?_⟩
      · exact h.accounts.trans (Memory.accounts_of_replays (run_replays _ b s.memory))
      · rw [List.filterMap_append, List.filterMap_append, h.versions, opened_transcript]
        rfl
      · intro a ha r hr
        rcases List.mem_append.1 ha with ha | ha
        · exact (h.written a ha r hr).append _
        · obtain rfl := List.mem_singleton.1 ha
          exact writtenWhole_transcript hr t
      · intro before v after hsplit
        rcases append_eq_append_cons hsplit with ⟨r, ht, -⟩ | ⟨between, -, hu⟩
        · obtain ⟨a, ha, hearned⟩ := h.earned ht
          exact ⟨a, List.mem_append_left _ ha, hearned⟩
        · have hmem : (⟨.activate v, .ok ()⟩ : Exchange)
              ∈ transcript Memory.platform b s.memory := by
            rw [hu]
            exact List.mem_append_right _ List.mem_cons_self
          exact absurd rfl (not_activate_transcript _ b s.memory _ hmem v)
  | @activate r hr =>
      refine ⟨?_, ?_, ?_, ?_⟩
      · exact h.accounts.trans (Memory.accounts_answer s.memory _)
      · rw [List.filterMap_append, h.versions]
        simp [Exchange.opened?]
      · exact fun a ha r hr => (h.written a ha r hr).append _
      · intro before v after hsplit
        rcases append_eq_append_cons hsplit with ⟨r, ht, -⟩ | ⟨between, hbefore, hu⟩
        · exact h.earned ht
        · obtain ⟨rfl, rfl⟩ : between = [] ∧ r.version = v := by
            cases between with
            | nil => exact ⟨rfl, Call.activate.inj (congrArg Exchange.call (List.cons.inj hu).1)⟩
            | cons first rest => simp at hu
          obtain ⟨a, ha, hresult⟩ := exists_of_mem_reports hr
          rw [hbefore, List.append_nil]
          exact ⟨a, ha, r, hresult, rfl, h.written a ha r hresult⟩

/-! ## Whole sessions -/

theorem Sound.run (h : Sound s t) (operations : List Operation) :
    Sound (s.run settings operations) (t ++ history settings s operations) := by
  induction operations generalizing s t with
  | nil => rwa [history, List.append_nil]
  | cons o r ih =>
      rw [history, ← List.append_assoc]
      exact ih (h.effect (step_effect settings s o))

theorem sound_run (settings : RolloutSettings) (operations : List Operation) :
    Sound (initial.run settings operations) (history settings initial operations) :=
  sound_initial.run operations

theorem Sound.nodup (h : Sound s t) : (s.attempts.filterMap Attempt.version?).Nodup := by
  rw [h.versions, h.accounts.opened]
  exact List.nodup_range'

theorem attempts_subset_effect (h : Effect s u s') : s.attempts ⊆ s'.attempts := by
  cases h with
  | quiet _ => exact List.Subset.refl _
  | attempt _ => exact List.subset_append_left _ _
  | activate _ => exact List.Subset.refl _

/-- No attempt is forgotten. -/
theorem attempts_subset_run (settings : RolloutSettings) (s : Session)
    (operations : List Operation) : s.attempts ⊆ (s.run settings operations).attempts := by
  induction operations generalizing s with
  | nil => exact List.Subset.refl _
  | cons o r ih =>
      exact List.Subset.trans (attempts_subset_effect (step_effect settings s o)) (ih _)

/-- An attempt that has the version of another one is that attempt. -/
theorem Sound.eq_of_version (h : Sound s t) {a a' : Attempt} (ha : a ∈ s.attempts)
    (ha' : a' ∈ s.attempts) {v : Nat} (hv : a.version? = some v) (hv' : a'.version? = some v) :
    a = a' := by
  let Apart (a a' : Attempt) : Prop :=
    ∀ v, a.version? = some v → ∀ w, a'.version? = some w → v ≠ w
  have : Std.Symm Apart := ⟨fun _ _ hab w hw v hv heq => hab v hv w hw heq.symm⟩
  have hapart : s.attempts.Pairwise Apart := List.pairwise_filterMap.1 h.nodup
  by_contra hne
  exact hapart.forall ha ha' hne v hv v hv' rfl

theorem Sound.activated (h : Sound s t) :
    s.memory.activated = t.filterMap Exchange.activated? := by
  rw [h.accounts.activated]
  rfl

/-- An activated version is that of an attempt that gave a report. -/
theorem Sound.exists_attempt (h : Sound s t) {v : Nat} (hv : v ∈ s.memory.activated) :
    ∃ a ∈ s.attempts, ∃ r, a.result = .ok r ∧ r.version = v := by
  rw [h.activated] at hv
  obtain ⟨e, he, hactivates⟩ := List.mem_filterMap.1 hv
  obtain rfl := Exchange.eq_of_activated? hactivates
  obtain ⟨before, after, ht⟩ := List.append_of_mem he
  obtain ⟨a, ha, r, hresult, hversion, -⟩ := h.earned ht
  exact ⟨a, ha, r, hresult, hversion⟩

/-- A version is only activated if an attempt gave a report for it, and before its activation it was
opened and the whole blueprint written into it. A version that an attempt opened and then failed in
is not activated however the session goes on. Attempts that opened a version, which are those to
whose call the platform gave one, have different versions. -/
theorem activated_of_run (settings : RolloutSettings) (operations : List Operation) :
    let s := initial.run settings operations
    let t := history settings initial operations
    s.memory.activated = t.filterMap Exchange.activated?
      ∧ (∀ before v after, t = before ++ ⟨.activate v, .ok ()⟩ :: after →
        ∃ a ∈ s.attempts, ∃ r, a.result = .ok r ∧ r.version = v
          ∧ WrittenWhole before a.blueprint r)
      ∧ (∀ a ∈ s.attempts, ∀ f v, a.result = .error f → a.version? = some v →
        ∀ more, v ∉ (s.run settings more).memory.activated)
      ∧ s.attempts.filterMap Attempt.version? = t.filterMap Exchange.opened?
      ∧ (s.attempts.filterMap Attempt.version?).Nodup := by
  intro s t
  have hsound : Sound s t := sound_run settings operations
  refine ⟨hsound.activated, fun _ _ _ => hsound.earned, ?_, hsound.versions, hsound.nodup⟩
  intro a ha f v hfailed hv more hactivated
  have hlater : Sound (s.run settings more) (t ++ history settings s more) := hsound.run more
  obtain ⟨a', ha', r, hreport, hversion⟩ := hlater.exists_attempt hactivated
  have hv' : a'.version? = some v := by
    rw [Attempt.version?, hreport]
    exact congrArg some hversion
  obtain rfl := hlater.eq_of_version (attempts_subset_run settings s more ha) ha' hv hv'
  rw [hfailed] at hreport
  cases hreport

/-! ### A rollout that is tried again

The table cannot be written at first, so the first attempt leaves version two behind. The second one
gives the report with which version three is activated. -/

def tableBlueprint : Blueprint :=
  ⟨[⟨.dictionary ⟨"priorities", false⟩, [Blueprint.conditionKey]⟩, ⟨.condition .never, []⟩]⟩

def tableFault : Fault := ⟨some 500, "down"⟩

def triedAgain : List Operation :=
  [.fail "dictionary/priorities" tableFault, .execute tableBlueprint, .clear,
    .execute tableBlueprint, .activate 0]

def leftBehind : Attempt :=
  ⟨tableBlueprint,
    .error (.call .provisioning (some 2) (tableFault.failure "dictionary/priorities"))⟩

def sessionSettings : RolloutSettings := ⟨"/_status", "X-OW-Version-Lock"⟩

theorem history_triedAgain : history sessionSettings initial triedAgain
    = history sessionSettings initial (triedAgain.take 4) ++ ⟨.activate 3, .ok ()⟩ :: [] := by
  with_unfolding_all rfl

theorem activated_triedAgain :
    let s := initial.run sessionSettings triedAgain
    leftBehind ∈ s.attempts ∧ leftBehind.version? = some 2 ∧ s.memory.activated = [3]
      ∧ (∃ a ∈ s.attempts, ∃ r, a.result = .ok r ∧ r.version = 3
        ∧ WrittenWhole (history sessionSettings initial (triedAgain.take 4)) a.blueprint r)
      ∧ ∀ more, 2 ∉ (s.run sessionSettings more).memory.activated := by
  obtain ⟨-, hearned, hnever, -⟩ := activated_of_run sessionSettings triedAgain
  have hhead : (initial.run sessionSettings triedAgain).attempts.head? = some leftBehind := by
    with_unfolding_all rfl
  have hmem := List.mem_of_mem_head? hhead
  exact ⟨hmem, rfl, by decide +kernel, hearned _ 3 [] history_triedAgain,
    hnever _ hmem _ 2 rfl rfl⟩

end Session

end EdgeRouting
