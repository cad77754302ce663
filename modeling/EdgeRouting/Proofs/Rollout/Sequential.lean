import EdgeRouting.Proofs.Rollout.Interleaving
import EdgeRouting.Proofs.Rollout.Walk

/-!
# A rollout is one of its interleavings

`Rollout.run` makes one call at a time. What it does to the platform is among the things that can
happen when the calls of a layer are under way at the same time (`canHappen_transcript`), on every
platform: the walk through a resource is a run of its task, the walk through a layer runs its tasks
from the first to the last, and behind the last one the next layer is entered.
-/

namespace EdgeRouting

/-- What an exchange is at the platform: the call and the answer to it. -/
def Exchange.events (x : Exchange) : List Rollout.Event :=
  [.asked x.call, match x.result with
    | .ok _ => .granted x.call
    | .error e => .refused x.call e]

namespace Rollout

open Blueprint

variable {v : Nat} {before : List Task} {i : Item}

theorem Steps.trans {p q r : Progress} (h : Steps v p q) (h' : Steps v q r) : Steps v p r := by
  induction h' with
  | refl => exact h
  | tail _ hstep ih => exact ih.tail hstep

/-! ## One task -/

section Tasks

variable (after : List Task) (later : List (List Item)) (history : List Event)

/-- The task behind those that are done may always go on. -/
theorem step_task (hdone : ∀ u ∈ before, u.state = .written) {s s' : TaskState} {e : Event}
    (h : TaskStep v i s e s') :
    Step v ⟨before ++ ⟨i, s⟩ :: after, later, false, history⟩
      ⟨before ++ ⟨i, s'⟩ :: after, later, false, history ++ [e]⟩ :=
  .goOn (p := ⟨before ++ ⟨i, s⟩ :: after, later, false, history⟩) (t := ⟨i, s⟩) rfl rfl h
    fun _ _ => hdone

theorem firstCall_of_not_backend {r : Resource} (h : ∀ b, r ≠ .backend b) :
    firstCall v r = .write v r := by
  cases r with
  | backend b => exact absurd rfl (h b)
  | _ => rfl

/-- A call and its answer are two steps of a task. -/
theorem steps_call (hdone : ∀ u ∈ before, u.state = .written) {s s' : TaskState} {c : Call}
    {answer : Event} (hcall : TaskStep v i s (.asked c) (.asking c))
    (hanswer : TaskStep v i (.asking c) answer s') :
    Steps v ⟨before ++ ⟨i, s⟩ :: after, later, false, history⟩
      ⟨before ++ ⟨i, s'⟩ :: after, later, false, history ++ [.asked c, answer]⟩ := by
  have hasked : Steps v ⟨before ++ ⟨i, s⟩ :: after, later, false, history⟩
      ⟨before ++ ⟨i, .asking c⟩ :: after, later, false, history ++ [.asked c]⟩ :=
    (Steps.refl _).tail (step_task after later history hdone hcall)
  have hanswered := hasked.tail (step_task after later _ hdone hanswer)
  rwa [List.append_assoc] at hanswered

theorem start_backend {b : Backend} (hb : i.resource = .backend b) :
    TaskStep v i .waiting (.asked (.create v b)) (.asking (.create v b)) := by
  have hstart : TaskStep v i .waiting _ _ := .start
  rwa [hb] at hstart

theorem start_other (hnot : ∀ b, i.resource ≠ .backend b) :
    TaskStep v i .waiting (.asked (.write v i.resource)) (.asking (.write v i.resource)) := by
  have hstart : TaskStep v i .waiting _ _ := .start
  rwa [firstCall_of_not_backend hnot] at hstart

theorem steps_again (hdone : ∀ u ∈ before, u.state = .written) {b : Backend} {e : CallFailure}
    (hb : i.resource = .backend b) (hconflict : e.isConflict = true) {answer : Event}
    {s : TaskState} (hanswer : TaskStep v i (.asking (.update v b)) answer s) :
    Steps v ⟨before ++ ⟨i, .waiting⟩ :: after, later, false, history⟩
      ⟨before ++ ⟨i, s⟩ :: after, later, false,
        history ++ [.asked (.create v b), .refused (.create v b) e, .asked (.update v b),
          answer]⟩ := by
  have hfatal : Call.isFatal (.create v b) e = false := by
    rw [Call.isFatal, hconflict]
    rfl
  have hcreate : Steps v ⟨before ++ ⟨i, .waiting⟩ :: after, later, false, history⟩
      ⟨before ++ ⟨i, .conflicting⟩ :: after, later, false,
        history ++ [.asked (.create v b), .refused (.create v b) e]⟩ :=
    steps_call after later history hdone (start_backend hb) (.conflict hfatal)
  have hupdate := hcreate.trans (steps_call after later _ hdone (.again hb) hanswer)
  rwa [List.append_assoc] at hupdate

theorem steps_writesItem (hdone : ∀ u ∈ before, u.state = .written) {x : List Exchange}
    {existed : Bool} (h : WritesItem v i x existed) :
    Steps v ⟨before ++ ⟨i, .waiting⟩ :: after, later, false, history⟩
      ⟨before ++ ⟨i, .written⟩ :: after, later, false, history ++ x.flatMap Exchange.events⟩ := by
  cases h with
  | written hnot => exact steps_call after later history hdone (start_other hnot) .grant
  | created hb => exact steps_call after later history hdone (start_backend hb) .grant
  | updated hb hconflict => exact steps_again after later history hdone hb hconflict .grant

theorem steps_failsItem (hdone : ∀ u ∈ before, u.state = .written) {x : List Exchange}
    {f : CallFailure} (h : FailsItem v i x f) :
    Steps v ⟨before ++ ⟨i, .waiting⟩ :: after, later, false, history⟩
      ⟨before ++ ⟨i, .failed⟩ :: after, later, false, history ++ x.flatMap Exchange.events⟩ := by
  cases h with
  | write hnot => exact steps_call after later history hdone (start_other hnot) (.refuse rfl)
  | create hb hconflict =>
      refine steps_call after later history hdone (start_backend hb) (.refuse ?_)
      rw [Call.isFatal, hconflict]
      rfl
  | update hb hconflict => exact steps_again after later history hdone hb hconflict (.refuse rfl)

/-! ## The tasks of a layer -/

/-- A walk through resources brings their tasks to their ends, one behind the other. -/
theorem steps_writesAll {items : List Item} {x : List Exchange} {existing : List ResourceKey}
    (hdone : ∀ u ∈ before, u.state = .written) (h : WritesAll v items x existing) :
    Steps v ⟨before ++ items.map (⟨·, .waiting⟩) ++ after, later, false, history⟩
      ⟨before ++ items.map (⟨·, .written⟩) ++ after, later, false,
        history ++ x.flatMap Exchange.events⟩ := by
  induction h generalizing before history with
  | nil =>
      simp only [List.map_nil, List.flatMap_nil, List.append_nil]
      exact .refl _
  | @cons i r x y existed existing hi _ ih =>
      have hdone' : ∀ u ∈ before ++ [⟨i, .written⟩], u.state = .written := by
        intro u hu
        rcases List.mem_append.1 hu with hu | hu
        · exact hdone u hu
        · rw [List.mem_singleton.1 hu]
      have hfirst := steps_writesItem (r.map (⟨·, .waiting⟩) ++ after) later history hdone hi
      have hrest := ih (history ++ x.flatMap Exchange.events) hdone'
      simp only [List.append_assoc, List.cons_append, List.nil_append, List.map_cons,
        List.flatMap_append] at hfirst hrest ⊢
      exact hfirst.trans hrest

end Tasks

/-! ## All layers -/

theorem WritesAll.split {a b : List Item} {x : List Exchange} {k : List ResourceKey}
    (h : WritesAll v (a ++ b) x k) :
    ∃ y z l m, x = y ++ z ∧ WritesAll v a y l ∧ WritesAll v b z m := by
  induction a generalizing x k with
  | nil => exact ⟨[], x, [], k, rfl, .nil, h⟩
  | cons i r ih =>
      cases h with
      | cons hi hr =>
          obtain ⟨y, z, l, m, rfl, ha, hb⟩ := ih hr
          exact ⟨_, z, _, m, (List.append_assoc _ _ _).symm, .cons hi ha, hb⟩

theorem written_nil : ∀ t ∈ ([] : List Task), t.state = .written := by simp

theorem written_of_mem_map (items : List Item) :
    ∀ t ∈ items.map (fun i => (⟨i, .written⟩ : Task)), t.state = .written := by
  intro t ht
  obtain ⟨i, -, rfl⟩ := List.mem_map.1 ht
  rfl

/-- A walk through the resources of layers enters the layers in order and does all their tasks. -/
theorem steps_layers {tasks : List Task} (hdone : ∀ t ∈ tasks, t.state = .written)
    {layers : List (List Item)} (later : List (List Item)) (history : List Event)
    {x : List Exchange} {existing : List ResourceKey} (h : WritesAll v layers.flatten x existing) :
    ∃ tasks', (∀ t ∈ tasks', t.state = .written)
      ∧ Steps v ⟨tasks, layers ++ later, false, history⟩
        ⟨tasks', later, false, history ++ x.flatMap Exchange.events⟩ := by
  induction layers generalizing tasks history x existing with
  | nil =>
      cases h
      refine ⟨tasks, hdone, ?_⟩
      simp only [List.flatMap_nil, List.append_nil]
      exact .refl _
  | cons layer rest ih =>
      rw [List.flatten_cons] at h
      obtain ⟨y, z, l, m, rfl, hlayer, hrest⟩ := h.split
      have henter : Steps v ⟨tasks, layer :: rest ++ later, false, history⟩ _ :=
        (Steps.refl _).tail (step_enter hdone layer (rest ++ later) history)
      have hwrite := steps_writesAll [] (rest ++ later) history written_nil hlayer
      simp only [List.nil_append, List.append_nil] at hwrite
      obtain ⟨tasks', htasks', hsteps⟩ := ih (written_of_mem_map layer)
        (history ++ y.flatMap Exchange.events) hrest
      refine ⟨tasks', htasks', ?_⟩
      rw [List.flatMap_append, ← List.append_assoc]
      exact (henter.trans hwrite).trans hsteps

/-- A walk that ends with a failed write stops in the layer of the failed task. -/
theorem steps_stopped {before after : List (List Item)} {earlier later : List Item}
    {x y : List Exchange} {existing : List ResourceKey} {f : CallFailure} (history : List Event)
    (hall : WritesAll v (before.flatten ++ earlier) x existing) (hfails : FailsItem v i y f) :
    ∃ p, Steps v ⟨[], before ++ (earlier ++ i :: later) :: after, false, history⟩ p
      ∧ p.history = history ++ (x ++ y).flatMap Exchange.events
      ∧ p.tasks.map Task.item = earlier ++ i :: later := by
  obtain ⟨x₁, x₂, l, m, rfl, hbefore, hearlier⟩ := hall.split
  obtain ⟨tasks, htasks, hlayers⟩ := steps_layers written_nil
    ((earlier ++ i :: later) :: after) history hbefore
  have henter := hlayers.tail (step_enter htasks (earlier ++ i :: later) after _)
  have hwrite := steps_writesAll ((i :: later).map (⟨·, .waiting⟩)) after
    (history ++ x₁.flatMap Exchange.events) written_nil hearlier
  have hfail := steps_failsItem (later.map (⟨·, .waiting⟩)) after
    (history ++ x₁.flatMap Exchange.events ++ x₂.flatMap Exchange.events)
    (written_of_mem_map earlier) hfails
  simp only [List.nil_append, List.map_append, List.map_cons] at henter hwrite hfail
  refine ⟨_, (henter.trans hwrite).trans hfail, ?_, ?_⟩
  · simp only [List.flatMap_append, List.append_assoc]
  · simp [Function.comp_def]

theorem FailsItem.refused {x : List Exchange} {f : CallFailure} (h : FailsItem v i x f) :
    ∃ c, .refused c f ∈ x.flatMap Exchange.events ∧ c.isFatal f = true := by
  cases h with
  | write _ => exact ⟨.write v i.resource, by simp [Exchange.events], rfl⟩
  | @create b _ _ hconflict =>
      refine ⟨.create v b, by simp [Exchange.events], ?_⟩
      rw [Call.isFatal, hconflict]
      rfl
  | @update b _ _ _ _ => exact ⟨.update v b, by simp [Exchange.events], rfl⟩

theorem stage_eq_stageOf {stage : Stage} {layer : List Item}
    (hlogic : stage = .writingLogic ↔ HoldsSnippet layer)
    (hstage : stage = .writingLogic ∨ stage = .provisioning) : stage = stageOf layer := by
  rw [← stageOf_eq_writingLogic_iff] at hlogic
  rcases stageOf_writingLogic_or_provisioning layer with hlayer | hlayer
  · rw [hlayer]
    exact hlogic.2 hlayer
  · rcases hstage with hstage | hstage
    · exact hstage.trans (hlogic.1 hstage).symm
    · exact hstage.trans hlayer.symm

/-- How far a rollout that has opened a version comes, and that its failure is the refusal of a
call. -/
theorem steps_transcript {σ : Type} (p : Platform σ) {b : Blueprint} {layers : List (List Item)}
    (h : b.layers = .ok layers) (s : σ) {x : List Exchange}
    (ht : transcript p b s = ⟨.openVersion, .ok v⟩ :: x) :
    ∃ q, Steps v (Progress.start layers) q
      ∧ q.history = [.asked .openVersion, .granted .openVersion] ++ x.flatMap Exchange.events
      ∧ ∀ f, (run p b s).1 = .error f → ∃ c e, .refused c e ∈ q.history ∧ c.isFatal e = true
        ∧ f = .call (stageOf (q.tasks.map Task.item)) (some v) e := by
  have hsame : ∀ {w y}, transcript p b s = ⟨.openVersion, .ok w⟩ :: y → w = v ∧ y = x := by
    intro w y hw
    obtain ⟨hhead, hy⟩ := List.cons.inj (hw.symm.trans ht)
    exact ⟨Except.ok.inj (eq_of_heq (Exchange.mk.inj hhead).2), hy⟩
  have hwalked := walked_of_layers p h s
  cases hresult : (run p b s).1 with
  | ok r =>
      rw [hresult] at hwalked
      obtain ⟨⟨y, hy, hall⟩, -⟩ : Completed layers (transcript p b s) r := hwalked
      obtain ⟨rfl, rfl⟩ := hsame hy
      obtain ⟨tasks, -, hsteps⟩ := steps_layers written_nil []
        [.asked .openVersion, .granted .openVersion] hall
      rw [List.append_nil] at hsteps
      exact ⟨_, hsteps, rfl, fun f hf => by cases hf⟩
  | error f =>
      rw [hresult] at hwalked
      have hstopped : Stopped layers (transcript p b s) f := hwalked
      cases hstopped with
      | opening hy =>
          rw [hy] at ht
          obtain ⟨-, hresult⟩ := Exchange.mk.inj (List.cons.inj ht).1
          cases hresult
      | writing hlayers hy hall hfails hlogic hstage =>
          obtain ⟨rfl, rfl⟩ := hsame hy
          obtain ⟨q, hsteps, hhistory, hitems⟩ := steps_stopped
            [.asked .openVersion, .granted .openVersion] hall hfails
          rw [← hlayers] at hsteps
          obtain ⟨c, hrefused, hfatal⟩ := hfails.refused
          refine ⟨q, hsteps, hhistory, fun f hf => ?_⟩
          obtain rfl := Except.error.inj hf
          refine ⟨c, _, ?_, hfatal, ?_⟩
          · rw [hhistory, List.flatMap_append]
            exact List.mem_append_right _ (List.mem_append_right _ hrefused)
          · rw [hitems, stage_eq_stageOf hlogic hstage]

/-- What a rollout does to a platform is one of the things that can happen. -/
theorem canHappen_transcript {σ : Type} (p : Platform σ) {b : Blueprint}
    {layers : List (List Item)} (h : b.layers = .ok layers) (s : σ) :
    CanHappen layers ((transcript p b s).flatMap Exchange.events) := by
  have hopened : ∀ {v x}, transcript p b s = ⟨.openVersion, .ok v⟩ :: x →
      CanHappen layers ((transcript p b s).flatMap Exchange.events) := by
    intro v x ht
    obtain ⟨q, hsteps, hhistory, -⟩ := steps_transcript p h s ht
    have hcan := CanHappen.writing hsteps
    rw [hhistory] at hcan
    rwa [ht]
  have hwalked := walked_of_layers p h s
  revert hwalked
  cases (run p b s).1 with
  | ok r => exact fun hcompleted => hopened hcompleted.walk.choose_spec.1
  | error f =>
      intro hstopped
      cases hstopped with
      | opening ht =>
          rw [ht]
          exact .notOpened
      | writing _ ht _ _ _ _ => exact hopened ht

end Rollout

end EdgeRouting
