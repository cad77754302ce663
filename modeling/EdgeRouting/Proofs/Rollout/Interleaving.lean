import EdgeRouting.Proofs.Blueprint.Layers
import EdgeRouting.Rollout.Interleaving

/-!
# Interleavings keep the order of dependencies

Whatever the answers are and in whatever order the calls of a batch start and come back, a call is
made only when it may be made (`MayAsk`): all that its resource needs has been written into the same
version, no other piece of logic is being written if it writes one, and no write has failed in an
earlier layer.

The invariant is `Sound`. It ties the tasks of the current layer and the layers before it to what
has happened at the platform: what stands before the layer is written, what is written was granted,
logic that was asked for and not granted belongs to a task of the layer that is still at it, and a
failure belongs to a task of the layer that has failed. The last two make a layer that is done clear
the history of both, and so the next layer can begin.
-/

namespace EdgeRouting.Rollout

open Blueprint

variable {b : Blueprint} {layers : List (List Item)} {v : Nat}

/-! ## What a call relies on -/

def WrittenIn (history : List Event) (v : Nat) (k : ResourceKey) : Prop :=
  ∃ c : Call, c.key? = some k ∧ c.version? = some v ∧ .granted c ∈ history

/-- A call may be made behind what has happened. -/
structure MayAsk (b : Blueprint) (layers : List (List Item)) (history : List Event) (c : Call) :
    Prop where
  /-- All that the resource needs has been written into the same version. -/
  dependencies : ∀ k, c.key? = some k →
    ∃ v, c.version? = some v ∧ ∀ d, b.Needs k d → WrittenIn history v d
  /-- Logic is written only when all logic that was asked for has been granted. -/
  apart : c.isLogic = true → ∀ {before c' after}, history = before ++ .asked c' :: after →
    c'.isLogic = true → .granted c' ∈ after
  /-- A failed write is followed by calls for resources of the same layer only. -/
  quiet : ∀ {c' e}, .refused c' e ∈ history → c'.isFatal e = true →
    ∃ k k', c'.key? = some k ∧ c.key? = some k' ∧
      ∀ {earlier layer later}, layers = earlier ++ layer :: later → k ∈ layer.map Item.key →
        k' ∈ layer.map Item.key ∧ k' ∉ later.flatten.map Item.key

theorem WrittenIn.concat {history : List Event} {k : ResourceKey} (h : WrittenIn history v k)
    (e : Event) : WrittenIn (history ++ [e]) v k := by
  obtain ⟨c, hkey, hversion, hmem⟩ := h
  exact ⟨c, hkey, hversion, List.mem_append_left _ hmem⟩

theorem step_enter {tasks : List Task} (hdone : ∀ t ∈ tasks, t.state = .written)
    (layer : List Item) (later : List (List Item)) (history : List Event) :
    Step v ⟨tasks, layer :: later, false, history⟩
      ⟨layer.map (⟨·, .waiting⟩), later, false, history⟩ :=
  .enter rfl hdone rfl

/-- A place in a history that has gone on is the last one or was there before. -/
theorem split_concat {α : Type} {l before after : List α} {a x : α}
    (h : l ++ [a] = before ++ x :: after) :
    (before = l ∧ x = a ∧ after = []) ∨ ∃ r, after = r ++ [a] ∧ l = before ++ x :: r := by
  rcases List.eq_nil_or_concat after with rfl | ⟨r, y, rfl⟩
  · obtain ⟨rfl, hx⟩ := List.append_inj' h rfl
    obtain rfl := List.singleton_inj.1 hx
    exact .inl ⟨rfl, rfl, rfl⟩
  · rw [List.concat_eq_append] at h ⊢
    rw [← List.cons_append, ← List.append_assoc] at h
    obtain ⟨rfl, hy⟩ := List.append_inj' h rfl
    obtain rfl := List.singleton_inj.1 hy
    exact .inr ⟨r, rfl, rfl⟩

/-! ## One task -/

theorem key?_firstCall (v : Nat) (r : Resource) : (firstCall v r).key? = some r.key := by
  cases r <;> rfl

theorem version?_firstCall (v : Nat) (r : Resource) : (firstCall v r).version? = some v := by
  cases r <;> rfl

theorem isLogic_of_call {c : Call} {i : Item} (h : c.isLogic = true)
    (hkey : c.key? = some i.key) : i.resource.isLogic = true := by
  cases c with
  | write w r =>
      have hr : r.key = i.key := Option.some.inj hkey
      show (i.key.kind == .snippet) = true
      rw [← hr]
      exact h
  | openVersion => cases h
  | create w b => cases h
  | update w b => cases h
  | activate w => cases h

/-- What the state of a task says about the history. -/
def Fits (v : Nat) (history : List Event) (t : Task) : Prop :=
  match t.state with
  | .asking c => c.key? = some t.item.key ∧ c.version? = some v
  | .written => WrittenIn history v t.item.key
  | _ => True

theorem Fits.concat {history : List Event} {t : Task} (h : Fits v history t) (e : Event) :
    Fits v (history ++ [e]) t := by
  unfold Fits at h ⊢
  split at h
  · next hs => simpa only [hs] using h
  · next hs => simpa only [hs] using h.concat e
  · exact trivial

namespace TaskStep

variable {i : Item} {s s' : TaskState} {e : Event}

theorem fits (h : TaskStep v i s e s') {history : List Event} (hfits : Fits v history ⟨i, s⟩) :
    Fits v (history ++ [e]) ⟨i, s'⟩ := by
  cases h with
  | start => exact ⟨key?_firstCall v i.resource, version?_firstCall v i.resource⟩
  | again hb => exact ⟨by rw [Item.key, hb]; rfl, rfl⟩
  | grant => exact ⟨_, hfits.1, hfits.2, by simp⟩
  | conflict _ => trivial
  | refuse _ => trivial

theorem not_done (h : TaskStep v i s e s') : s ≠ .written ∧ s ≠ .failed := by
  cases h <;> exact ⟨by simp, by simp⟩

theorem of_asked {c : Call} (h : TaskStep v i s (.asked c) s') :
    c.key? = some i.key ∧ c.version? = some v ∧ s' = .asking c
      ∧ (s = .waiting ∨ s = .conflicting ∧ c.isLogic = false) := by
  cases h with
  | start => exact ⟨key?_firstCall v i.resource, version?_firstCall v i.resource, rfl, .inl rfl⟩
  | again hb => exact ⟨by rw [Item.key, hb]; rfl, rfl, rfl, .inr ⟨rfl, rfl⟩⟩

theorem of_refused {c : Call} {f : CallFailure} (h : TaskStep v i s (.refused c f) s')
    (hfatal : c.isFatal f = true) : s = .asking c ∧ s' = .failed := by
  cases h with
  | conflict hnot => rw [hnot] at hfatal; cases hfatal
  | refuse _ => exact ⟨rfl, rfl⟩

/-- A call for logic that was under way has been granted or has failed. -/
theorem of_asking_logic {c : Call} (h : TaskStep v i (.asking c) e s') (hlogic : c.isLogic = true) :
    e = .granted c ∨ s' = .failed := by
  cases h with
  | grant => exact .inl rfl
  | conflict _ => cases hlogic
  | refuse _ => exact .inr rfl

end TaskStep

/-! ## The invariant -/

/-- The tasks of the current layer agree with what has happened. -/
structure Sound (layers : List (List Item)) (v : Nat) (p : Progress) : Prop where
  /-- All resources of the layers before the current one are written. -/
  placed : ∃ done, [] :: layers = done ++ p.tasks.map Task.item :: p.later
    ∧ ∀ i ∈ done.flatten, WrittenIn p.history v i.key
  fits : ∀ t ∈ p.tasks, Fits v p.history t
  inTurn : p.OneAtATime → p.tasks.Pairwise fun u t => t.state ≠ .waiting → u.state = .written
  /-- Logic that has been asked for is granted, or its task is still at it. -/
  logic : ∀ {before c after}, p.history = before ++ .asked c :: after → c.isLogic = true →
    .granted c ∈ after ∨ ∃ t ∈ p.tasks, t.state = .asking c ∨ t.state = .failed
  /-- A write that has failed is a task of the current layer. -/
  fatal : ∀ {c e}, .refused c e ∈ p.history → c.isFatal e = true →
    ∃ t ∈ p.tasks, c.key? = some t.item.key ∧ t.state = .failed

theorem sound_start (layers : List (List Item)) (v : Nat) : Sound layers v (.start layers) where
  placed := ⟨[], rfl, by simp⟩
  fits := by simp [Progress.start]
  inTurn := fun _ => .nil
  logic := by
    intro before c after hsplit hlogic
    have hmem : .asked c ∈ (Progress.start layers).history := by
      rw [hsplit]
      simp
    simp only [Progress.start, List.mem_cons, Event.asked.injEq, List.not_mem_nil, or_false,
      reduceCtorEq] at hmem
    subst hmem
    cases hlogic
  fatal := by simp [Progress.start]

namespace Sound

variable {p : Progress}

theorem layers_eq (h : Sound layers v p) {t : Task} (ht : t ∈ p.tasks) :
    ∃ done, layers = done ++ p.tasks.map Task.item :: p.later
      ∧ ∀ i ∈ done.flatten, WrittenIn p.history v i.key := by
  obtain ⟨done, hsplit, hwritten⟩ := h.placed
  cases done with
  | nil =>
      have hnil := (List.cons.inj hsplit).1
      rw [List.map_eq_nil_iff.1 hnil.symm] at ht
      cases ht
  | cons first done =>
      obtain ⟨rfl, hlayers⟩ := List.cons.inj hsplit
      exact ⟨done, hlayers, hwritten⟩

/-- When all tasks are done, no write has failed and all logic that was asked for is granted. -/
theorem enter (h : Sound layers v p) {layer : List Item} {later : List (List Item)}
    (hdone : ∀ t ∈ p.tasks, t.state = .written) (hlater : p.later = layer :: later) :
    Sound layers v { p with tasks := layer.map fun i => ⟨i, .waiting⟩, later } where
  placed := by
    obtain ⟨done, hsplit, hwritten⟩ := h.placed
    have hitems : (layer.map fun i => (⟨i, .waiting⟩ : Task)).map Task.item = layer := by
      simp [Function.comp_def]
    refine ⟨done ++ [p.tasks.map Task.item], ?_, ?_⟩
    · rw [hsplit, hlater, hitems, List.append_assoc]
      rfl
    · intro i hi
      rw [List.flatten_append, List.mem_append, List.flatten_singleton] at hi
      rcases hi with hi | hi
      · exact hwritten i hi
      · obtain ⟨t, ht, rfl⟩ := List.mem_map.1 hi
        have hfits := h.fits t ht
        rw [Fits, hdone t ht] at hfits
        exact hfits
  fits := by
    intro t ht
    obtain ⟨i, -, rfl⟩ := List.mem_map.1 ht
    exact trivial
  inTurn := by
    intro _
    refine List.pairwise_map.2 (List.pairwise_of_forall ?_)
    exact fun _ _ hne => absurd rfl hne
  logic := by
    intro before c after hsplit hlogic
    rcases h.logic hsplit hlogic with hgranted | ⟨t, ht, hstate⟩
    · exact .inl hgranted
    · rw [hdone t ht] at hstate
      rcases hstate with hstate | hstate <;> cases hstate
  fatal := by
    intro c e hmem hfatal
    obtain ⟨t, ht, -, hstate⟩ := h.fatal hmem hfatal
    rw [hdone t ht] at hstate
    cases hstate

section GoOn

variable {before after : List Task} {t : Task} {e : Event} {state : TaskState}

/-- A task that goes on keeps its place among the others. -/
theorem inTurn_goOn (h : Sound layers v p) (htasks : p.tasks = before ++ t :: after)
    (hstep : TaskStep v t.item t.state e state)
    (hturn : p.OneAtATime → t.state = .waiting → ∀ u ∈ before, u.state = .written)
    (hone : p.OneAtATime) :
    (before ++ ⟨t.item, state⟩ :: after).Pairwise
      fun u w => w.state ≠ .waiting → u.state = .written := by
  have hold := h.inTurn hone
  rw [htasks, List.pairwise_append, List.pairwise_cons] at hold
  obtain ⟨hbefore, ⟨hbehind, hafter⟩, hacross⟩ := hold
  refine List.pairwise_append.2 ⟨hbefore, List.pairwise_cons.2 ⟨?_, hafter⟩, ?_⟩
  · intro w hw hne
    exact absurd (hbehind w hw hne) hstep.not_done.1
  · intro u hu w hw
    rcases List.mem_cons.1 hw with rfl | hw
    · intro _
      by_cases hwaiting : t.state = .waiting
      · exact hturn hone hwaiting u hu
      · exact hacross u hu t List.mem_cons_self hwaiting
    · exact hacross u hu w (List.mem_cons_of_mem _ hw)

theorem mem_goOn {u : Task} (hu : u ∈ before ++ t :: after) :
    u = t ∨ u ∈ before ++ ⟨t.item, state⟩ :: after := by
  simp only [List.mem_append, List.mem_cons] at hu ⊢
  rcases hu with hu | rfl | hu
  · exact .inr (.inl hu)
  · exact .inl rfl
  · exact .inr (.inr (.inr hu))

/-- Logic that is asked for now is under way, and logic that was asked for stays settled. -/
theorem logic_goOn (h : Sound layers v p) (htasks : p.tasks = before ++ t :: after)
    (hstep : TaskStep v t.item t.state e state) {first rest : List Event} {c : Call}
    (hsplit : p.history ++ [e] = first ++ .asked c :: rest) (hlogic : c.isLogic = true) :
    .granted c ∈ rest ∨ ∃ u ∈ before ++ ⟨t.item, state⟩ :: after,
      u.state = .asking c ∨ u.state = .failed := by
  have hnew : (⟨t.item, state⟩ : Task) ∈ before ++ ⟨t.item, state⟩ :: after := by simp
  rcases split_concat hsplit with ⟨-, rfl, rfl⟩ | ⟨r, rfl, hearlier⟩
  · exact .inr ⟨_, hnew, .inl hstep.of_asked.2.2.1⟩
  · rcases h.logic hearlier hlogic with hgranted | ⟨u, hu, hstate⟩
    · exact .inl (List.mem_append_left _ hgranted)
    · rw [htasks] at hu
      rcases mem_goOn hu with rfl | hu
      · rcases hstate with hstate | hstate
        · rw [hstate] at hstep
          rcases hstep.of_asking_logic hlogic with rfl | hfailed
          · exact .inl (by simp)
          · exact .inr ⟨_, hnew, .inr hfailed⟩
        · exact absurd hstate hstep.not_done.2
      · exact .inr ⟨u, hu, hstate⟩

theorem fatal_goOn (h : Sound layers v p) (htasks : p.tasks = before ++ t :: after)
    (hstep : TaskStep v t.item t.state e state) {c : Call} {f : CallFailure}
    (hmem : .refused c f ∈ p.history ++ [e]) (hfatal : c.isFatal f = true) :
    ∃ u ∈ before ++ ⟨t.item, state⟩ :: after, c.key? = some u.item.key ∧ u.state = .failed := by
  rcases List.mem_append.1 hmem with hmem | hmem
  · obtain ⟨u, hu, hkey, hstate⟩ := h.fatal hmem hfatal
    rw [htasks] at hu
    rcases mem_goOn hu with rfl | hu
    · exact absurd hstate hstep.not_done.2
    · exact ⟨u, hu, hkey, hstate⟩
  · obtain rfl := List.mem_singleton.1 hmem
    obtain ⟨hasking, hfailed⟩ := hstep.of_refused hfatal
    have hfits := h.fits t (by simp [htasks])
    rw [Fits, hasking] at hfits
    have hnew : (⟨t.item, state⟩ : Task) ∈ before ++ ⟨t.item, state⟩ :: after := by simp
    exact ⟨_, hnew, hfits.1, hfailed⟩

theorem goOn (h : Sound layers v p) (htasks : p.tasks = before ++ t :: after)
    (hstep : TaskStep v t.item t.state e state)
    (hturn : p.OneAtATime → t.state = .waiting → ∀ u ∈ before, u.state = .written) :
    Sound layers v { p with
      tasks := before ++ ⟨t.item, state⟩ :: after, history := p.history ++ [e] } := by
  have hitems : (before ++ ⟨t.item, state⟩ :: after).map Task.item = p.tasks.map Task.item := by
    simp [htasks]
  refine ⟨?_, ?_, ?_, h.logic_goOn htasks hstep, h.fatal_goOn htasks hstep⟩
  · obtain ⟨done, hsplit, hwritten⟩ := h.placed
    exact ⟨done, by rw [hitems]; exact hsplit, fun i hi => (hwritten i hi).concat e⟩
  · intro u hu
    rcases List.mem_append.1 hu with hu | hu
    · exact (h.fits u (by simp [htasks, hu])).concat e
    · rcases List.mem_cons.1 hu with rfl | hu
      · exact hstep.fits (h.fits t (by simp [htasks]))
      · exact (h.fits u (by simp [htasks, hu])).concat e
  · intro hone
    have hone' : p.OneAtATime := by
      unfold Progress.OneAtATime at hone ⊢
      rwa [← hitems]
    exact h.inTurn_goOn htasks hstep hturn hone'

end GoOn

/-- Every step keeps the tasks and the history in agreement. -/
theorem step {q : Progress} (h : Sound layers v p) (hstep : Step v p q) : Sound layers v q := by
  cases hstep with
  | enter _ hdone hlater => exact h.enter hdone hlater
  | goOn _ htasks htask hturn => exact h.goOn htasks htask hturn
  | stop _ _ _ => exact ⟨h.placed, h.fits, h.inTurn, h.logic, h.fatal⟩

end Sound

theorem Steps.sound {p q : Progress} (h : Steps v p q) (hp : Sound layers v p) :
    Sound layers v q := by
  induction h with
  | refl => exact hp
  | tail _ hstep ih => exact ih.step hstep

/-! ## The order of calls -/

/-- When it is the turn of a task, those before it are done and those behind it have not begun. -/
theorem Sound.idle {p : Progress} (h : Sound layers v p) (hone : p.OneAtATime)
    {before after : List Task} {t u : Task} (htasks : p.tasks = before ++ t :: after)
    (hwaiting : t.state = .waiting) (hbefore : ∀ u ∈ before, u.state = .written)
    (hu : u ∈ p.tasks) (c : Call) : ¬ (u.state = .asking c ∨ u.state = .failed) := by
  have hturns := h.inTurn hone
  rw [htasks, List.pairwise_append, List.pairwise_cons] at hturns
  have hidle : u.state = .written ∨ u.state = .waiting := by
    rw [htasks] at hu
    rcases List.mem_append.1 hu with hu | hu
    · exact .inl (hbefore u hu)
    · rcases List.mem_cons.1 hu with rfl | hu
      · exact .inr hwaiting
      · refine .inr (Decidable.by_contra fun hne => ?_)
        have hwritten := hturns.2.1.1 u hu hne
        rw [hwaiting] at hwritten
        cases hwritten
  rcases hidle with hidle | hidle
  · simp [hidle]
  · simp [hidle]

/-- A task that asks may ask. -/
theorem Sound.mayAsk {p : Progress} (hlayers : Layering b layers) (h : Sound layers v p)
    {before after : List Task} {t : Task} {c : Call} {state : TaskState}
    (htasks : p.tasks = before ++ t :: after) (hstep : TaskStep v t.item t.state (.asked c) state)
    (hturn : p.OneAtATime → t.state = .waiting → ∀ u ∈ before, u.state = .written) :
    MayAsk b layers p.history c := by
  have ht : t ∈ p.tasks := by simp [htasks]
  obtain ⟨hkey, hversion, -, hstate⟩ := hstep.of_asked
  obtain ⟨done, hsplit, hwritten⟩ := h.layers_eq ht
  have hitem : t.item ∈ p.tasks.map Task.item := List.mem_map_of_mem ht
  refine ⟨?_, ?_, ?_⟩
  · intro k hk
    obtain rfl := Option.some.inj (hkey.symm.trans hk)
    refine ⟨v, hversion, ?_⟩
    intro d hneeds
    obtain ⟨i, hi, rfl⟩ := List.mem_map.1 (hlayers.needs_earlier hneeds hsplit hitem rfl)
    exact hwritten i hi
  · intro hlogic first c' rest hhistory hlogic'
    have hwaiting : t.state = .waiting := by
      rcases hstate with hwaiting | ⟨-, hnot⟩
      · exact hwaiting
      · rw [hlogic] at hnot
        cases hnot
    have hone : p.OneAtATime :=
      if_pos (List.any_eq_true.2 ⟨_, hitem, isLogic_of_call hlogic hkey⟩)
    rcases h.logic hhistory hlogic' with hgranted | ⟨u, hu, hbusy⟩
    · exact hgranted
    · exact absurd hbusy (h.idle hone htasks hwaiting (hturn hone hwaiting) hu c')
  · intro c' f hmem hfatal
    obtain ⟨u, hu, hkey', -⟩ := h.fatal hmem hfatal
    refine ⟨_, _, hkey', hkey, ?_⟩
    intro earlier layer later hsplit' hk
    obtain ⟨rfl, rfl⟩ := hlayers.layer_unique hsplit' hsplit hk
      (List.mem_map_of_mem (List.mem_map_of_mem hu))
    have hmine : t.item.key ∈ (p.tasks.map Task.item).map Item.key := List.mem_map_of_mem hitem
    exact ⟨hmine, hlayers.not_mem_later hsplit hmine⟩

/-- The opening of the version may be asked for, and nothing else is asked for behind it. -/
theorem mayAsk_opening {rest : List Event} (hrest : ∀ c, .asked c ∉ rest)
    {before after : List Event} {c : Call}
    (h : .asked .openVersion :: rest = before ++ .asked c :: after) : MayAsk b layers before c := by
  cases before with
  | nil =>
      obtain rfl := Event.asked.inj (List.cons.inj h).1
      refine ⟨?_, ?_, ?_⟩
      · intro k hk
        cases hk
      · intro hlogic
        cases hlogic
      · intro c e hmem
        cases hmem
  | cons first before =>
      obtain ⟨-, hbehind⟩ := List.cons.inj h
      refine absurd ?_ (hrest c)
      rw [hbehind]
      exact List.mem_append_right _ List.mem_cons_self

theorem Steps.mayAsk (hlayers : Layering b layers) {p : Progress}
    (h : Steps v (.start layers) p) {before after : List Event} {c : Call}
    (hsplit : p.history = before ++ .asked c :: after) : MayAsk b layers before c := by
  induction h generalizing before after c with
  | refl => exact mayAsk_opening (by simp) hsplit
  | tail hsteps hstep ih =>
      have hsound := hsteps.sound (sound_start layers v)
      cases hstep with
      | enter _ _ _ => exact ih hsplit
      | stop _ _ _ => exact ih hsplit
      | goOn _ htasks htask hturn =>
          rcases split_concat hsplit with ⟨rfl, rfl, -⟩ | ⟨r, -, hearlier⟩
          · exact hsound.mayAsk hlayers htasks htask hturn
          · exact ih hearlier

/-- Whatever the platform answers and in whatever order the tasks of a layer go on, a call is made
only when it may be made. -/
theorem mayAsk_of_canHappen (h : b.layers = .ok layers) {history : List Event}
    (hcan : CanHappen layers history) {before after : List Event} {c : Call}
    (hsplit : history = before ++ .asked c :: after) : MayAsk b layers before c := by
  cases hcan with
  | opening => exact mayAsk_opening (by simp) hsplit
  | notOpened => exact mayAsk_opening (by simp) hsplit
  | writing hsteps => exact hsteps.mayAsk (layering_of_layers h) hsplit

/-! ### Checks that come back in another order

Two checks are under way at once and the second one comes back first. The backend that needs both is
asked for when both are written. -/

def checkItem (name : String) : Item :=
  ⟨.healthCheck (.ofTarget ⟨name, "example.com", "", ⟨"", []⟩, ""⟩ "/up"), []⟩

def checkedBackend : Item :=
  ⟨.backend (.ofTarget ⟨"one", "example.com", "", ⟨"", []⟩, ""⟩),
    [(checkItem "one").key, (checkItem "two").key]⟩

def checkedBlueprint : Blueprint := ⟨[checkItem "one", checkedBackend, checkItem "two"]⟩

def checkedLayers : List (List Item) := [[checkItem "one", checkItem "two"], [checkedBackend]]

def checkCall (name : String) : Call := firstCall 7 (checkItem name).resource

def checkedHistory : List Event :=
  [.asked .openVersion, .granted .openVersion, .asked (checkCall "one"), .asked (checkCall "two"),
    .granted (checkCall "two"), .granted (checkCall "one")]

/-- In a batch a task may go on at any time. -/
theorem step_check {before after : List Task} {name : String} {s s' : TaskState} {e : Event}
    {later : List (List Item)} {history : List Event}
    (hbatch : stageOf ((before ++ ⟨checkItem name, s⟩ :: after).map Task.item) ≠ .writingLogic)
    (h : TaskStep v (checkItem name) s e s') :
    Step v ⟨before ++ ⟨checkItem name, s⟩ :: after, later, false, history⟩
      ⟨before ++ ⟨checkItem name, s'⟩ :: after, later, false, history ++ [e]⟩ :=
  .goOn (p := ⟨before ++ ⟨checkItem name, s⟩ :: after, later, false, history⟩)
    (t := ⟨checkItem name, s⟩) rfl rfl h fun hone => absurd hone hbatch

theorem canHappen_checkedHistory :
    CanHappen checkedLayers (checkedHistory ++ [.asked (firstCall 7 checkedBackend.resource)]) := by
  have hchecks : Steps 7 (.start checkedLayers) ⟨[⟨checkItem "one", .waiting⟩,
      ⟨checkItem "two", .waiting⟩], [[checkedBackend]], false,
      [.asked .openVersion, .granted .openVersion]⟩ :=
    (Steps.refl _).tail (step_enter (by simp) _ _ _)
  have hasked : Steps 7 (.start checkedLayers) ⟨[⟨checkItem "one", .asking (checkCall "one")⟩,
      ⟨checkItem "two", .asking (checkCall "two")⟩], [[checkedBackend]], false,
      checkedHistory.take 4⟩ :=
    (hchecks.tail (@step_check 7 [] _ _ _ _ _ _ _ (by decide) .start)).tail
      (@step_check 7 [_] _ _ _ _ _ _ _ (by decide) .start)
  have hwritten : Steps 7 (.start checkedLayers) ⟨[⟨checkItem "one", .written⟩,
      ⟨checkItem "two", .written⟩], [[checkedBackend]], false, checkedHistory⟩ :=
    (hasked.tail (@step_check 7 [_] _ _ _ _ _ _ _ (by decide) .grant)).tail
      (@step_check 7 [] _ _ _ _ _ _ _ (by decide) .grant)
  have hdone : ∀ t ∈ [(⟨checkItem "one", .written⟩ : Task), ⟨checkItem "two", .written⟩],
      t.state = .written := by simp
  have hentered : Steps 7 (.start checkedLayers)
      ⟨[⟨checkedBackend, .waiting⟩], [], false, checkedHistory⟩ :=
    hwritten.tail (step_enter hdone _ _ _)
  exact .writing (hentered.tail (@Step.goOn 7 _ [] [] ⟨checkedBackend, .waiting⟩ _ _ rfl rfl .start
    (by simp)))

theorem writtenIn_checkedHistory :
    checkedBlueprint.layers = .ok checkedLayers ∧ WrittenIn checkedHistory 7 (checkItem "two").key := by
  have hlayers : checkedBlueprint.layers = .ok checkedLayers := by decide +kernel
  obtain ⟨v, hv, hneeds⟩ := (mayAsk_of_canHappen hlayers canHappen_checkedHistory rfl).dependencies
    checkedBackend.key rfl
  obtain rfl := Option.some.inj hv
  exact ⟨hlayers, hneeds _ (.direct ⟨checkedBackend, by simp [checkedBlueprint], rfl,
    by simp [checkedBackend]⟩)⟩

end EdgeRouting.Rollout
