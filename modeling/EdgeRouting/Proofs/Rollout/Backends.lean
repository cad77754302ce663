import EdgeRouting.Proofs.Rollout.Preparation
import EdgeRouting.Proofs.Rollout.Session
import EdgeRouting.Rollout.Interleaving

/-!
# Backends over a session

A version begins as a copy of the latest one and only gains backends: those whose create or update
was granted in it (`Memory.backendsOf_of_replays`). A backend that is there cannot be created and
one that is not there cannot be updated, so the backends that a rollout reports as updated are those
of its blueprint that the copy already held (`Memory.existing_eq`). Both are inductions over the
calls of one attempt, replayed on the memory.

Over a session the backends of the latest version therefore never get fewer
(`Session.held_subset_run`). What one deployment has written is there for every later one, whatever
fails in between.
-/

namespace EdgeRouting

open Rollout Blueprint

/-- The backend that an exchange has written, with the version it was written into. -/
def Exchange.written? : Exchange → Option (Nat × String)
  | ⟨.create v b, .ok _⟩ => some (v, b.name)
  | ⟨.update v b, .ok _⟩ => some (v, b.name)
  | _ => none

def Blueprint.Item.backendName? (i : Item) : Option String :=
  match i.resource with
  | .backend b => some b.name
  | _ => none

/-- Whether a resource is one of the backends that are held. -/
def Blueprint.Item.isHeld (held : List String) (i : Item) : Bool := i.backendName?.any (· ∈ held)

theorem Blueprint.Item.key_eq_of_backendName? {i : Item} {n : String}
    (h : i.backendName? = some n) : i.key = ⟨.backend, n⟩ := by
  unfold Item.backendName? at h
  split at h
  · next b hb =>
    obtain rfl := Option.some.inj h
    rw [Item.key, hb]
    rfl
  · cases h

theorem Platform.Replays.split {σ : Type} {p : Platform σ} {s s' : σ} {x y : List Exchange}
    (h : p.Replays s (x ++ y) s') : ∃ u, p.Replays s x u ∧ p.Replays u y s' := by
  induction x generalizing s with
  | nil => exact ⟨s, rfl, h⟩
  | cons e x ih =>
      obtain ⟨u, hx, hy⟩ := ih h.2
      exact ⟨u, ⟨h.1, hx⟩, hy⟩

/-! ## Writes into one version -/

namespace Rollout

variable {v : Nat} {i : Item} {items : List Item} {x : List Exchange}

/-- An exchange of the write of one of some resources into a version. -/
def IsWriteOf (v : Nat) (items : List Item) (e : Exchange) : Prop :=
  e.call.version? = some v ∧ ∃ i ∈ items, e.call.key? = some i.key

theorem WritesItem.isWriteOf {existed : Bool} (h : WritesItem v i x existed) (hi : i ∈ items) :
    ∀ e ∈ x, IsWriteOf v items e := by
  cases h with
  | written _ =>
      rintro e he
      obtain rfl := List.mem_singleton.1 he
      exact ⟨rfl, i, hi, rfl⟩
  | created hb =>
      rintro e he
      obtain rfl := List.mem_singleton.1 he
      exact ⟨rfl, i, hi, by rw [Item.key, hb]; rfl⟩
  | updated hb _ =>
      rintro e he
      rcases List.mem_cons.1 he with rfl | he
      · exact ⟨rfl, i, hi, by rw [Item.key, hb]; rfl⟩
      · obtain rfl := List.mem_singleton.1 he
        exact ⟨rfl, i, hi, by rw [Item.key, hb]; rfl⟩

theorem FailsItem.isWriteOf {f : CallFailure} (h : FailsItem v i x f) (hi : i ∈ items) :
    ∀ e ∈ x, IsWriteOf v items e := by
  cases h with
  | write _ =>
      rintro e he
      obtain rfl := List.mem_singleton.1 he
      exact ⟨rfl, i, hi, rfl⟩
  | create hb _ =>
      rintro e he
      obtain rfl := List.mem_singleton.1 he
      exact ⟨rfl, i, hi, by rw [Item.key, hb]; rfl⟩
  | update hb _ =>
      rintro e he
      rcases List.mem_cons.1 he with rfl | he
      · exact ⟨rfl, i, hi, by rw [Item.key, hb]; rfl⟩
      · obtain rfl := List.mem_singleton.1 he
        exact ⟨rfl, i, hi, by rw [Item.key, hb]; rfl⟩

theorem WritesAll.isWriteOf {some' : List Item} {existing : List ResourceKey}
    (h : WritesAll v some' x existing) (hsub : some' ⊆ items) : ∀ e ∈ x, IsWriteOf v items e := by
  induction h with
  | nil => simp
  | cons hi _ ih =>
      obtain ⟨hmem, hrest⟩ := List.cons_subset.1 hsub
      intro e he
      rcases List.mem_append.1 he with he | he
      · exact hi.isWriteOf hmem e he
      · exact ih hrest e he

/-- A rollout opens a version before anything else, and makes only writes of its resources into the
version that it has opened. -/
theorem transcript_cases {σ : Type} (p : Platform σ) (b : Blueprint) (s : σ) :
    transcript p b s = [] ∨ (∃ e, transcript p b s = [⟨.openVersion, .error e⟩])
      ∨ ∃ v x, transcript p b s = ⟨.openVersion, .ok v⟩ :: x
        ∧ ∀ e ∈ x, IsWriteOf v b.items e := by
  cases hlayers : b.layers with
  | error f =>
      left
      rw [transcript, run, hlayers]
  | ok layers =>
      right
      have hsub : layers.flatten ⊆ b.items := (layering_of_layers hlayers).perm.subset
      have hwalked := walked_of_layers p hlayers s
      revert hwalked
      cases (run p b s).1 with
      | ok r =>
          rintro ⟨⟨x, ht, hall⟩, -⟩
          exact .inr ⟨_, x, ht, hall.isWriteOf hsub⟩
      | error f =>
          rintro (⟨ht⟩ | @⟨v, before, _, earlier, _, _, x, y, _, _, _, hsplit, ht, hall, hfails⟩)
          · exact .inl ⟨_, ht⟩
          · have hbefore : before.flatten ++ earlier ⊆ layers.flatten := by
              rw [hsplit, List.flatten_append, List.flatten_cons, List.append_assoc]
              exact List.append_subset.2 ⟨List.subset_append_left _ _, fun _ h =>
                List.mem_append_right _ (List.mem_append_left _ h)⟩
            refine .inr ⟨v, x ++ y, ht, ?_⟩
            intro e he
            rcases List.mem_append.1 he with he | he
            · exact hall.isWriteOf (List.Subset.trans hbefore hsub) e he
            · refine hfails.isWriteOf (hsub ?_) e he
              rw [hsplit]
              simp

theorem transcript_of_opened {σ : Type} {p : Platform σ} {b : Blueprint} {s : σ}
    (h : ⟨.openVersion, .ok v⟩ ∈ transcript p b s) :
    ∃ x, transcript p b s = ⟨.openVersion, .ok v⟩ :: x ∧ ∀ e ∈ x, IsWriteOf v b.items e := by
  rcases transcript_cases p b s with ht | ⟨e, ht⟩ | ⟨w, x, ht, hwrites⟩
  · rw [ht] at h
    cases h
  · rw [ht] at h
    obtain ⟨-, hresult⟩ := Exchange.mk.inj (List.mem_singleton.1 h)
    cases hresult
  · rw [ht] at h
    rcases List.mem_cons.1 h with heq | hmem
    · obtain ⟨-, hresult⟩ := Exchange.mk.inj heq
      obtain rfl := Except.ok.inj (eq_of_heq hresult)
      exact ⟨x, ht, hwrites⟩
    · cases (hwrites _ hmem).1

end Rollout

/-! ## What the memory holds -/

namespace Memory

variable {m m' : Memory} {v w : Nat} {n : String} {b : Backend} {x y : List Exchange}
  {items : List Item}

theorem backendsOf_cons_self (l : List String) :
    backendsOf { m with backends := (v, l) :: m.backends } v = l := by
  simp [backendsOf]

theorem backendsOf_cons_of_ne (l : List String) (h : w ≠ v) :
    backendsOf { m with backends := (v, l) :: m.backends } w = m.backendsOf w := by
  simp [backendsOf, List.lookup_cons, beq_eq_false_iff_ne.2 h]

/-- A call that fails leaves the memory as it is. -/
theorem answer_of_error {c : Call} {e : CallFailure} (h : (platform.answer c m).1 = .error e) :
    (platform.answer c m).2 = m := by
  change (answer c m).1 = .error e at h
  change (answer c m).2 = m
  unfold answer at h ⊢
  cases hfault : m.faultOf? c with
  | some f => rfl
  | none =>
      simp only [hfault] at h ⊢
      cases c with
      | openVersion => cases h
      | write _ _ => rfl
      | create v b =>
          simp only [perform] at h ⊢
          split at h
          · next hheld => rw [if_pos hheld]
          · cases h
      | update v b =>
          simp only [perform]
          split <;> rfl
      | activate _ => cases h

theorem perform_of_ok {c : Call} {a : c.Answer} (h : (platform.answer c m).1 = .ok a) :
    m.perform c = (.ok a, (platform.answer c m).2) := by
  change (answer c m).1 = .ok a at h
  change m.perform c = (.ok a, (answer c m).2)
  unfold answer at h ⊢
  cases hfault : m.faultOf? c with
  | some f =>
      rw [hfault] at h
      cases h
  | none =>
      rw [hfault] at h
      exact Prod.ext h rfl

theorem opened_of_ok (h : (platform.answer .openVersion m).1 = .ok v) :
    v = m.latest + 1 ∧ (platform.answer .openVersion m).2.latest = m.latest + 1
      ∧ (platform.answer .openVersion m).2.backendsOf v = m.backendsOf m.latest := by
  obtain ⟨hresult, hmemory⟩ := Prod.mk.inj (perform_of_ok h)
  obtain rfl := Except.ok.inj hresult
  rw [← hmemory]
  exact ⟨rfl, rfl, backendsOf_cons_self _⟩

theorem created_of_ok {a : (Call.create v b).Answer}
    (h : (platform.answer (.create v b) m).1 = .ok a) : b.name ∉ m.backendsOf v
      ∧ (platform.answer (.create v b) m).2
        = { m with backends := (v, b.name :: m.backendsOf v) :: m.backends } := by
  have hperform := perform_of_ok h
  rw [perform] at hperform
  split at hperform
  · cases (Prod.mk.inj hperform).1
  · next hnot => exact ⟨hnot, (Prod.mk.inj hperform).2.symm⟩

theorem updated_of_ok {a : (Call.update v b).Answer}
    (h : (platform.answer (.update v b) m).1 = .ok a) : b.name ∈ m.backendsOf v
      ∧ (platform.answer (.update v b) m).2 = m := by
  have hperform := perform_of_ok h
  rw [perform] at hperform
  split at hperform
  · next hheld => exact ⟨hheld, (Prod.mk.inj hperform).2.symm⟩
  · cases (Prod.mk.inj hperform).1

/-- The write of a resource into a version changes nothing but the backends of that version. -/
theorem backendsOf_answer {e : Exchange} (hwrite : IsWriteOf v items e)
    (hresult : (platform.answer e.call m).1 = e.result) :
    (platform.answer e.call m).2.latest = m.latest
      ∧ ∀ n, n ∈ (platform.answer e.call m).2.backendsOf v
        ↔ n ∈ m.backendsOf v ∨ e.written? = some (v, n) := by
  obtain ⟨hversion, i, -, hkey⟩ := hwrite
  obtain ⟨c, result⟩ := e
  cases result with
  | error f =>
      rw [answer_of_error hresult]
      refine ⟨rfl, fun n => ?_⟩
      cases c <;> simp [Exchange.written?]
  | ok a =>
      cases c with
      | openVersion => cases hkey
      | activate _ => cases hkey
      | write w r =>
          obtain ⟨-, hmemory⟩ := Prod.mk.inj (perform_of_ok hresult)
          rw [← hmemory]
          exact ⟨rfl, fun n => by simp [Exchange.written?]⟩
      | create w b =>
          obtain rfl := Option.some.inj hversion
          obtain ⟨-, hmemory⟩ := created_of_ok hresult
          rw [hmemory]
          refine ⟨rfl, fun n => ?_⟩
          rw [backendsOf_cons_self, List.mem_cons, or_comm]
          simp [Exchange.written?, eq_comm]
      | update w b =>
          obtain rfl := Option.some.inj hversion
          obtain ⟨hheld, hmemory⟩ := updated_of_ok hresult
          rw [hmemory]
          refine ⟨rfl, fun n => ⟨.inl, ?_⟩⟩
          rintro (hn | hn)
          · exact hn
          · obtain rfl : b.name = n := (Prod.mk.inj (Option.some.inj hn)).2
            exact hheld

/-- Writes of resources into a version add the backends that were written. -/
theorem backendsOf_of_replays (h : platform.Replays m x m')
    (hwrites : ∀ e ∈ x, IsWriteOf v items e) :
    m'.latest = m.latest ∧ ∀ n, n ∈ m'.backendsOf v
      ↔ n ∈ m.backendsOf v ∨ (v, n) ∈ x.filterMap Exchange.written? := by
  induction x generalizing m with
  | nil =>
      obtain rfl : m = m' := h
      exact ⟨rfl, fun n => by simp⟩
  | cons e x ih =>
      obtain ⟨hresult, hrest⟩ := h
      obtain ⟨hfirst, hothers⟩ := List.forall_mem_cons.1 hwrites
      obtain ⟨hlatest, hholds⟩ := backendsOf_answer hfirst hresult
      obtain ⟨hlatest', hholds'⟩ := ih hrest hothers
      refine ⟨hlatest'.trans hlatest, fun n => ?_⟩
      rw [hholds', hholds, List.filterMap_cons]
      cases e.written? with
      | none => simp
      | some p => simp [or_assoc, eq_comm]

/-- A backend that was created was not there before. -/
theorem not_mem_of_created (h : platform.Replays m x m') (hwrites : ∀ e ∈ x, IsWriteOf v items e)
    (hmem : ⟨.create v b, .ok ()⟩ ∈ x) : b.name ∉ m.backendsOf v := by
  induction x generalizing m with
  | nil => cases hmem
  | cons e x ih =>
      obtain ⟨hresult, hrest⟩ := h
      obtain ⟨hfirst, hothers⟩ := List.forall_mem_cons.1 hwrites
      rcases List.mem_cons.1 hmem with rfl | hmem
      · exact (created_of_ok hresult).1
      · intro hheld
        exact ih hrest hothers hmem (((backendsOf_answer hfirst hresult).2 _).2 (.inl hheld))

/-- No call takes a backend away from the latest version. -/
theorem backends_subset_answer (m : Memory) (c : Call) : m.backendsOf m.latest
    ⊆ (platform.answer c m).2.backendsOf (platform.answer c m).2.latest := by
  cases hresult : (platform.answer c m).1 with
  | error e =>
      rw [answer_of_error hresult]
      exact List.Subset.refl _
  | ok a =>
      cases c with
      | openVersion =>
          obtain ⟨rfl, hlatest, hholds⟩ := opened_of_ok hresult
          rw [hlatest, hholds]
          exact List.Subset.refl _
      | write _ _ =>
          rw [← (Prod.mk.inj (perform_of_ok hresult)).2]
          exact List.Subset.refl _
      | create v b =>
          rw [(created_of_ok hresult).2]
          by_cases hv : m.latest = v
          · subst hv
            rw [backendsOf_cons_self]
            exact List.subset_cons_self _ _
          · rw [backendsOf_cons_of_ne _ hv]
            exact List.Subset.refl _
      | update v b =>
          rw [(updated_of_ok hresult).2]
          exact List.Subset.refl _
      | activate _ =>
          rw [← (Prod.mk.inj (perform_of_ok hresult)).2]
          exact List.Subset.refl _

/-! ## Which backends are updated -/

theorem written_writesItem {i : Item} {existed : Bool} (h : WritesItem v i x existed) :
    x.filterMap Exchange.written? = (i.backendName?.map (v, ·)).toList := by
  cases h with
  | written hnot =>
      unfold Item.backendName?
      split
      · next b hb => exact absurd hb (hnot b)
      · rfl
  | created hb =>
      rw [Item.backendName?, hb]
      rfl
  | updated hb _ =>
      rw [Item.backendName?, hb]
      rfl

theorem written_writesAll {existing : List ResourceKey} (h : WritesAll v items x existing) :
    x.filterMap Exchange.written? = (items.filterMap Item.backendName?).map (v, ·) := by
  induction h with
  | nil => rfl
  | @cons i r _ _ _ _ hi _ ih =>
      rw [List.filterMap_append, written_writesItem hi, ih, List.filterMap_cons]
      cases i.backendName? <;> rfl

/-- A backend existed when it was written if the version held it before. -/
theorem existed_eq {i : Item} {existed : Bool} (h : WritesItem v i x existed)
    (hreplays : platform.Replays m x m') : existed = i.isHeld (m.backendsOf v) := by
  cases h with
  | written hnot =>
      unfold Item.isHeld Item.backendName?
      split
      · next b hb => exact absurd hb (hnot b)
      · rfl
  | created hb =>
      obtain ⟨hnew, -⟩ := created_of_ok hreplays.1
      simp [Item.isHeld, Item.backendName?, hb, hnew]
  | updated hb _ =>
      -- The create that failed has left the memory as it was.
      have hfailed := answer_of_error hreplays.1
      obtain ⟨hheld, -⟩ := updated_of_ok hreplays.2.1
      rw [hfailed] at hheld
      simp [Item.isHeld, Item.backendName?, hb, hheld]

/-- The write of one resource does not decide whether another one is held. -/
theorem isHeld_of_writesItem {i j : Item} {existed : Bool} (h : WritesItem v i x existed)
    (hreplays : platform.Replays m x m') (hne : j.key ≠ i.key) :
    j.isHeld (m'.backendsOf v) = j.isHeld (m.backendsOf v) := by
  cases hname : j.backendName? with
  | none => simp [Item.isHeld, hname]
  | some n =>
      obtain ⟨-, hholds⟩ := backendsOf_of_replays hreplays (h.isWriteOf (List.mem_singleton_self i))
      have hother : (v, n) ∉ x.filterMap Exchange.written? := by
        rw [written_writesItem h]
        intro hmem
        obtain ⟨n', hn', hpair⟩ := Option.map_eq_some_iff.1 (Option.mem_toList.1 hmem)
        obtain rfl := (Prod.mk.inj hpair).2
        exact hne (by rw [Item.key_eq_of_backendName? hname, Item.key_eq_of_backendName? hn'])
      have hsame : n ∈ m'.backendsOf v ↔ n ∈ m.backendsOf v := by simp [hholds, hother]
      simp only [Item.isHeld, hname, Option.any_some, hsame]

/-- The backends that existed when they were written are those that the version held before any of
the writes. -/
theorem existing_eq {existing : List ResourceKey} (h : WritesAll v items x existing)
    (hreplays : platform.Replays m x m') (hnodup : (items.map Item.key).Nodup) :
    existing = (items.filter (Item.isHeld (m.backendsOf v))).map Item.key := by
  induction h generalizing m with
  | nil => rfl
  | @cons i r x y existed existing hi hall ih =>
      obtain ⟨m₁, hfirst, hrest⟩ := hreplays.split
      obtain ⟨hnew, hothers⟩ := List.nodup_cons.1 hnodup
      have hsame : ∀ j ∈ r, j.isHeld (m₁.backendsOf v) = j.isHeld (m.backendsOf v) := by
        intro j hj
        refine isHeld_of_writesItem hi hfirst ?_
        exact fun heq => hnew (heq ▸ List.mem_map_of_mem hj)
      rw [ih hrest hothers, List.filter_congr hsame, existed_eq hi hfirst, List.filter_cons]
      split <;> simp

/-! ## One attempt -/

/-- An attempt that opens a version takes the number behind the latest one. The version then holds
what the latest one held, and the backends that the attempt has written. -/
theorem backendsOf_of_opened {b : Blueprint}
    (h : ⟨.openVersion, .ok v⟩ ∈ transcript platform b m) :
    v = m.latest + 1 ∧ (Rollout.run platform b m).2.latest = v
      ∧ ∀ n, n ∈ (Rollout.run platform b m).2.backendsOf v ↔ n ∈ m.backendsOf m.latest
        ∨ (v, n) ∈ (transcript platform b m).filterMap Exchange.written? := by
  obtain ⟨x, ht, hwrites⟩ := transcript_of_opened h
  have hreplays := run_replays platform b m
  rw [ht] at hreplays ⊢
  obtain ⟨hopen, hrest⟩ := hreplays
  obtain ⟨hv, hlatest, hcopy⟩ := opened_of_ok hopen
  obtain ⟨hlatest', hholds⟩ := backendsOf_of_replays hrest hwrites
  refine ⟨hv, ?_, fun n => ?_⟩
  · rw [hlatest', hv]
    exact hlatest
  · rw [hholds, ← hcopy]
    rfl

/-- An attempt that gives a report has updated the backends of its blueprint that the latest version
held. -/
theorem updated_of_report {b : Blueprint} {layers : List (List Item)} {r : Report}
    (hlayers : b.layers = .ok layers) (hreport : (Rollout.run platform b m).1 = .ok r) :
    ⟨.openVersion, .ok r.version⟩ ∈ transcript platform b m
      ∧ r.updated = (layers.flatten.filter (Item.isHeld (m.backendsOf m.latest))).map Item.key
      ∧ (transcript platform b m).filterMap Exchange.written?
        = (layers.flatten.filterMap Item.backendName?).map (r.version, ·) := by
  have hwalked := walked_of_layers platform hlayers m
  rw [hreport] at hwalked
  obtain ⟨⟨x, ht, hall⟩, -⟩ : Completed layers (transcript platform b m) r := hwalked
  have hreplays := run_replays platform b m
  rw [ht] at hreplays ⊢
  obtain ⟨hopen, hrest⟩ := hreplays
  obtain ⟨-, -, hcopy⟩ := opened_of_ok hopen
  refine ⟨List.mem_cons_self, ?_, ?_⟩
  · rw [← hcopy]
    exact existing_eq hall hrest (layering_of_layers hlayers).nodup
  · show x.filterMap Exchange.written? = _
    exact written_writesAll hall

/-- A rollout never creates a backend that the latest version holds. -/
theorem not_mem_of_created_in {b : Blueprint} {w : Nat} {c : Backend}
    (h : ⟨.create w c, .ok ()⟩ ∈ transcript platform b m) :
    c.name ∉ m.backendsOf m.latest ∧ ∃ i ∈ b.items, i.key = ⟨.backend, c.name⟩ := by
  have hreplays := run_replays platform b m
  rcases transcript_cases platform b m with ht | ⟨e, ht⟩ | ⟨v, x, ht, hwrites⟩
  · rw [ht] at h
    cases h
  · rw [ht] at h
    cases (Exchange.mk.inj (List.mem_singleton.1 h)).1
  · rw [ht] at h hreplays
    obtain ⟨hopen, hrest⟩ := hreplays
    obtain ⟨-, -, hcopy⟩ := opened_of_ok hopen
    have hmem : ⟨.create w c, .ok ()⟩ ∈ x := by
      rcases List.mem_cons.1 h with heq | hmem
      · cases (Exchange.mk.inj heq).1
      · exact hmem
    obtain ⟨hversion, i, hi, hkey⟩ := hwrites _ hmem
    obtain rfl : w = v := Option.some.inj hversion
    refine ⟨?_, i, hi, (Option.some.inj hkey).symm⟩
    rw [← hcopy]
    exact not_mem_of_created hrest hwrites hmem

end Memory

/-! ## Sessions -/

namespace Session

variable {settings : RolloutSettings} {s s' : Session} {t : List Exchange} {targets : List Target}
  {table : WeightTable}

/-- The backends of the latest version. -/
def held (s : Session) : List String := s.memory.backendsOf s.memory.latest

theorem held_subset_effect (h : Effect s t s') : s.held ⊆ s'.held := by
  cases h with
  | quiet _ => exact List.Subset.refl _
  | attempt b =>
      have hkept : ∀ c (m : Memory), s.held ⊆ m.backendsOf m.latest →
          s.held ⊆ (Memory.platform.answer c m).2.backendsOf
            (Memory.platform.answer c m).2.latest :=
        fun c m hm => List.Subset.trans hm (Memory.backends_subset_answer m c)
      exact run_keeps hkept b (List.Subset.refl _)
  | activate _ => exact Memory.backends_subset_answer s.memory _

/-- The latest version never has fewer backends than an earlier one had. -/
theorem held_subset_run (settings : RolloutSettings) (s : Session) (operations : List Operation) :
    s.held ⊆ (s.run settings operations).held := by
  induction operations generalizing s with
  | nil => exact List.Subset.refl _
  | cons o r ih => exact List.Subset.trans (held_subset_effect (step_effect settings s o)) (ih _)

/-- An operation that opens a version is an attempt. -/
theorem backendsOf_of_effect {v : Nat} (h : Effect s t s') (hopened : ⟨.openVersion, .ok v⟩ ∈ t) :
    v = s.memory.latest + 1 ∧ s'.memory.latest = v
      ∧ ∀ n, n ∈ s'.memory.backendsOf v ↔ n ∈ s.held ∨ (v, n) ∈ t.filterMap Exchange.written? := by
  cases h with
  | quiet _ => cases hopened
  | attempt b => exact Memory.backendsOf_of_opened hopened
  | activate _ => cases (Exchange.mk.inj (List.mem_singleton.1 hopened)).1

/-- The backends of a routing set are those of its targets. -/
theorem backendName?_standing {checkPath : String} :
    ∀ i ∈ Blueprint.standing targets checkPath, i.backendName? = none := by
  intro i hi
  rcases List.mem_append.1 hi with hi | hi
  · simp only [List.mem_cons, List.not_mem_nil, or_false] at hi
    rcases hi with rfl | rfl <;> rfl
  · obtain ⟨t, -, rfl⟩ := List.mem_map.1 hi
    rfl

theorem backendName?_fragments {fragments : List Fragment} :
    ∀ i ∈ fragments.map (Blueprint.fragmentItem targets), i.backendName? = none := by
  intro i hi
  obtain ⟨f, -, rfl⟩ := List.mem_map.1 hi
  rfl

theorem filterMap_backendName?_stages {fragments : List Fragment} {checkPath : String} :
    [Blueprint.standing targets checkPath, targets.map Blueprint.backendItem,
      fragments.map (Blueprint.fragmentItem targets)].flatten.filterMap Item.backendName?
      = targets.map Target.name := by
  rw [List.flatten_cons, List.flatten_cons, List.flatten_singleton, List.filterMap_append,
    List.filterMap_append, List.filterMap_eq_nil_iff.2 backendName?_standing,
    List.filterMap_eq_nil_iff.2 backendName?_fragments, List.append_nil, List.nil_append,
    List.filterMap_map]
  show targets.filterMap (fun t => some t.name) = _
  rw [List.filterMap_eq_map']

theorem filter_isHeld_stages {fragments : List Fragment} {checkPath : String} (l : List String) :
    ([Blueprint.standing targets checkPath, targets.map Blueprint.backendItem,
      fragments.map (Blueprint.fragmentItem targets)].flatten.filter (Item.isHeld l)).map Item.key
      = (targets.filter (·.name ∈ l)).map fun t => ⟨.backend, t.name⟩ := by
  have hnone : ∀ {items : List Item}, (∀ i ∈ items, i.backendName? = none) →
      items.filter (Item.isHeld l) = [] := by
    intro items h
    refine List.filter_eq_nil_iff.2 fun i hi => ?_
    simp [Item.isHeld, h i hi]
  rw [List.flatten_cons, List.flatten_cons, List.flatten_singleton, List.filter_append,
    List.filter_append, hnone backendName?_standing, hnone backendName?_fragments, List.append_nil,
    List.nil_append, List.filter_map, List.map_map]
  rfl

theorem deployed_of_report {r : Report}
    (h : (s.step settings (.deploy targets table)).1 = .report r) : ∃ logic b,
      settings.prepare targets table = .ok (logic, b)
        ∧ (Rollout.run Memory.platform b s.memory).1 = .ok r := by
  simp only [step] at h
  cases hprepared : settings.prepare targets table with
  | error f =>
      rw [hprepared] at h
      cases h
  | ok prepared =>
      rw [hprepared] at h
      refine ⟨prepared.1, prepared.2, rfl, ?_⟩
      simp only [attempt, run_recorded] at h
      revert h
      cases (Rollout.run Memory.platform prepared.2 s.memory).1 with
      | ok r' =>
          intro h
          rw [OperationResult.report.inj h]
      | error f =>
          intro h
          cases h

/-- A deployment that gives a report has updated the backends that were held, and leaves all of its
backends held. -/
theorem updated_of_deployed {r : Report}
    (h : (s.step settings (.deploy targets table)).1 = .report r) :
    ⟨.openVersion, .ok r.version⟩ ∈ s.exchanges settings (.deploy targets table)
      ∧ r.updated = (targets.filter (·.name ∈ s.held)).map (fun t => ⟨.backend, t.name⟩)
      ∧ ∀ n, (r.version, n) ∈ (s.exchanges settings (.deploy targets table)).filterMap
        Exchange.written? ↔ n ∈ targets.map Target.name := by
  obtain ⟨logic, b, hprepared, hreport⟩ := deployed_of_report h
  obtain ⟨hlogic, hb⟩ := RolloutSettings.prepare_eq_ok_iff.1 hprepared
  have hlayers := RolloutSettings.layers_prepared hlogic settings.checkPath
  rw [← hb] at hlayers
  obtain ⟨hopened, hupdated, hwritten⟩ := Memory.updated_of_report hlayers hreport
  rw [filter_isHeld_stages] at hupdated
  rw [filterMap_backendName?_stages] at hwritten
  simp only [exchanges, hprepared]
  refine ⟨hopened, hupdated, fun n => ?_⟩
  rw [hwritten]
  simp

/-- A deployment creates backends of its targets only, and none that is held. -/
theorem created_of_deploy {v : Nat} {b : Backend}
    (h : ⟨.create v b, .ok ()⟩ ∈ s.exchanges settings (.deploy targets table)) :
    b.name ∈ targets.map Target.name ∧ b.name ∉ s.held := by
  simp only [exchanges] at h
  cases hprepared : settings.prepare targets table with
  | error f =>
      rw [hprepared] at h
      cases h
  | ok prepared =>
      rw [hprepared] at h
      obtain ⟨hnew, i, hi, hkey⟩ := Memory.not_mem_of_created_in h
      refine ⟨?_, hnew⟩
      rw [(RolloutSettings.prepare_eq_ok_iff.1 hprepared).2, Blueprint.ofTargets_items] at hi
      rcases List.mem_append.1 hi with hi | hi
      · obtain ⟨hkind, -⟩ := Blueprint.kind_of_mem_standing (List.mem_map_of_mem hi)
        rw [hkey] at hkind
        exact absurd rfl hkind
      · rcases List.mem_append.1 hi with hi | hi
        · obtain ⟨t, ht, rfl⟩ := List.mem_map.1 hi
          exact List.mem_map.2 ⟨t, ht, (ResourceKey.mk.inj hkey).2⟩
        · obtain ⟨f, -, rfl⟩ := List.mem_map.1 hi
          cases (ResourceKey.mk.inj hkey).1

/-- At every moment of a session: an operation that opens a version takes the number behind the
latest one, and the version then holds what the latest one held and the backends that were written
into it. A deployment that gives a report has updated those backends of its targets that were held,
in their order, and its version holds all of them. When the same targets are deployed again, after
whatever operations, no backend is created, and a report says that all were updated. -/
theorem held_of_run (settings : RolloutSettings) (operations : List Operation) :
    let s := initial.run settings operations
    (∀ o v, ⟨.openVersion, .ok v⟩ ∈ s.exchanges settings o →
      let s' := (s.step settings o).2
      v = s.memory.latest + 1 ∧ s'.memory.latest = v
        ∧ ∀ n, n ∈ s'.memory.backendsOf v
          ↔ n ∈ s.held ∨ (v, n) ∈ (s.exchanges settings o).filterMap Exchange.written?)
      ∧ ∀ targets table r, (s.step settings (.deploy targets table)).1 = .report r →
        let s' := (s.step settings (.deploy targets table)).2
        r.version = s.memory.latest + 1 ∧ s'.memory.latest = r.version
          ∧ r.updated = (targets.filter (·.name ∈ s.held)).map (fun t => ⟨.backend, t.name⟩)
          ∧ (∀ n, n ∈ s'.memory.backendsOf r.version
            ↔ n ∈ s.held ∨ n ∈ targets.map Target.name)
          ∧ ∀ between table', let later := s'.run settings between
            (∀ v b, ⟨.create v b, .ok ()⟩ ∉ later.exchanges settings (.deploy targets table'))
              ∧ ∀ r', (later.step settings (.deploy targets table')).1 = .report r' →
                r'.updated = targets.map fun t => ⟨.backend, t.name⟩ := by
  intro s
  refine ⟨fun o v => backendsOf_of_effect (step_effect settings s o), ?_⟩
  intro targets table r hreport s'
  obtain ⟨hopened, hupdated, hwritten⟩ := updated_of_deployed hreport
  obtain ⟨hversion, hlatest, hholds⟩ := backendsOf_of_effect (step_effect settings s _) hopened
  have hall : ∀ n, n ∈ s'.memory.backendsOf r.version
      ↔ n ∈ s.held ∨ n ∈ targets.map Target.name := by
    intro n
    rw [hholds, hwritten]
  refine ⟨hversion, hlatest, hupdated, hall, ?_⟩
  intro between table' later
  have hheld : ∀ n ∈ targets.map Target.name, n ∈ later.held := by
    intro n hn
    refine held_subset_run settings s' between ?_
    rw [held, hlatest]
    exact (hall n).2 (.inr hn)
  constructor
  · intro v b hcreated
    obtain ⟨hname, hnew⟩ := created_of_deploy hcreated
    exact hnew (hheld _ hname)
  · intro r' hreport'
    obtain ⟨-, hupdated', -⟩ := updated_of_deployed hreport'
    rw [hupdated', List.filter_eq_self.2]
    intro t ht
    exact decide_eq_true (hheld _ (List.mem_map_of_mem ht))

/-! ### A conflict over a backend that is not there

The second rollout is told that its new backend exists. It cannot be updated, so version three is
left behind with the backend that was copied into it. -/

def namedTarget (name : String) : Target :=
  ⟨name, "10.0.0.1", "/api", ⟨"/api", [.literal "/api"]⟩, ""⟩

def conflictOverNothing : List Operation :=
  [.deploy [namedTarget "blue"] .empty,
    .fail "create backend/green" ⟨some 409, "Conflict"⟩,
    .deploy [namedTarget "blue", namedTarget "green"] .empty,
    .clear]

theorem held_conflictOverNothing :
    let s := initial.run sessionSettings conflictOverNothing
    let again := Operation.deploy [namedTarget "green", namedTarget "blue"] .empty
    ∃ r, (s.step sessionSettings again).1 = .report r ∧ r.version = 4
      ∧ r.updated = [⟨.backend, "blue"⟩]
      ∧ ∀ between, ∀ v b, ⟨.create v b, .ok ()⟩
        ∉ ((s.step sessionSettings again).2.run sessionSettings between).exchanges sessionSettings
          again := by
  intro s again
  have hreport : ∃ r, (s.step sessionSettings again).1 = .report r := ⟨_, by with_unfolding_all rfl⟩
  have hheld : s.held = ["blue"] := by with_unfolding_all rfl
  have hlatest : s.memory.latest = 3 := by with_unfolding_all rfl
  obtain ⟨r, hr⟩ := hreport
  obtain ⟨hversion, -, hupdated, -, hlater⟩ :=
    (held_of_run sessionSettings conflictOverNothing).2 _ _ r hr
  refine ⟨r, hr, by rw [hversion, hlatest], ?_, fun between => (hlater between _).1⟩
  rw [hupdated, hheld]
  rfl

end Session

end EdgeRouting
