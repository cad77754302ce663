import Mathlib.Data.List.Chain
import EdgeRouting.Proofs.Lists
import EdgeRouting.Proofs.Rollout.Transcript

/-!
# Rollouts as flat walks

A rollout goes through layers, of which some are written as a batch and some one resource at a time,
and keeps a report on the way. What it does to the platform is simpler than that: it opens a version
and then writes the resources of all layers one behind the other, up to the first call whose failure
counts. `WritesAll` is such a walk that came through and `FailsItem` the write it can end with. A
backend that could not be created because it exists is no failure; it is changed instead.

The facts are proved of one resource, then of a layer, then of all layers. Each says what a stretch
of the rollout adds to the transcript and to the report, so that the next one only has to put
stretches together.
-/

namespace EdgeRouting.Rollout

open Blueprint

/-! ## Walks -/

/-- The exchanges in which a resource is written into a version, and whether it existed. -/
inductive WritesItem (v : Nat) (i : Item) : List Exchange → Bool → Prop where
  | written : (∀ b, i.resource ≠ .backend b) → WritesItem v i [⟨.write v i.resource, .ok ()⟩] false
  | created {b : Backend} :
    i.resource = .backend b → WritesItem v i [⟨.create v b, .ok ()⟩] false
  | updated {b : Backend} {e : CallFailure} :
    i.resource = .backend b → e.isConflict = true →
      WritesItem v i [⟨.create v b, .error e⟩, ⟨.update v b, .ok ()⟩] true

/-- The exchanges in which the write of a resource fails, and the failure that counts. -/
inductive FailsItem (v : Nat) (i : Item) : List Exchange → CallFailure → Prop where
  | write {e : CallFailure} :
    (∀ b, i.resource ≠ .backend b) → FailsItem v i [⟨.write v i.resource, .error e⟩] e
  | create {b : Backend} {e : CallFailure} :
    i.resource = .backend b → e.isConflict = false → FailsItem v i [⟨.create v b, .error e⟩] e
  | update {b : Backend} {e e' : CallFailure} :
    i.resource = .backend b → e.isConflict = true →
      FailsItem v i [⟨.create v b, .error e⟩, ⟨.update v b, .error e'⟩] e'

/-- The exchanges in which resources are written one behind the other, and those among the resources
that existed. -/
inductive WritesAll (v : Nat) : List Item → List Exchange → List ResourceKey → Prop where
  | nil : WritesAll v [] [] []
  | cons {i : Item} {r : List Item} {x y : List Exchange} {existed : Bool}
    {existing : List ResourceKey} : WritesItem v i x existed → WritesAll v r y existing →
      WritesAll v (i :: r) (x ++ y) (if existed then i.key :: existing else existing)

theorem WritesAll.append {v : Nat} {a b : List Item} {x y : List Exchange}
    {k l : List ResourceKey} (ha : WritesAll v a x k) (hb : WritesAll v b y l) :
    WritesAll v (a ++ b) (x ++ y) (k ++ l) := by
  induction ha with
  | nil => exact hb
  | @cons i r x₁ x₂ existed existing hi _ ih =>
      have hkeys : (if existed then i.key :: existing else existing) ++ l
          = if existed then i.key :: (existing ++ l) else existing ++ l := by
        cases existed <;> rfl
      rw [List.append_assoc, hkeys]
      exact .cons hi ih

/-! ## One resource -/

variable {σ : Type}

theorem writeItem_transcribed (p : Platform σ) (v : Nat) (i : Item) (s : σ)
    (log : List Exchange) :
    ∃ s' x, (writeItem p.transcribed v i (s, log)).2 = (s', log ++ x)
      ∧ match (writeItem p.transcribed v i (s, log)).1 with
        | .ok existed => WritesItem v i x existed
        | .error e => FailsItem v i x e := by
  unfold writeItem
  split
  · next b hb =>
    obtain ⟨⟨r, s₁⟩, hcreate⟩ : ∃ a, p.answer (.create v b) s = a := ⟨_, rfl⟩
    rw [Platform.transcribed_answer hcreate]
    cases r with
    | ok u => exact ⟨s₁, _, rfl, WritesItem.created hb⟩
    | error e =>
        cases he : e.isConflict with
        | false =>
            simp only [he, Bool.false_eq_true, if_false]
            exact ⟨s₁, _, rfl, FailsItem.create hb he⟩
        | true =>
            simp only [he, if_true]
            obtain ⟨⟨r', s₂⟩, hupdate⟩ : ∃ a, p.answer (.update v b) s₁ = a := ⟨_, rfl⟩
            rw [Platform.transcribed_answer hupdate]
            cases r' with
            | ok u => exact ⟨s₂, _, by rw [List.append_assoc]; rfl, WritesItem.updated hb he⟩
            | error e' => exact ⟨s₂, _, by rw [List.append_assoc]; rfl, FailsItem.update hb he⟩
  · next hb =>
    obtain ⟨⟨r, s₁⟩, hwrite⟩ : ∃ a, p.answer (.write v i.resource) s = a := ⟨_, rfl⟩
    rw [Platform.transcribed_answer hwrite]
    cases r with
    | ok u => exact ⟨s₁, _, rfl, WritesItem.written hb⟩
    | error e => exact ⟨s₁, _, rfl, FailsItem.write hb⟩

/-! ## One layer -/

/-- A stretch of the rollout writes resources, and stops behind those before the one that fails. -/
theorem writeItems_transcribed (p : Platform σ) (done : Report) (s : σ) (log : List Exchange)
    (items : List Item) :
    ∃ s' x, (writeItems p.transcribed done (s, log) items).2 = (s', log ++ x)
      ∧ match (writeItems p.transcribed done (s, log) items).1 with
        | .ok r => ∃ existing, WritesAll done.version items x existing
          ∧ r = { done with
              written := done.written ++ items.map Item.key
              updated := done.updated ++ existing }
        | .error e => ∃ earlier i later y z existing, items = earlier ++ i :: later
          ∧ x = y ++ z ∧ WritesAll done.version earlier y existing
          ∧ FailsItem done.version i z e := by
  induction items generalizing done s log with
  | nil => exact ⟨s, [], by simp [writeItems], [], .nil, by simp⟩
  | cons i r ih =>
      obtain ⟨s₁, x₁, hlog₁, hitem⟩ := writeItem_transcribed p done.version i s log
      rw [writeItems]
      revert hlog₁ hitem
      rcases writeItem p.transcribed done.version i (s, log) with ⟨result, t₁⟩
      cases result with
      | error e =>
          rintro rfl hfails
          exact ⟨s₁, x₁, rfl, [], i, r, [], x₁, [], rfl, rfl, .nil, hfails⟩
      | ok existed =>
          rintro rfl hwrites
          obtain ⟨s', x, hlog, hrest⟩ := ih { done with
            written := done.written ++ [i.key]
            updated := if existed then done.updated ++ [i.key] else done.updated } s₁ (log ++ x₁)
          refine ⟨s', x₁ ++ x, hlog.trans (by rw [List.append_assoc]), ?_⟩
          revert hrest
          simp only
          cases (writeItems p.transcribed { done with
            written := done.written ++ [i.key]
            updated := if existed then done.updated ++ [i.key] else done.updated }
              (s₁, log ++ x₁) r).1 with
          | ok r' =>
              rintro ⟨existing, hall, rfl⟩
              refine ⟨_, .cons hwrites hall, ?_⟩
              cases existed <;> simp
          | error e =>
              rintro ⟨earlier, j, later, y, z, existing, rfl, rfl, hall, hfails⟩
              exact ⟨i :: earlier, j, later, x₁ ++ y, z, _, rfl, (List.append_assoc _ _ _).symm,
                .cons hwrites hall, hfails⟩

/-! ## Stages -/

/-- The stages of a rollout that is under way: they began with the opening of the version, each was
entered from another one, and none is the end. -/
structure UnderWay (stages : List Stage) : Prop where
  first : stages.head? = some .opening
  moves : stages.IsChain (· ≠ ·)
  last : stages.getLast? ≠ some .ready

theorem underWay_opening : UnderWay [.opening] :=
  ⟨rfl, List.isChain_singleton _, by decide⟩

/-- Stages behind which one more is put are no neighbours of themselves when it is another one. -/
theorem isChain_append_singleton {stages : List Stage} {stage : Stage}
    (h : stages.IsChain (· ≠ ·)) (hne : stages.getLast? ≠ some stage) :
    (stages ++ [stage]).IsChain (· ≠ ·) := by
  refine List.isChain_append.2 ⟨h, List.isChain_singleton _, ?_⟩
  intro a ha b hb
  obtain rfl := Option.some.inj hb
  intro hab
  exact hne (hab ▸ ha)

theorem head?_append_singleton {stages : List Stage} {stage first : Stage}
    (h : stages.head? = some first) : (stages ++ [stage]).head? = some first := by
  rw [List.head?_append, h]
  rfl

theorem stageOf_ne_ready (layer : List Item) : stageOf layer ≠ .ready := by
  unfold stageOf
  split
  · decide
  · decide

/-- A layer is entered from another stage or goes on with the last one. -/
theorem UnderWay.enter {stages : List Stage} (h : UnderWay stages) (layer : List Item) :
    UnderWay (enter (stageOf layer) stages) := by
  unfold Rollout.enter
  split
  · exact h
  · next hne =>
    refine ⟨head?_append_singleton h.first, isChain_append_singleton h.moves hne, ?_⟩
    rw [List.getLast?_concat]
    exact fun heq => stageOf_ne_ready layer (Option.some.inj heq)

def HoldsSnippet (layer : List Item) : Prop := ∃ i ∈ layer, ∃ n, i.resource = .snippet n

theorem isLogic_iff {r : Resource} : r.isLogic = true ↔ ∃ n, r = .snippet n := by
  cases r <;> simp [Resource.isLogic, Resource.key]

theorem stageOf_eq_writingLogic_iff {layer : List Item} :
    stageOf layer = .writingLogic ↔ HoldsSnippet layer := by
  unfold stageOf HoldsSnippet
  split
  · next h =>
    obtain ⟨i, hi, hlogic⟩ := List.any_eq_true.1 h
    exact iff_of_true rfl ⟨i, hi, isLogic_iff.1 hlogic⟩
  · next h =>
    refine iff_of_false (by decide) ?_
    rintro ⟨i, hi, hsnippet⟩
    exact h (List.any_eq_true.2 ⟨i, hi, isLogic_iff.2 hsnippet⟩)

theorem stageOf_writingLogic_or_provisioning (layer : List Item) :
    stageOf layer = .writingLogic ∨ stageOf layer = .provisioning := by
  unfold stageOf
  split
  · exact .inl rfl
  · exact .inr rfl

/-! ## All layers -/

/-- The rollout walks through the resources of all layers as if there were no layers. It either
comes to the end, or stops behind the resources before the one that fails. -/
theorem writeLayers_transcribed (p : Platform σ) (done : Report) (hdone : UnderWay done.stages)
    (s : σ) (log : List Exchange) (layers : List (List Item)) :
    ∃ s' x, (writeLayers p.transcribed done (s, log) layers).2 = (s', log ++ x)
      ∧ match (writeLayers p.transcribed done (s, log) layers).1 with
        | .ok r => ∃ existing stages, WritesAll done.version layers.flatten x existing
          ∧ UnderWay stages
          ∧ r = { done with
              written := done.written ++ layers.flatten.map Item.key
              updated := done.updated ++ existing
              stages := stages ++ [.ready] }
        | .error f => ∃ before earlier i later after y z existing e,
          layers = before ++ (earlier ++ i :: later) :: after ∧ x = y ++ z
          ∧ WritesAll done.version (before.flatten ++ earlier) y existing
          ∧ FailsItem done.version i z e
          ∧ f = .call (stageOf (earlier ++ i :: later)) (some done.version) e := by
  induction layers generalizing done s log with
  | nil => exact ⟨s, [], by simp [writeLayers], [], done.stages, .nil, hdone, by simp⟩
  | cons layer rest ih =>
      obtain ⟨s₁, x₁, hlog₁, hlayer⟩ := writeItems_transcribed p
        { done with stages := enter (stageOf layer) done.stages } s log layer
      rw [writeLayers]
      revert hlog₁ hlayer
      rcases writeItems p.transcribed { done with stages := enter (stageOf layer) done.stages }
        (s, log) layer with ⟨result, t₁⟩
      cases result with
      | error e =>
          rintro rfl ⟨earlier, i, later, y, z, existing, rfl, rfl, hall, hfails⟩
          exact ⟨s₁, y ++ z, rfl, [], earlier, i, later, rest, y, z, existing, e, rfl, rfl, hall,
            hfails, rfl⟩
      | ok done₁ =>
          rintro rfl ⟨existing₁, hall₁, rfl⟩
          obtain ⟨s', x, hlog, hrest⟩ := ih { done with
            written := done.written ++ layer.map Item.key
            updated := done.updated ++ existing₁
            stages := enter (stageOf layer) done.stages } (hdone.enter layer) s₁ (log ++ x₁)
          refine ⟨s', x₁ ++ x, hlog.trans (by rw [List.append_assoc]), ?_⟩
          revert hrest
          simp only
          generalize (writeLayers p.transcribed _ (s₁, log ++ x₁) rest).1 = outcome
          cases outcome with
          | ok r =>
              rintro ⟨existing, stages, hall, hstages, rfl⟩
              exact ⟨_, stages, hall₁.append hall, hstages, by simp⟩
          | error f =>
              rintro ⟨before, earlier, i, later, after, y, z, existing, e, rfl, rfl, hall, hfails,
                rfl⟩
              refine ⟨layer :: before, earlier, i, later, after, x₁ ++ y, z, existing₁ ++ existing,
                e, rfl, (List.append_assoc _ _ _).symm, ?_, hfails, rfl⟩
              rw [List.flatten_cons, List.append_assoc]
              exact hall₁.append hall

/-! ## The whole rollout -/

/-- A rollout that came to the end: it opened a version and wrote everything in it. -/
structure Completed (layers : List (List Item)) (t : List Exchange) (r : Report) : Prop where
  walk : ∃ x, t = ⟨.openVersion, .ok r.version⟩ :: x
    ∧ WritesAll r.version layers.flatten x r.updated
  written : r.written = layers.flatten.map Item.key
  first : r.stages.head? = some .opening
  last : r.stages.getLast? = some .ready
  moves : r.stages.IsChain (· ≠ ·)

/-- A rollout that stopped at a failed call, with that failure: the opening of the version, or the
write of a resource behind all resources before it. -/
inductive Stopped (layers : List (List Item)) (t : List Exchange) : RolloutFailure → Prop where
  | opening {e : CallFailure} :
    t = [⟨.openVersion, .error e⟩] → Stopped layers t (.call .opening none e)
  | writing {v : Nat} {before after : List (List Item)} {earlier later : List Item} {i : Item}
    {x y : List Exchange} {existing : List ResourceKey} {stage : Stage} {e : CallFailure} :
    layers = before ++ (earlier ++ i :: later) :: after →
      t = ⟨.openVersion, .ok v⟩ :: (x ++ y) →
      WritesAll v (before.flatten ++ earlier) x existing → FailsItem v i y e →
      (stage = .writingLogic ↔ HoldsSnippet (earlier ++ i :: later)) →
      stage = .writingLogic ∨ stage = .provisioning →
      Stopped layers t (.call stage (some v) e)

theorem WritesItem.not_activate {v : Nat} {i : Item} {x : List Exchange} {existed : Bool}
    (h : WritesItem v i x existed) : ∀ e ∈ x, ∀ w, e.call ≠ .activate w := by
  cases h <;> simp

theorem FailsItem.not_activate {v : Nat} {i : Item} {x : List Exchange} {f : CallFailure}
    (h : FailsItem v i x f) : ∀ e ∈ x, ∀ w, e.call ≠ .activate w := by
  cases h <;> simp

theorem WritesAll.not_activate {v : Nat} {items : List Item} {x : List Exchange}
    {existing : List ResourceKey} (h : WritesAll v items x existing) :
    ∀ e ∈ x, ∀ w, e.call ≠ .activate w := by
  induction h with
  | nil => simp
  | cons hi _ ih => exact fun e he => (List.mem_append.1 he).elim (hi.not_activate e) (ih e)

theorem Completed.not_activate {layers : List (List Item)} {t : List Exchange} {r : Report}
    (h : Completed layers t r) : ∀ e ∈ t, ∀ w, e.call ≠ .activate w := by
  obtain ⟨x, rfl, hall⟩ := h.walk
  intro e he
  rcases List.mem_cons.1 he with rfl | he
  · exact fun w => by simp
  · exact hall.not_activate e he

theorem Stopped.not_activate {layers : List (List Item)} {t : List Exchange} {f : RolloutFailure}
    (h : Stopped layers t f) : ∀ e ∈ t, ∀ w, e.call ≠ .activate w := by
  cases h with
  | opening ht =>
      subst ht
      simp
  | writing _ ht hall hfails =>
      subst ht
      intro e he
      rcases List.mem_cons.1 he with rfl | he
      · exact fun w => by simp
      · exact (List.mem_append.1 he).elim (hall.not_activate e) (hfails.not_activate e)

/-- The outcome of a rollout of layers, told by its transcript. -/
def Walked (layers : List (List Item)) (t : List Exchange) : Except RolloutFailure Report → Prop
  | .ok r => Completed layers t r
  | .error f => Stopped layers t f

theorem walked_of_layers (p : Platform σ) {b : Blueprint} {layers : List (List Item)}
    (h : b.layers = .ok layers) (s : σ) : Walked layers (transcript p b s) (run p b s).1 := by
  have hresult : (run p b s).1 = (run p.transcribed b (s, [])).1 := by rw [run_transcribed]
  rw [hresult, transcript, run, h]
  obtain ⟨⟨r, s₁⟩, hopen⟩ : ∃ a, p.answer .openVersion s = a := ⟨_, rfl⟩
  simp only [Platform.transcribed_answer hopen, List.nil_append]
  cases r with
  | error e => exact .opening rfl
  | ok v =>
      obtain ⟨s', x, hlog, hrest⟩ := writeLayers_transcribed p ⟨v, [], [], [.opening]⟩
        underWay_opening s₁ [⟨.openVersion, .ok v⟩] layers
      simp only [hlog]
      revert hrest
      generalize (writeLayers p.transcribed ⟨v, [], [], [.opening]⟩
        (s₁, [⟨.openVersion, .ok v⟩]) layers).1 = outcome
      cases outcome with
      | ok r =>
          rintro ⟨existing, stages, hall, hstages, rfl⟩
          exact ⟨⟨x, rfl, by simpa using hall⟩, by simp, head?_append_singleton hstages.first,
            List.getLast?_concat, isChain_append_singleton hstages.moves hstages.last⟩
      | error f =>
          rintro ⟨before, earlier, i, later, after, y, z, existing, e, hlayers, rfl, hall, hfails,
            rfl⟩
          exact .writing (x := y) (y := z) hlayers rfl hall hfails stageOf_eq_writingLogic_iff
            (stageOf_writingLogic_or_provisioning _)

/-- A rollout is a flat walk over the resources of its layers. A blueprint without layers ends it
before the first call; otherwise it opens a version and writes one resource after the other, up to
the end or to the first call whose failure counts. It never activates anything. -/
theorem run_walk (p : Platform σ) (b : Blueprint) (s : σ) :
    (match b.layers with
      | .error f => run p b s = (.error (.blueprint f), s) ∧ transcript p b s = []
      | .ok layers => Walked layers (transcript p b s) (run p b s).1)
      ∧ ∀ e ∈ transcript p b s, ∀ v, e.call ≠ .activate v := by
  cases h : b.layers with
  | error f =>
      have hnone : transcript p b s = [] := by rw [transcript, run, h]
      refine ⟨⟨by rw [run, h], hnone⟩, ?_⟩
      rw [hnone]
      simp
  | ok layers =>
      have hwalked := walked_of_layers p h s
      refine ⟨hwalked, ?_⟩
      revert hwalked
      cases (run p b s).1 with
      | ok r => exact Completed.not_activate
      | error f => exact Stopped.not_activate

end EdgeRouting.Rollout
