import EdgeRouting.Logic.Eval
import EdgeRouting.Proofs.Weight.Sums
import EdgeRouting.Selection.Selector

/-!
# Weights in force

The edge table of priorities can be changed while the program that reads it stays the same, so the
weights that decide there are those of the table, with the compiled weights for the targets it has
no entry of. `WeightTable.overlaid` is the table of weights that says the same, and
`Selector.inForce` is the selector with these weights. The two agree: compiling the targets under
the overlaid table gives the selector with the weights in force (`ofTargets_overlaid`).
-/

namespace EdgeRouting

/-- The weight that a text of the edge table denotes. -/
def weightOfText (s : String) : Int64 := clampInt64 (Logic.integerOfText s)

theorem toInt_weightOfText {s : String} (h : FitsWord (Logic.integerOfText s)) :
    (weightOfText s).toInt = Logic.integerOfText s :=
  toInt_clampInt64_of_fits h

/-- The table in which the entries of an edge table count before those of the table itself. -/
def WeightTable.overlaid (t : WeightTable) : List (String × String) → WeightTable
  | [] => t
  | (key, text) :: r => (t.overlaid r).insert key (weightOfText text)

theorem WeightTable.get?_overlaid (t : WeightTable) {content : List (String × String)}
    (hkeys : ∀ e ∈ content, Text.lower e.1 = e.1) (name : String) :
    (t.overlaid content).get? name
      = ((content.lookup (Text.lower name)).map weightOfText).or (t.get? name) := by
  induction content with
  | nil => rfl
  | cons e r ih =>
      obtain ⟨key, text⟩ := e
      have hkey : Text.lower key = key := hkeys (key, text) List.mem_cons_self
      rw [overlaid, get?_insert, hkey, ih fun e he => hkeys e (List.mem_cons_of_mem _ he),
        List.lookup_cons]
      by_cases h : Text.lower name = key
      · simp [h]
      · have hne : (Text.lower name == key) = false := by simpa using h
        simp [h, hne]

namespace Selector

/-- The weight of a contender at the edge: its entry in the edge table, or its own weight. -/
def weightInForce (content : List (String × String)) (c : Contender) : Int64 :=
  ((content.lookup c.key).map weightOfText).getD c.weight

/-- Contenders with other weights, and with the sums of these on top of `acc` as thresholds. -/
def reweigh (weight : Contender → Int64) (acc : Int64) : List Contender → List Contender
  | [] => []
  | c :: r =>
    { c with weight := weight c, threshold := saturatingAdd acc (weight c) }
      :: reweigh weight (saturatingAdd acc (weight c)) r

theorem reweigh_ne_nil {weight : Contender → Int64} {acc : Int64} {l : List Contender}
    (h : l ≠ []) : reweigh weight acc l ≠ [] := by
  cases l with
  | nil => exact absurd rfl h
  | cons c r => simp [reweigh]

/-- The selector with the weights that are in force at the edge. -/
def inForce (p : Selector) (content : List (String × String)) : Selector :=
  { p with
    contenders := reweigh (weightInForce content) 0 p.contenders
    nonempty := reweigh_ne_nil p.nonempty }

/-! ## What other weights leave as it is -/

section Reweigh

variable {weight : Contender → Int64}

/-- Whatever depends on the key, the name and the backend alone is the same for all contenders. -/
theorem map_reweigh {β : Type} {f : Contender → β} (hf : ∀ c w t, f { c with
    weight := w, threshold := t } = f c) (acc : Int64) (l : List Contender) :
    (reweigh weight acc l).map f = l.map f := by
  induction l generalizing acc with
  | nil => rfl
  | cons c r ih => rw [reweigh, List.map_cons, List.map_cons, hf, ih]

theorem map_weight_reweigh (acc : Int64) (l : List Contender) :
    (reweigh weight acc l).map Contender.weight = l.map weight := by
  induction l generalizing acc with
  | nil => rfl
  | cons c r ih => rw [reweigh, List.map_cons, List.map_cons, ih]

theorem exists_of_mem_reweigh {acc : Int64} {l : List Contender} {c : Contender}
    (hc : c ∈ reweigh weight acc l) : ∃ d ∈ l, c.key = d.key ∧ c.weight = weight d := by
  induction l generalizing acc with
  | nil => cases hc
  | cons d r ih =>
      rw [reweigh] at hc
      rcases List.mem_cons.1 hc with rfl | hc
      · exact ⟨d, List.mem_cons_self, rfl, rfl⟩
      · obtain ⟨e, he, heq⟩ := ih hc
        exact ⟨e, List.mem_cons_of_mem _ he, heq⟩

/-- Contenders that have these weights already, with their sums as thresholds, stay the same. -/
theorem reweigh_eq_self {acc : Int64} {l : List Contender} (hw : ∀ c ∈ l, weight c = c.weight)
    (ht : l.map Contender.threshold = runningSums acc (l.map Contender.weight)) :
    reweigh weight acc l = l := by
  induction l generalizing acc with
  | nil => rfl
  | cons c r ih =>
      simp only [List.map_cons, runningSums, List.cons.injEq] at ht
      rw [reweigh, hw c List.mem_cons_self, ← ht.1,
        ih (fun d hd => hw d (List.mem_cons_of_mem _ hd)) (ht.1 ▸ ht.2)]

end Reweigh

/-! ## Exact thresholds -/

/-- Each threshold is the exact sum of the weights so far, on top of `acc`. -/
def ExactThresholds (acc : Int) : List Contender → Prop
  | [] => True
  | c :: r => c.threshold.toInt = acc + c.weight.toInt ∧ ExactThresholds c.threshold.toInt r

theorem exactThresholds_reweigh {weight : Contender → Int64} {acc : Int64} {l : List Contender}
    (h : ∀ n, FitsWord (acc.toInt + exactSum ((l.map weight).take n))) :
    ExactThresholds acc.toInt (reweigh weight acc l) := by
  induction l generalizing acc with
  | nil => trivial
  | cons c r ih =>
      have hfits : FitsWord (acc.toInt + (weight c).toInt) := by
        have := h 1
        simpa [exactSum] using this
      have hsum := toInt_saturatingAdd_of_fits hfits
      simp only [reweigh, ExactThresholds]
      refine ⟨hsum, ?_⟩
      apply ih
      intro n
      have := h (n + 1)
      rw [List.map_cons, List.take_succ_cons, exactSum, ← Int.add_assoc, ← hsum] at this
      exact this

/-! ## Compiling under the overlaid table -/

/-- The contenders of targets with given weights, and with their sums on top of `acc`. -/
def contendersFrom (weight : Target → Int64) (acc : Int64) (targets : List Target) :
    List Contender :=
  contendersOf targets ⟨0, targets.map weight, runningSums acc (targets.map weight)⟩

theorem contendersFrom_cons (weight : Target → Int64) (acc : Int64) (t : Target)
    (r : List Target) :
    contendersFrom weight acc (t :: r)
      = contenderOf t (weight t, saturatingAdd acc (weight t))
        :: contendersFrom weight (saturatingAdd acc (weight t)) r := rfl

theorem map_target_contendersFrom {β : Type} {f : Contender → β} {g : Target → β}
    (hfg : ∀ t shares, f (contenderOf t shares) = g t) (weight : Target → Int64) (acc : Int64)
    (targets : List Target) : (contendersFrom weight acc targets).map f = targets.map g := by
  induction targets generalizing acc with
  | nil => rfl
  | cons t r ih => rw [contendersFrom_cons, List.map_cons, List.map_cons, hfg, ih]

theorem map_weight_contendersFrom (weight : Target → Int64) (acc : Int64)
    (targets : List Target) :
    (contendersFrom weight acc targets).map Contender.weight = targets.map weight := by
  induction targets generalizing acc with
  | nil => rfl
  | cons t r ih =>
      rw [contendersFrom_cons, List.map_cons, List.map_cons, ih]
      rfl

theorem map_threshold_contendersFrom (weight : Target → Int64) (acc : Int64)
    (targets : List Target) :
    (contendersFrom weight acc targets).map Contender.threshold
      = runningSums acc (targets.map weight) := by
  induction targets generalizing acc with
  | nil => rfl
  | cons t r ih =>
      rw [contendersFrom_cons, List.map_cons, List.map_cons, runningSums, ih]
      rfl

theorem reweigh_contendersFrom {weight : Contender → Int64} {v w : Target → Int64}
    {targets : List Target} (h : ∀ t ∈ targets, ∀ sum, weight (contenderOf t (v t, sum)) = w t)
    (acc acc' : Int64) :
    reweigh weight acc' (contendersFrom v acc targets) = contendersFrom w acc' targets := by
  induction targets generalizing acc acc' with
  | nil => rfl
  | cons t r ih =>
      rw [contendersFrom_cons, contendersFrom_cons, reweigh, h t List.mem_cons_self,
        ih fun u hu => h u (List.mem_cons_of_mem _ hu)]
      rfl

/-- What a selector that was compiled is made of. -/
theorem ofTargets_eq_ok {targets : List Target} {table : WeightTable} {lockHeader : String}
    {p : Selector} (h : ofTargets targets table lockHeader = .ok p) :
    WellNamed targets
      ∧ p.contenders
        = contendersFrom (Shares.weightOf table (evenShare targets.length)) 0 targets
      ∧ p.even = evenShare targets.length ∧ p.lockHeader = lockHeader
      ∧ p.fallbackLogic = (targets.head?.map Target.fallbackLogic).getD "" := by
  cases targets with
  | nil => simp [ofTargets] at h
  | cons t r =>
      simp only [ofTargets] at h
      cases hv : verifyNames (t :: r) with
      | error e => simp [hv, bind, Except.bind] at h
      | ok u =>
          simp only [hv, bind, Except.bind, Except.ok.injEq] at h
          subst h
          exact ⟨verifyNames_eq_ok_iff.1 hv, rfl, rfl, rfl, rfl⟩

theorem map_threshold_eq {targets : List Target} {table : WeightTable} {lockHeader : String}
    {p : Selector} (h : ofTargets targets table lockHeader = .ok p) :
    p.contenders.map Contender.threshold = runningSums 0 (p.contenders.map Contender.weight) := by
  obtain ⟨-, hcontenders, -⟩ := ofTargets_eq_ok h
  rw [hcontenders, map_weight_contendersFrom, map_threshold_contendersFrom]

theorem weightInForce_contenderOf {content : List (String × String)}
    (hkeys : ∀ e ∈ content, Text.lower e.1 = e.1) (table : WeightTable) (even : Int64)
    (t : Target) (sum : Int64) :
    weightInForce content (contenderOf t (Shares.weightOf table even t, sum))
      = Shares.weightOf (table.overlaid content) even t := by
  have hget := table.get?_overlaid hkeys t.name
  unfold weightInForce Shares.weightOf contenderOf Target.key
  rw [hget]
  cases content.lookup (Text.lower t.name) <;> rfl

/-- Under the overlaid table the targets compile to the selector with the weights in force. -/
theorem ofTargets_overlaid {targets : List Target} {table : WeightTable} {lockHeader : String}
    {p : Selector} (h : ofTargets targets table lockHeader = .ok p)
    {content : List (String × String)} (hkeys : ∀ e ∈ content, Text.lower e.1 = e.1) :
    ofTargets targets (table.overlaid content) lockHeader = .ok (p.inForce content) := by
  cases targets with
  | nil => simp [ofTargets] at h
  | cons t r =>
      simp only [ofTargets] at h ⊢
      cases hv : verifyNames (t :: r) with
      | error e => simp [hv, bind, Except.bind] at h
      | ok u =>
          simp only [hv, bind, Except.bind, Except.ok.injEq] at h ⊢
          subst h
          have hcontenders := reweigh_contendersFrom
            (fun u (_ : u ∈ t :: r) sum => weightInForce_contenderOf hkeys table
              (evenShare (t :: r).length) u sum) 0 0
          unfold inForce
          congr 1
          exact hcontenders.symm

theorem map_weightInForce {targets : List Target} {table : WeightTable} {lockHeader : String}
    {p : Selector} (h : ofTargets targets table lockHeader = .ok p)
    {content : List (String × String)} (hkeys : ∀ e ∈ content, Text.lower e.1 = e.1) :
    p.contenders.map (weightInForce content)
      = (Shares.ofTargets targets (table.overlaid content)).weights := by
  obtain ⟨-, hcontenders, -⟩ := ofTargets_eq_ok (ofTargets_overlaid h hkeys)
  calc p.contenders.map (weightInForce content)
      = (p.inForce content).contenders.map Contender.weight := (map_weight_reweigh _ _).symm
    _ = targets.map (Shares.weightOf (table.overlaid content) (evenShare targets.length)) := by
      rw [hcontenders, map_weight_contendersFrom]

/-- Where the edge table has the compiled weights, they are the weights in force. -/
theorem inForce_eq_self {targets : List Target} {table : WeightTable} {lockHeader : String}
    {p : Selector} (h : ofTargets targets table lockHeader = .ok p)
    {content : List (String × String)}
    (hagree : ∀ c ∈ p.contenders, ∀ text, content.lookup c.key = some text →
      Logic.integerOfText text = c.weight.toInt) : p.inForce content = p := by
  have hweight : ∀ c ∈ p.contenders, weightInForce content c = c.weight := by
    intro c hc
    unfold weightInForce
    cases hlook : content.lookup c.key with
    | none => rfl
    | some text =>
        have htext := hagree c hc text hlook
        have hfits : FitsWord (Logic.integerOfText text) := htext ▸ fitsWord_toInt c.weight
        exact Int64.toInt_inj.1 ((toInt_weightOfText hfits).trans htext)
  have hself := reweigh_eq_self hweight (map_threshold_eq h)
  unfold inForce
  cases p
  congr

end Selector

end EdgeRouting
