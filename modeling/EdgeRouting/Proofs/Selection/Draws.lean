import EdgeRouting.Proofs.Selection.Thresholds

/-!
# How many draws select a target

While every target is healthy and no override is given, the draw alone decides. A target wins every
draw up to its threshold, so it is selected by those above the threshold of the target before it:
the draws are cut into intervals, one for each target (`index_eq_iff`).

The intervals are counted for weights that are not negative and sum up to a hundred, so that the last
threshold is above every draw. A threshold is itself a draw that selects its target, and draws begin
at zero. That gives the first target one draw more than its weight. Draws end below a hundred, so it
is the last target with any weight that has one draw less (`drawsOf_eq`).
-/

namespace EdgeRouting

/-- The numbers of an interval that are below a bound. -/
theorem countP_range_between {low high : Nat} (h : low ≤ high) (n : Nat) :
    (List.range n).countP (fun d => decide (low ≤ d ∧ d < high)) = min high n - min low n := by
  induction n with
  | zero => simp
  | succ n ih =>
      rw [List.range_succ, List.countP_append, ih, List.countP_singleton]
      by_cases hin : low ≤ n ∧ n < high
      · rw [if_pos (decide_eq_true hin)]
        omega
      · rw [if_neg (by simpa using hin)]
        omega

namespace Selector

variable {p : Selector} {weights : List Int64} {draw : Nat} {health : List Bool}
  {lock : Option String} {i : Nat}

/-- The number of draws that select the target at a position. -/
def drawsOf (p : Selector) (health : List Bool) (lock : Option String) (i : Nat) : Nat :=
  (List.range drawRange).countP fun draw => (p.select ⟨draw, health, lock⟩).index == i

/-! ## Weights and thresholds of a compiled selector -/

theorem map_threshold_contenders {targets : List Target} {table : WeightTable}
    {lockHeader : String} (hp : ofTargets targets table lockHeader = .ok p) :
    p.contenders.map Contender.threshold
      = runningSums 0 (Shares.ofTargets targets table).weights := by
  obtain ⟨-, hcontenders, -⟩ := ofTargets_eq_ok hp
  rw [hcontenders, map_threshold_contendersFrom]
  rfl

section Sums

variable (hsums : p.contenders.map Contender.threshold = runningSums 0 weights)
  (hnonneg : ∀ w ∈ weights, 0 ≤ w.toInt)

include hsums

theorem length_contenders : p.contenders.length = weights.length := by
  rw [← List.length_map Contender.threshold, hsums, length_runningSums]

include hnonneg

/-! ## The interval of a target -/

/-- The interval of a target is above the sum of the weights before it and not above the sum that
includes its own. -/
theorem fallsTo_iff (hdraw : (draw : Int) ≤ maxInt64) (hi : i < weights.length) :
    p.FallsTo draw i ↔ (i = 0 ∨ exactSum (weights.take i) < draw)
      ∧ (draw : Int) ≤ exactSum (weights.take (i + 1)) := by
  have hbound : ∀ {j}, j < weights.length →
      p.bounds[j + 1]? = some (min (exactSum (weights.take (j + 1))) maxInt64) := by
    intro j hj
    rw [← length_contenders hsums] at hj
    rw [getElem?_bounds_succ, List.getElem?_eq_getElem hj, Option.map_some,
      toInt_threshold hsums hnonneg (List.getElem?_eq_getElem hj)]
  constructor
  · rintro ⟨low, high, hlow, hhigh, hbefore, hreach⟩
    obtain rfl := Option.some.inj ((hbound hi).symm.trans hhigh)
    refine ⟨?_, by omega⟩
    cases i with
    | zero => exact .inl rfl
    | succ j =>
        obtain rfl := Option.some.inj ((hbound (Nat.lt_of_succ_lt hi)).symm.trans hlow)
        exact .inr (by omega)
  · rintro ⟨hbefore, hreach⟩
    cases i with
    | zero => exact ⟨-1, _, rfl, hbound hi, by omega, by omega⟩
    | succ j => exact ⟨_, _, hbound (Nat.lt_of_succ_lt hi), hbound hi, by omega, by omega⟩

variable (hhealth : ∀ i < p.contenders.length, healthyAt health i = true)
  (hlock : Selection.tokenOf lock = none)

include hhealth hlock

/-- The target at a position is selected by the draws that are above the sum of the weights before it
and not above the sum that includes its own. -/
theorem index_eq_iff (hdraw : (draw : Int) ≤ maxInt64) (htotal : (draw : Int) ≤ exactSum weights)
    (hi : i < weights.length) :
    (p.select ⟨draw, health, lock⟩).index = i
      ↔ (i = 0 ∨ exactSum (weights.take i) < draw)
        ∧ (draw : Int) ≤ exactSum (weights.take (i + 1)) := by
  have hlast : (draw : Int) ≤ (p.contenders.getLast p.nonempty).threshold.toInt := by
    have hlength := length_contenders hsums
    rw [toInt_threshold hsums hnonneg (getElem?_last_contenders p),
      List.take_of_length_le (by omega)]
    exact Int.le_min.2 ⟨htotal, hdraw⟩
  have hfirst := isFirstWinner_index (fallback_eq_false hhealth hlock hlast)
  rw [← fallsTo_iff hsums hnonneg hdraw hi,
    ← isFirstWinner_iff_fallsTo hsums hnonneg hhealth hlock]
  exact ⟨fun hindex => hindex ▸ hfirst, fun hwinner => hfirst.unique hwinner⟩

/-- The draws of a target when no draw is above the total. -/
theorem drawsOf_eq_sub (htotal : (drawRange : Int) ≤ exactSum weights) (hi : i < weights.length) :
    (p.drawsOf health lock i : Int)
      = min (exactSum (weights.take (i + 1)) + 1) drawRange
        - (if i = 0 then 0 else min (exactSum (weights.take i) + 1) drawRange) := by
  have hmax : (drawRange : Int) ≤ maxInt64 := by decide
  have hlow : 0 ≤ exactSum (weights.take i) :=
    exactSum_nonneg fun w hw => hnonneg w (List.mem_of_mem_take hw)
  have hmono : exactSum (weights.take i) ≤ exactSum (weights.take (i + 1)) :=
    exactSum_take_mono hnonneg (Nat.le_succ i)
  have hcount : p.drawsOf health lock i = (List.range drawRange).countP fun d =>
      decide ((if i = 0 then 0 else (exactSum (weights.take i) + 1).toNat) ≤ d
        ∧ d < (exactSum (weights.take (i + 1)) + 1).toNat) := by
    refine List.countP_congr fun draw hdraw => ?_
    have hlt := List.mem_range.1 hdraw
    rw [beq_iff_eq, decide_eq_true_iff,
      index_eq_iff hsums hnonneg hhealth hlock (by omega) (by omega) hi]
    by_cases hfirst : i = 0
    · rw [if_pos hfirst]
      omega
    · rw [if_neg hfirst]
      omega
  rw [hcount, countP_range_between (by split <;> omega)]
  split <;> omega

end Sums

/-! ## Weights that sum up to a hundred -/

/-- The last position with any weight. -/
def IsLastWeight (weights : List Int64) (i : Nat) : Prop :=
  weights.getD i 0 ≠ 0 ∧ ∀ w ∈ weights.drop (i + 1), w = 0

-- The weights of the list are tried one by one. Left to itself the search for an instance may find
-- one that tries all words.
instance (weights : List Int64) (i : Nat) : Decidable (IsLastWeight weights i) :=
  @instDecidableAnd _ _ inferInstance (List.decidableBAll _ _)

theorem isLastWeight_iff {w : Int64} (hnonneg : ∀ w ∈ weights, 0 ≤ w.toInt)
    (hw : weights[i]? = some w) : IsLastWeight weights i
      ↔ 0 < w.toInt ∧ exactSum (weights.take (i + 1)) = exactSum weights := by
  have hsplit := exactSum_eq_take_add_drop weights (i + 1)
  have hpos := hnonneg w (List.mem_of_getElem? hw)
  rw [IsLastWeight, ← exactSum_eq_zero_iff fun v hv => hnonneg v (List.mem_of_mem_drop hv),
    List.getD_eq_getElem?_getD, hw, Option.getD_some, ne_eq,
    eq_zero_iff_toInt]
  omega

/-- With weights that sum up to a hundred each target is selected by as many draws as its weight
says, except that the first target has one more and the last one with any weight has one less. -/
theorem drawsOf_eq {targets : List Target} {table : WeightTable} {lockHeader : String}
    (hp : ofTargets targets table lockHeader = .ok p)
    (hweights : (Shares.ofTargets targets table).weights = weights)
    (hnonneg : ∀ w ∈ weights, 0 ≤ w.toInt) (htotal : exactSum weights = 100)
    (hhealth : ∀ i < targets.length, healthyAt health i = true)
    (hlock : Selection.tokenOf lock = none) {w : Int64} (hw : weights[i]? = some w) :
    (p.drawsOf health lock i : Int)
      = w.toInt + (if i = 0 then 1 else 0) - (if IsLastWeight weights i then 1 else 0) := by
  subst hweights
  have hsums := map_threshold_contenders hp
  have hlength : p.contenders.length = targets.length :=
    (length_contenders hsums).trans (List.length_map _)
  have hrange : (drawRange : Int) = 100 := rfl
  rw [drawsOf_eq_sub hsums hnonneg (hlength ▸ hhealth) hlock (by omega)
    (List.getElem?_eq_some_iff.1 hw).1, hrange]
  have hsucc := exactSum_take_succ hw
  have hlast := isLastWeight_iff hnonneg hw
  have hpos := hnonneg w (List.mem_of_getElem? hw)
  have hlow := exactSum_nonneg fun v hv => hnonneg v (List.mem_of_mem_take (i := i) hv)
  have hhigh := exactSum_nonneg fun v hv => hnonneg v (List.mem_of_mem_drop (i := i + 1) hv)
  have hsplit := exactSum_eq_take_add_drop (Shares.ofTargets targets table).weights (i + 1)
  have hfirst : i = 0 → exactSum ((Shares.ofTargets targets table).weights.take i) = 0 := by
    rintro rfl
    rfl
  by_cases h : IsLastWeight (Shares.ofTargets targets table).weights i
  · rw [if_pos h]
    have := hlast.1 h
    split <;> omega
  · rw [if_neg h]
    have := mt hlast.2 h
    split <;> omega

/-! ### Targets without any weight

A drained target at the end of the list gets no draw, and the one before it has the last weight. At
the beginning of the list a drained target still gets the draw of zero. -/

def trioTable : WeightTable :=
  ((WeightTable.empty.insert "blue" 20).insert "Green" 80).insert "old" 0

def trioSelector : Selector :=
  ⟨[⟨"Blue", "blue", "F_Blue", 20, 20⟩, ⟨"green", "green", "F_green", 80, 100⟩,
      ⟨"Old", "old", "F_Old", 0, 100⟩], 33, "", "X-Pin", by simp⟩

theorem drawsOf_trio :
    ofTargets trio trioTable "X-Pin" = .ok trioSelector
      ∧ (trioSelector.drawsOf [true, true, true] (some "env=&x=1") 0 : Int) = 21
      ∧ (trioSelector.drawsOf [true, true, true] (some "env=&x=1") 1 : Int) = 79
      ∧ (trioSelector.drawsOf [true, true, true] (some "env=&x=1") 2 : Int) = 0 := by
  have hp : ofTargets trio trioTable "X-Pin" = .ok trioSelector := rfl
  have hweights : (Shares.ofTargets trio trioTable).weights = [20, 80, 0] := rfl
  have hnonneg : ∀ w ∈ [(20 : Int64), 80, 0], 0 ≤ w.toInt :=
    List.forall_mem_cons.2 ⟨by decide, List.forall_mem_cons.2 ⟨by decide,
      List.forall_mem_singleton.2 (by decide)⟩⟩
  have htotal : exactSum [20, 80, 0] = 100 := by decide
  have hhealth : ∀ i < trio.length, healthyAt [true, true, true] i = true := by decide
  have hlock : Selection.tokenOf (some "env=&x=1") = none := by decide
  exact ⟨hp, drawsOf_eq (w := 20) hp hweights hnonneg htotal hhealth hlock rfl,
    drawsOf_eq (w := 80) hp hweights hnonneg htotal hhealth hlock rfl,
    drawsOf_eq (w := 0) hp hweights hnonneg htotal hhealth hlock rfl⟩

def drainedTable : WeightTable := (WeightTable.empty.insert "blue" 0).insert "green" 100

def drainedSelector : Selector :=
  ⟨[⟨"Blue", "blue", "F_Blue", 0, 0⟩, ⟨"green", "green", "F_green", 100, 100⟩], 50, "", "X-Pin",
    by simp⟩

/-- The first of two targets has no weight and is selected by one draw. -/
theorem drawsOf_drained :
    ofTargets (trio.take 2) drainedTable "X-Pin" = .ok drainedSelector
      ∧ (Shares.ofTargets (trio.take 2) drainedTable).weights = [0, 100]
      ∧ exactSum [0, 100] = 100
      ∧ (∀ i < (trio.take 2).length, healthyAt [true, true] i = true)
      ∧ drainedSelector.select ⟨0, [true, true], none⟩ = ⟨0, "Blue", "1 1", false⟩
      ∧ drainedSelector.drawsOf [true, true] none 0 = 1
      ∧ drainedSelector.drawsOf [true, true] none 1 = 99 := by
  refine ⟨rfl, rfl, by decide, by decide, by decide, by decide +kernel, by decide +kernel⟩

end Selector

end EdgeRouting
