import EdgeRouting.Proofs.Selection.InForce
import EdgeRouting.Proofs.Selection.Winner

/-!
# Thresholds and draws

Without an override a target wins every draw up to its threshold, as long as it is healthy.

While no weight is negative, thresholds never decrease, not even where they have reached the end of
the range, and so they cut the draws into consecutive intervals, some of them empty. With every
target healthy, the target that a draw selects is the one whose interval it falls into
(`isFirstWinner_iff_fallsTo`).

A negative weight makes a threshold smaller than the one before it, so that every draw which its
target could win could be won by the target before it (`Reaches.before_negative`). So the target
wins only where that one is unhealthy.
-/

namespace EdgeRouting

namespace Selector

variable {p : Selector} {weights : List Int64} {draw : Nat} {health : List Bool}
  {lock : Option String} {i j : Nat} {c : Contender} {low high : Int}

/-- The bounds between the intervals of the targets: the thresholds, behind a bound that is below
all draws. -/
def bounds (p : Selector) : List Int := -1 :: p.contenders.map fun c => c.threshold.toInt

/-- A draw is in the interval of a target: above the threshold before and not above its own. -/
def FallsTo (p : Selector) (draw i : Nat) : Prop :=
  ∃ low high, p.bounds[i]? = some low ∧ p.bounds[i + 1]? = some high
    ∧ low < draw ∧ (draw : Int) ≤ high

/-- A draw is not above the threshold of a target, so that it can win it. -/
def Reaches (p : Selector) (draw i : Nat) : Prop :=
  ∃ c, p.contenders[i]? = some c ∧ (draw : Int) ≤ c.threshold.toInt

/-! ## Bounds -/

theorem getElem?_bounds_succ (p : Selector) (i : Nat) :
    p.bounds[i + 1]? = p.contenders[i]?.map fun c => c.threshold.toInt := by
  rw [bounds, List.getElem?_cons_succ, List.getElem?_map]

theorem reaches_iff :
    p.Reaches draw i ↔ ∃ high, p.bounds[i + 1]? = some high ∧ (draw : Int) ≤ high := by
  rw [getElem?_bounds_succ]
  constructor
  · rintro ⟨c, hc, hdraw⟩
    exact ⟨_, by rw [hc, Option.map_some], hdraw⟩
  · rintro ⟨high, hhigh, hdraw⟩
    obtain ⟨c, hc, rfl⟩ := Option.map_eq_some_iff.1 hhigh
    exact ⟨c, hc, hdraw⟩

theorem getElem?_last_contenders (p : Selector) :
    p.contenders[p.contenders.length - 1]? = some (p.contenders.getLast p.nonempty) := by
  rw [← List.getLast?_eq_getElem?, List.getLast?_eq_some_getLast p.nonempty]

/-- The last bound is the last threshold. -/
theorem getElem?_length_bounds (p : Selector) :
    p.bounds[p.contenders.length]? = some (p.contenders.getLast p.nonempty).threshold.toInt := by
  have hpos := List.length_pos_iff.2 p.nonempty
  rw [← Nat.sub_add_cancel hpos, getElem?_bounds_succ, getElem?_last_contenders, Option.map_some]

theorem getElem?_runningSums
    (hsums : p.contenders.map Contender.threshold = runningSums 0 weights)
    (hc : p.contenders[i]? = some c) : (runningSums 0 weights)[i]? = some c.threshold := by
  rw [← hsums, List.getElem?_map, hc, Option.map_some]

theorem winsAt_iff_reaches (hlock : Selection.tokenOf lock = none) :
    p.WinsAt ⟨draw, health, lock⟩ i ↔ p.Reaches draw i ∧ healthyAt health i = true := by
  rw [winsAt_iff_of_no_token hlock]
  constructor
  · rintro ⟨c, hc, hdraw, hhealth⟩
    exact ⟨⟨c, hc, hdraw⟩, hhealth⟩
  · rintro ⟨⟨c, hc, hdraw⟩, hhealth⟩
    exact ⟨c, hc, hdraw, hhealth⟩

theorem isFirstWinner_iff_reaches (hlock : Selection.tokenOf lock = none) :
    p.IsFirstWinner ⟨draw, health, lock⟩ i
      ↔ (p.Reaches draw i ∧ healthyAt health i = true)
        ∧ ∀ k < i, p.Reaches draw k → healthyAt health k = false := by
  constructor
  · rintro ⟨hwinner, hfirst⟩
    refine ⟨(winsAt_iff_reaches hlock).1 hwinner, fun k hk hreach => Bool.eq_false_iff.2 ?_⟩
    exact fun hhealth => hfirst k hk ((winsAt_iff_reaches hlock).2 ⟨hreach, hhealth⟩)
  · rintro ⟨hwinner, hbefore⟩
    refine ⟨(winsAt_iff_reaches hlock).2 hwinner, fun k hk hwins => ?_⟩
    obtain ⟨hreach, hhealth⟩ := (winsAt_iff_reaches hlock).1 hwins
    exact Bool.eq_false_iff.1 (hbefore k hk hreach) hhealth

/-! ## Intervals -/

section Intervals

variable (hsums : p.contenders.map Contender.threshold = runningSums 0 weights)
  (hnonneg : ∀ w ∈ weights, 0 ≤ w.toInt)

include hsums hnonneg

/-- A threshold is the sum of the weights up to it, or the end of the range if that is less. -/
theorem toInt_threshold (hc : p.contenders[i]? = some c) :
    c.threshold.toInt = min (exactSum (weights.take (i + 1))) maxInt64 := by
  rw [toInt_getElem?_runningSums (by decide) hnonneg (getElem?_runningSums hsums hc),
    Int64.toInt_zero, Int.zero_add]

theorem pairwise_bounds : p.bounds.Pairwise (· ≤ ·) := by
  rw [bounds, List.pairwise_cons, List.pairwise_map, List.pairwise_iff_getElem]
  constructor
  · intro bound hbound
    obtain ⟨c, hc, rfl⟩ := List.mem_map.1 hbound
    obtain ⟨i, hi⟩ := List.mem_iff_getElem?.1 hc
    have hsum := exactSum_nonneg fun w hw => hnonneg w (List.mem_of_mem_take (i := i + 1) hw)
    have hmax : (0 : Int) ≤ maxInt64 := by decide
    have hthreshold := toInt_threshold hsums hnonneg hi
    omega
  · intro i j hi hj hij
    have hmono := exactSum_take_mono hnonneg (Nat.add_le_add_right (Nat.le_of_lt hij) 1)
    have hfirst := toInt_threshold hsums hnonneg (List.getElem?_eq_getElem hi)
    have hsecond := toInt_threshold hsums hnonneg (List.getElem?_eq_getElem hj)
    omega

theorem le_of_getElem?_bounds (hij : i ≤ j) (hlow : p.bounds[i]? = some low)
    (hhigh : p.bounds[j]? = some high) : low ≤ high := by
  obtain ⟨hi, rfl⟩ := List.getElem?_eq_some_iff.1 hlow
  obtain ⟨hj, rfl⟩ := List.getElem?_eq_some_iff.1 hhigh
  rcases Nat.eq_or_lt_of_le hij with rfl | hlt
  · exact Int.le_refl _
  · exact List.pairwise_iff_getElem.1 (pairwise_bounds hsums hnonneg) i j hi hj hlt

variable (hhealth : ∀ i < p.contenders.length, healthyAt health i = true)
  (hlock : Selection.tokenOf lock = none)

include hhealth hlock

omit hsums hnonneg in
theorem winsAt_iff_of_healthy : p.WinsAt ⟨draw, health, lock⟩ i ↔ p.Reaches draw i := by
  rw [winsAt_iff_reaches hlock, and_iff_left_iff_imp]
  rintro ⟨c, hc, -⟩
  exact hhealth i (List.getElem?_eq_some_iff.1 hc).1

omit hsums hnonneg in
/-- The last target wins what nobody before it has won, up to the last threshold. -/
theorem fallback_eq_false
    (hdraw : (draw : Int) ≤ (p.contenders.getLast p.nonempty).threshold.toInt) :
    (p.select ⟨draw, health, lock⟩).fallback = false := by
  have hpos := List.length_pos_iff.2 p.nonempty
  refine Bool.eq_false_iff.2 fun hnone => ?_
  refine fallback_eq_true_iff.1 hnone (p.contenders.length - 1) ?_
  rw [winsAt_iff_of_healthy hhealth hlock, reaches_iff, Nat.sub_add_cancel hpos]
  exact ⟨_, getElem?_length_bounds p, hdraw⟩

/-- The first of the thresholds that reach a draw is the one whose interval it is in. -/
theorem isFirstWinner_iff_fallsTo :
    p.IsFirstWinner ⟨draw, health, lock⟩ i ↔ p.FallsTo draw i := by
  have hwins : ∀ {j}, p.WinsAt ⟨draw, health, lock⟩ j
      ↔ ∃ high, p.bounds[j + 1]? = some high ∧ (draw : Int) ≤ high :=
    (winsAt_iff_of_healthy hhealth hlock).trans reaches_iff
  constructor
  · rintro ⟨hwinner, hfirst⟩
    obtain ⟨high, hhigh, hdraw⟩ := hwins.1 hwinner
    have hi : i < p.bounds.length := Nat.lt_of_succ_lt (List.getElem?_eq_some_iff.1 hhigh).1
    refine ⟨p.bounds[i], high, List.getElem?_eq_getElem hi, hhigh, ?_, hdraw⟩
    cases i with
    | zero =>
        show (-1 : Int) < draw
        omega
    | succ j =>
        refine Int.not_le.1 fun hle => hfirst j (Nat.lt_succ_self j) ?_
        exact hwins.2 ⟨_, List.getElem?_eq_getElem hi, hle⟩
  · rintro ⟨low, high, hlow, hhigh, hbefore, hdraw⟩
    refine ⟨hwins.2 ⟨high, hhigh, hdraw⟩, fun j hj hwinner => ?_⟩
    obtain ⟨bound, hbound, hreach⟩ := hwins.1 hwinner
    have hle := le_of_getElem?_bounds hsums hnonneg (Nat.succ_le_of_lt hj) hbound hlow
    exact absurd (Int.le_trans hreach hle) (Int.not_le.2 hbefore)

end Intervals

/-- With weights that are not negative and all targets healthy, a draw up to the last threshold
selects the one target in whose interval it is, and a draw beyond is left to the fallback. Each
threshold is the sum of the weights so far, or the end of the range once that is exceeded. -/
theorem select_fallsTo {targets : List Target} {table : WeightTable} {lockHeader : String}
    (hp : ofTargets targets table lockHeader = .ok p)
    (hnonneg : ∀ c ∈ p.contenders, 0 ≤ c.weight.toInt)
    (hhealth : ∀ i < p.contenders.length, healthyAt health i = true)
    (hlock : Selection.tokenOf lock = none) (draw : Nat) :
    ((draw : Int) ≤ (p.contenders.getLast p.nonempty).threshold.toInt →
        ∃ i c, p.contenders[i]? = some c ∧ (∀ j, p.FallsTo draw j ↔ j = i)
          ∧ p.select ⟨draw, health, lock⟩
            = ⟨i, c.name, healthSnapshot p.contenders.length health, false⟩)
      ∧ ((p.contenders.getLast p.nonempty).threshold.toInt < draw →
        p.select ⟨draw, health, lock⟩ = ⟨0, (p.contenders.head p.nonempty).name,
          healthSnapshot p.contenders.length health, true⟩)
      ∧ p.bounds.Pairwise (· ≤ ·)
      ∧ ∀ i c, p.contenders[i]? = some c → c.threshold.toInt
        = min (exactSum ((p.contenders.map Contender.weight).take (i + 1))) maxInt64 := by
  have hsums := map_threshold_eq hp
  have hweights : ∀ w ∈ p.contenders.map Contender.weight, 0 ≤ w.toInt := by
    simpa using hnonneg
  refine ⟨fun hdraw => ?_, fun hdraw => ?_, pairwise_bounds hsums hweights,
    fun i c hc => toInt_threshold hsums hweights hc⟩
  · have hfirst := isFirstWinner_index (fallback_eq_false hhealth hlock hdraw)
    obtain ⟨c, hc, -⟩ := hfirst.wins
    refine ⟨_, c, hc, fun j => ?_, select_of_isFirstWinner hfirst hc⟩
    rw [← isFirstWinner_iff_fallsTo hsums hweights hhealth hlock]
    exact ⟨fun hj => hj.unique hfirst, fun hj => hj ▸ hfirst⟩
  · refine select_of_forall_not_winsAt fun i hwinner => ?_
    obtain ⟨high, hhigh, hreach⟩ := reaches_iff.1 ((winsAt_iff_of_healthy hhealth hlock).1 hwinner)
    have hi : i + 1 < p.bounds.length := (List.getElem?_eq_some_iff.1 hhigh).1
    rw [bounds, List.length_cons, List.length_map] at hi
    have hle := le_of_getElem?_bounds hsums hweights (Nat.le_of_lt_succ hi) hhigh
      (getElem?_length_bounds p)
    exact absurd (Int.le_trans hreach hle) (Int.not_le.2 hdraw)

/-! ### Intervals that are empty

The second weight takes the thresholds to the end of the range, and nothing is left to the third. -/

def steepSelector : Selector :=
  ⟨[⟨"Blue", "blue", "F_Blue", 20, 20⟩,
      ⟨"green", "green", "F_green", 9223372036854775807, 9223372036854775807⟩,
      ⟨"Old", "old", "F_Old", 7, 9223372036854775807⟩], 33, "", "X-Pin", by simp⟩

theorem select_steep :
    ofTargets trio (((WeightTable.empty.insert "Blue" 20).insert "green" 9223372036854775807).insert
        "old" 7) "X-Pin" = .ok steepSelector
      ∧ (∀ j, steepSelector.FallsTo 21 j ↔ j = 1)
      ∧ steepSelector.select ⟨21, [true, true, true], some "x=1"⟩ = ⟨1, "green", "1 1 1", false⟩ := by
  have hp : ofTargets trio (((WeightTable.empty.insert "Blue" 20).insert "green"
      9223372036854775807).insert "old" 7) "X-Pin" = .ok steepSelector := rfl
  have hhealth : ∀ i < steepSelector.contenders.length, healthyAt [true, true, true] i = true := by
    decide
  have hlock : Selection.tokenOf (some "x=1") = none := by decide
  obtain ⟨i, c, hc, honly, hselect⟩ :=
    (select_fallsTo hp (by decide) hhealth hlock 21).1 (by decide)
  have hfalls : steepSelector.FallsTo 21 1 := ⟨20, maxInt64, rfl, rfl, by decide, by decide⟩
  obtain rfl := (honly 1).1 hfalls
  obtain rfl := Option.some.inj hc
  exact ⟨hp, honly, hselect⟩

/-! ## Negative weights -/

/-- A negative weight leaves no room between its threshold and the bound before it. -/
theorem threshold_le_of_negative
    (hsums : p.contenders.map Contender.threshold = runningSums 0 (p.contenders.map Contender.weight))
    (hc : p.contenders[i]? = some c) (hneg : c.weight.toInt < 0) :
    ∃ low, p.bounds[i]? = some low ∧ c.threshold.toInt ≤ low := by
  have hthreshold := getElem?_runningSums hsums hc
  have hweight : (p.contenders.map Contender.weight)[i]? = some c.weight := by
    rw [List.getElem?_map, hc, Option.map_some]
  cases i with
  | zero =>
      refine ⟨-1, rfl, ?_⟩
      have hsum := Option.some.inj (hthreshold.symm.trans (getElem?_zero_runningSums hweight))
      have hexact : (saturatingAdd 0 c.weight).toInt = c.weight.toInt := by
        rw [toInt_saturatingAdd_of_fits] <;> rw [Int64.toInt_zero, Int.zero_add]
        exact fitsWord_toInt c.weight
      rw [hsum, hexact]
      exact Int.le_of_lt_add_one hneg
  | succ j =>
      have hj : j < p.contenders.length := Nat.lt_of_succ_lt (List.getElem?_eq_some_iff.1 hc).1
      have hd := List.getElem?_eq_getElem hj
      have hsum := Option.some.inj (hthreshold.symm.trans
        (getElem?_succ_runningSums (getElem?_runningSums hsums hd) hweight))
      refine ⟨_, by rw [getElem?_bounds_succ, hd, Option.map_some], ?_⟩
      rw [hsum]
      exact toInt_saturatingAdd_le (Int.le_of_lt hneg)

/-- A draw that could be won with a negative weight could be won by the target right before. -/
theorem Reaches.before_negative
    (hsums : p.contenders.map Contender.threshold = runningSums 0 (p.contenders.map Contender.weight))
    (hc : p.contenders[i]? = some c) (hneg : c.weight.toInt < 0) (h : p.Reaches draw i) :
    ∃ j, i = j + 1 ∧ p.Reaches draw j := by
  obtain ⟨low, hlow, hle⟩ := threshold_le_of_negative hsums hc hneg
  obtain ⟨d, hd, hdraw⟩ := h
  obtain rfl := Option.some.inj (hc.symm.trans hd)
  have hbelow := Int.le_trans hdraw hle
  cases i with
  | zero =>
      obtain rfl := Option.some.inj hlow
      omega
  | succ j => exact ⟨j, rfl, reaches_iff.2 ⟨low, hlow, hbelow⟩⟩

/-- A target with a negative weight wins those draws up to its threshold for which the target right
before it is unhealthy, and so is every earlier one that the draw does not pass by. -/
theorem select_negative_iff {targets : List Target} {table : WeightTable} {lockHeader : String}
    (hp : ofTargets targets table lockHeader = .ok p) (hc : p.contenders[i]? = some c)
    (hneg : c.weight.toInt < 0) (hlock : Selection.tokenOf lock = none) (draw : Nat)
    (health : List Bool) :
    (p.select ⟨draw, health, lock⟩).fallback = false ∧ (p.select ⟨draw, health, lock⟩).index = i
      ↔ p.Reaches draw i ∧ healthyAt health i = true
        ∧ ∃ j, i = j + 1 ∧ healthyAt health j = false
          ∧ ∀ k < j, p.Reaches draw k → healthyAt health k = false := by
  rw [← isFirstWinner_iff, isFirstWinner_iff_reaches hlock]
  constructor
  · rintro ⟨⟨hreach, hhealth⟩, hunhealthy⟩
    obtain ⟨j, rfl, hj⟩ := hreach.before_negative (map_threshold_eq hp) hc hneg
    exact ⟨hreach, hhealth, j, rfl, hunhealthy j (Nat.lt_succ_self j) hj,
      fun k hk => hunhealthy k (Nat.lt_succ_of_lt hk)⟩
  · rintro ⟨hreach, hhealth, j, rfl, hj, hbefore⟩
    refine ⟨⟨hreach, hhealth⟩, fun k hk hkreach => ?_⟩
    rcases Nat.eq_or_lt_of_le (Nat.le_of_lt_succ hk) with rfl | hlt
    · exact hj
    · exact hbefore k hlt hkreach

/-- The draw is up to all thresholds, and the first target is unhealthy. -/
theorem select_uneven_negative :
    ofTargets trio unevenTable "X-Pin" = .ok unevenSelector
      ∧ (unevenSelector.select ⟨10, [false, true, true], some "x=1"⟩).index = 1 := by
  have hp : ofTargets trio unevenTable "X-Pin" = .ok unevenSelector := rfl
  have hlock : Selection.tokenOf (some "x=1") = none := by decide
  have hreach : unevenSelector.Reaches 10 1 := ⟨_, rfl, by decide⟩
  have hnobody : ∀ k < 0, unevenSelector.Reaches 10 k → healthyAt [false, true, true] k = false :=
    fun k hk => absurd hk (Nat.not_lt_zero k)
  have hwins := (select_negative_iff hp (i := 1) rfl (by decide) hlock 10 [false, true, true]).2
    ⟨hreach, by decide, 0, rfl, by decide, hnobody⟩
  exact ⟨hp, hwins.2⟩

/-- So a negative weight can win, with no override and a draw below one hundred. -/
theorem select_negative_behind_unhealthy :
    ∃ p : Selector, ofTargets (trio.take 2) ((WeightTable.empty.insert "Blue" 50).insert "green" (-10))
        "X-Pin" = .ok p
      ∧ ∃ c ∈ p.contenders, c.weight.toInt < 0 ∧ Selection.tokenOf none = none
        ∧ p.select ⟨10, [false, true], none⟩ = ⟨1, c.name, "0 1", false⟩ := by
  refine ⟨_, rfl, ⟨"green", "green", "F_green", -10, 40⟩, ?_, by decide, by decide, by decide⟩
  exact List.mem_cons_of_mem _ List.mem_cons_self

end Selector

end EdgeRouting
