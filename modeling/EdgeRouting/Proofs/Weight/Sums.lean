import EdgeRouting.Weight.Shares

/-!
# Exact sums of weights

Thresholds are sums that stay at the ends of the range of words. As long as no exact sum of the
weights up to one of them leaves that range, saturation never happens and each threshold is the
exact sum (`toInt_saturatingAdd_of_fits` is the one step of that argument).
-/

namespace EdgeRouting

def FitsWord (n : Int) : Prop := minInt64 ≤ n ∧ n ≤ maxInt64

instance (n : Int) : Decidable (FitsWord n) := inferInstanceAs (Decidable (_ ∧ _))

/-- The sum of weights without regard to the range of words. -/
def exactSum : List Int64 → Int
  | [] => 0
  | w :: r => w.toInt + exactSum r

/-- No sum of the weights up to one of them leaves the range of words. -/
def PrefixSumsFit (weights : List Int64) : Prop := ∀ n, FitsWord (exactSum (weights.take n))

theorem toInt_clampInt64_of_fits {n : Int} (h : FitsWord n) : (clampInt64 n).toInt = n := by
  obtain ⟨hlow, hhigh⟩ := h
  rw [toInt_clampInt64]
  omega

theorem toInt_saturatingAdd_of_fits {a b : Int64} (h : FitsWord (a.toInt + b.toInt)) :
    (saturatingAdd a b).toInt = a.toInt + b.toInt :=
  toInt_clampInt64_of_fits h

theorem fitsWord_toInt (w : Int64) : FitsWord w.toInt := by
  have hlow := w.le_toInt
  have hhigh := w.toInt_lt
  constructor
  · unfold minInt64
    omega
  · unfold maxInt64
    omega

/-! ## From one sum to the next -/

theorem getElem?_zero_runningSums {acc w : Int64} {l : List Int64} (h : l[0]? = some w) :
    (runningSums acc l)[0]? = some (saturatingAdd acc w) := by
  cases l with
  | nil => cases h
  | cons v r =>
      obtain rfl := Option.some.inj h
      rfl

theorem getElem?_succ_runningSums {acc w sum : Int64} {l : List Int64} {i : Nat}
    (hsum : (runningSums acc l)[i]? = some sum) (h : l[i + 1]? = some w) :
    (runningSums acc l)[i + 1]? = some (saturatingAdd sum w) := by
  induction l generalizing acc i with
  | nil => cases h
  | cons v r ih =>
      rw [runningSums] at hsum ⊢
      rw [List.getElem?_cons_succ] at h ⊢
      cases i with
      | zero =>
          obtain rfl := Option.some.inj hsum
          exact getElem?_zero_runningSums h
      | succ i => exact ih hsum h

theorem toInt_saturatingAdd_le {a w : Int64} (h : w.toInt ≤ 0) :
    (saturatingAdd a w).toInt ≤ a.toInt := by
  obtain ⟨hlow, -⟩ := fitsWord_toInt a
  rw [toInt_saturatingAdd]
  omega

/-! ## Sums of weights that are not negative -/

theorem exactSum_take_succ {l : List Int64} {i : Nat} {w : Int64} (h : l[i]? = some w) :
    exactSum (l.take (i + 1)) = exactSum (l.take i) + w.toInt := by
  induction l generalizing i with
  | nil => simp at h
  | cons v r ih =>
      cases i with
      | zero =>
          obtain rfl := Option.some.inj h
          simp [exactSum]
      | succ i =>
          rw [List.take_succ_cons, List.take_succ_cons, exactSum, exactSum, ih h, Int.add_assoc]

theorem exactSum_nonneg {l : List Int64} (h : ∀ w ∈ l, 0 ≤ w.toInt) : 0 ≤ exactSum l := by
  induction l with
  | nil => exact Int.le_refl 0
  | cons w r ih =>
      exact Int.add_nonneg (h w List.mem_cons_self) (ih fun v hv => h v (List.mem_cons_of_mem _ hv))

theorem exactSum_eq_take_add_drop (l : List Int64) (n : Nat) :
    exactSum l = exactSum (l.take n) + exactSum (l.drop n) := by
  induction l generalizing n with
  | nil => simp [exactSum]
  | cons w r ih =>
      cases n with
      | zero => simp [exactSum]
      | succ n => rw [List.take_succ_cons, List.drop_succ_cons, exactSum, exactSum, ih n,
          Int.add_assoc]

/-- The sums up to a position never decrease. -/
theorem exactSum_take_mono {l : List Int64} (h : ∀ w ∈ l, 0 ≤ w.toInt) {m n : Nat} (hmn : m ≤ n) :
    exactSum (l.take m) ≤ exactSum (l.take n) := by
  have hsplit := exactSum_eq_take_add_drop (l.take n) m
  rw [List.take_take, Nat.min_eq_left hmn] at hsplit
  have hrest : 0 ≤ exactSum ((l.take n).drop m) :=
    exactSum_nonneg fun w hw => h w (List.mem_of_mem_take (List.mem_of_mem_drop hw))
  omega

theorem eq_zero_iff_toInt {w : Int64} : w = 0 ↔ w.toInt = 0 := by
  rw [← Int64.toInt_inj, Int64.toInt_zero]

theorem exactSum_eq_zero_iff {l : List Int64} (h : ∀ w ∈ l, 0 ≤ w.toInt) :
    exactSum l = 0 ↔ ∀ w ∈ l, w = 0 := by
  induction l with
  | nil => simp [exactSum]
  | cons w r ih =>
      have hw := h w List.mem_cons_self
      have hr : ∀ v ∈ r, 0 ≤ v.toInt := fun v hv => h v (List.mem_cons_of_mem _ hv)
      have hsum := exactSum_nonneg hr
      rw [exactSum, List.forall_mem_cons, ← ih hr, eq_zero_iff_toInt]
      omega

/-- Sums of weights that are not negative leave the range at its upper end only, and stay there. -/
theorem toInt_getElem?_runningSums {acc : Int64} {l : List Int64} {i : Nat} {sum : Int64}
    (hacc : 0 ≤ acc.toInt) (hl : ∀ w ∈ l, 0 ≤ w.toInt) (h : (runningSums acc l)[i]? = some sum) :
    sum.toInt = min (acc.toInt + exactSum (l.take (i + 1))) maxInt64 := by
  induction l generalizing acc i with
  | nil => simp [runningSums] at h
  | cons w r ih =>
      have hw := hl w List.mem_cons_self
      have hr : ∀ v ∈ r, 0 ≤ v.toInt := fun v hv => hl v (List.mem_cons_of_mem _ hv)
      have hstep : (saturatingAdd acc w).toInt = min (acc.toInt + w.toInt) maxInt64 := by
        rw [toInt_saturatingAdd]
        unfold minInt64 maxInt64
        omega
      rw [runningSums] at h
      cases i with
      | zero =>
          obtain rfl := Option.some.inj h
          simp [hstep, exactSum]
      | succ i =>
          have hmax : (0 : Int) ≤ maxInt64 := by decide
          have hrest := exactSum_nonneg fun v hv => hr v (List.mem_of_mem_take (i := i + 1) hv)
          rw [List.getElem?_cons_succ] at h
          rw [ih (by omega) hr h, hstep, List.take_succ_cons, exactSum]
          omega

end EdgeRouting
