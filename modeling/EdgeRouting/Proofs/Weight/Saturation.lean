import EdgeRouting.Proofs.Weight.Sums

/-!
# What saturation loses of a sum

The total of shares is the end of a chain of saturating additions (`getLast?_runningSums`). At each
step a sum that leaves the range of words is moved to its end, and what it is beyond the end by is
lost for all later sums. So the total is the exact sum without the losses of all steps
(`toInt_foldl_saturatingAdd`).

A loss does no harm as long as no later weight leads back into the range, because the exact sum stays
outside as well and the total stays at the end that is nearest to it (`toInt_foldl_of_staysOut`). The
invariant of that argument is that each running sum is the exact one, moved to the nearer end.
-/

namespace EdgeRouting

variable {acc : Int64} {l : List Int64} {a : Int}

/-- The total of a chain of running sums, on top of a sum that counts when there are none. -/
theorem getLast?_runningSums (acc : Int64) (l : List Int64) :
    (runningSums acc l).getLast?.getD acc = l.foldl saturatingAdd acc := by
  induction l generalizing acc with
  | nil => rfl
  | cons w r ih => rw [runningSums, List.getLast?_cons, Option.getD_some, ih, List.foldl_cons]

theorem Shares.total_ofTargets (targets : List Target) (table : WeightTable) :
    (ofTargets targets table).total = (ofTargets targets table).weights.foldl saturatingAdd 0 :=
  getLast?_runningSums 0 _

/-! ## Losses -/

/-- What an integer is beyond the range of words by. Below the range it is negative. -/
def excess (n : Int) : Int := n - max minInt64 (min n maxInt64)

/-- What saturation loses of the sum of weights on top of another sum. -/
def lostSum (acc : Int) : List Int64 → Int
  | [] => 0
  | w :: r =>
    excess (acc + w.toInt) + lostSum (acc + w.toInt - excess (acc + w.toInt)) r

/-- A saturating sum is the exact sum without what saturation loses. -/
theorem toInt_foldl_saturatingAdd (acc : Int64) (l : List Int64) :
    (l.foldl saturatingAdd acc).toInt = acc.toInt + exactSum l - lostSum acc.toInt l := by
  induction l generalizing acc with
  | nil => simp [exactSum, lostSum]
  | cons w r ih =>
      have hstep : (saturatingAdd acc w).toInt
          = acc.toInt + w.toInt - excess (acc.toInt + w.toInt) := by
        rw [toInt_saturatingAdd, excess]
        omega
      rw [List.foldl_cons, ih, hstep, exactSum, lostSum]
      omega

/-! ## Sums that stay outside -/

/-- Once the sum of the weights up to one of them, on top of `a`, has left the range of words, no
later weight leads back. -/
def StaysOutFrom (a : Int) (l : List Int64) : Prop :=
  ∀ n, (maxInt64 < a + exactSum (l.take n) → ∀ w ∈ l.drop n, 0 ≤ w.toInt)
    ∧ (a + exactSum (l.take n) < minInt64 → ∀ w ∈ l.drop n, w.toInt ≤ 0)

def StaysOut (l : List Int64) : Prop := StaysOutFrom 0 l

theorem StaysOutFrom.tail {w : Int64} {r : List Int64} (h : StaysOutFrom a (w :: r)) :
    StaysOutFrom (a + w.toInt) r := by
  intro n
  have hn := h (n + 1)
  rwa [List.take_succ_cons, List.drop_succ_cons, exactSum, ← Int.add_assoc] at hn

/-- When no weight leads back, a saturating sum is the exact one, moved to the nearer end of the
range. -/
theorem toInt_foldl_of_staysOut (hacc : acc.toInt = max minInt64 (min a maxInt64))
    (h : StaysOutFrom a l) :
    (l.foldl saturatingAdd acc).toInt = max minInt64 (min (a + exactSum l) maxInt64) := by
  induction l generalizing acc a with
  | nil => rw [List.foldl_nil, exactSum, Int.add_zero, hacc]
  | cons w r ih =>
      obtain ⟨habove, hbelow⟩ := h 0
      rw [List.take_zero, exactSum, Int.add_zero, List.drop_zero] at habove hbelow
      have hstep : (saturatingAdd acc w).toInt = max minInt64 (min (a + w.toInt) maxInt64) := by
        have hup := fun ha => habove ha w List.mem_cons_self
        have hdown := fun ha => hbelow ha w List.mem_cons_self
        rw [toInt_saturatingAdd, hacc]
        omega
      rw [List.foldl_cons, ih hstep h.tail, exactSum, Int.add_assoc]

theorem staysOut_of_nonneg (h : ∀ w ∈ l, 0 ≤ w.toInt) : StaysOut l := by
  intro n
  refine ⟨fun _ w hw => h w (List.mem_of_mem_drop hw), fun hout => ?_⟩
  have hsum := exactSum_nonneg fun w hw => h w (List.mem_of_mem_take (i := n) hw)
  unfold minInt64 at hout
  omega

end EdgeRouting
