import EdgeRouting.Target
import EdgeRouting.Weight.Table
import EdgeRouting.Word

/-!
# Shares of the traffic

The weight of a target is its entry in the weight table, or an even share of a hundred. Thresholds
are the running sums of the weights; a sum that leaves the range of 64 bits stays at its end.
-/

namespace EdgeRouting

/-- The even share of a hundred for a number of targets, which is taken as a signed word. -/
def evenShare (count : Nat) : Int64 :=
  if count = 0 then 0 else 100 / Int64.ofNat count

/-- The word nearest to an integer. -/
def clampInt64 (n : Int) : Int64 := Int64.ofInt (max minInt64 (min n maxInt64))

/-- Addition that stays at the ends of the range instead of leaving it. -/
def saturatingAdd (a b : Int64) : Int64 := clampInt64 (a.toInt + b.toInt)

/-- The sums of a list of weights up to each of them, on top of `acc`. -/
def runningSums (acc : Int64) : List Int64 → List Int64
  | [] => []
  | w :: r => saturatingAdd acc w :: runningSums (saturatingAdd acc w) r

/-- Weights and thresholds in the order of the targets. -/
structure Shares where
  even : Int64
  weights : List Int64
  thresholds : List Int64
  deriving Repr, DecidableEq

namespace Shares

/-- The last threshold, or zero when there is none. -/
def total (s : Shares) : Int64 := s.thresholds.getLast?.getD 0

/-- The weight of a target: its entry in the table, or the even share. -/
def weightOf (table : WeightTable) (even : Int64) (t : Target) : Int64 :=
  (table.get? t.name).getD even

/-- The shares of targets under a table of weights. -/
def ofTargets (targets : List Target) (table : WeightTable) : Shares :=
  let even := evenShare targets.length
  let weights := targets.map (weightOf table even)
  ⟨even, weights, runningSums 0 weights⟩

end Shares

theorem length_runningSums (acc : Int64) (l : List Int64) :
    (runningSums acc l).length = l.length := by
  induction l generalizing acc with
  | nil => rfl
  | cons w r ih => simp [runningSums, ih]

theorem toInt_clampInt64 (n : Int) :
    (clampInt64 n).toInt = max minInt64 (min n maxInt64) := by
  unfold clampInt64 minInt64 maxInt64
  rw [Int64.toInt_ofInt_of_le] <;> omega

/-- A saturating sum is the exact sum, moved to the nearer end of the range when it is outside. -/
theorem toInt_saturatingAdd (a b : Int64) :
    (saturatingAdd a b).toInt = max minInt64 (min (a.toInt + b.toInt) maxInt64) :=
  toInt_clampInt64 _

end EdgeRouting
