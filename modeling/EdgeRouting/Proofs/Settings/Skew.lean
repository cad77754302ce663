import EdgeRouting.Proofs.Settings.Agreement
import EdgeRouting.Proofs.Weight.Saturation

/-!
# The warning of a skewed split

Accepted settings are warned of when there are weights in the table and the total of all shares is
not a hundred (`skewed_mem_warnings_iff`). The shares are those of the targets that compilation
builds, since every template of accepted settings can be read (`filterMap_of_buildTargets`).

The total is the exact sum of the weights without what saturation loses, and that is what the warning
depends on in general. It is the warning that the sum is not a hundred when no weight leads back into
the range of words after a sum that has left it, in particular when no such sum leaves the range or
no weight is negative (`validate_skewed`). Weights that lead back can make up a total of a hundred
from another sum, which then passes without a warning (`not_skewed_returning`).
-/

namespace EdgeRouting

namespace Settings

variable {s : Settings} {warnings : List SettingsWarning} {total : Int64}

/-! ## What is warned of -/

theorem not_skewed_mem_weightWarnings (keys : List String) (key : String) (weight : Int64) :
    SettingsWarning.skewed total ∉ weightWarnings keys key weight := by
  unfold weightWarnings
  repeat' split
  all_goals simp

theorem skewed_mem_warnings_iff : SettingsWarning.skewed total ∈ s.warnings
    ↔ s.weights.isEmpty = false ∧ total ≠ 100
      ∧ total = (Shares.ofTargets s.readableTargets s.weights).total := by
  have hentries : SettingsWarning.skewed total ∉ s.weights.entries.flatMap fun e =>
      weightWarnings (s.targets.map fun t => Text.lower t.name) e.1 e.2 := by
    rw [List.mem_flatMap]
    rintro ⟨e, -, he⟩
    exact not_skewed_mem_weightWarnings _ _ _ he
  rw [Settings.warnings, List.mem_append, or_iff_right hentries]
  by_cases hempty : s.weights.isEmpty = true
  · simp [hempty]
  · by_cases htotal : (Shares.ofTargets s.readableTargets s.weights).total = 100
    · simp [htotal]
    · simp only [hempty, htotal, decide_false, Bool.or_false, Bool.false_eq_true, if_false,
        List.mem_singleton, SettingsWarning.skewed.injEq, true_and]
      exact ⟨fun h => ⟨h ▸ htotal, h⟩, And.right⟩

/-- The targets that can be read are all of those that are built. -/
theorem filterMap_of_buildTargets {targets : List TargetSettings} {built : List Target}
    (h : buildTargets targets = .ok built) :
    targets.filterMap (fun t => t.target.toOption) = built := by
  induction targets generalizing built with
  | nil => exact Except.ok.inj h
  | cons t r ih =>
      obtain ⟨target, later, htarget, hlater, rfl⟩ := buildTargets_cons_eq_ok_iff.1 h
      rw [List.filterMap_cons, htarget, ih hlater]
      rfl

theorem warnings_of_validate (hvalid : s.validate = .ok warnings) : warnings = s.warnings := by
  unfold validate at hvalid
  split at hvalid
  · exact (Except.ok.inj hvalid).symm
  · cases hvalid

/-! ## When it is said -/

theorem toInt_eq_hundred_iff : total.toInt = 100 ↔ total = 100 := by
  have hundred : (100 : Int64).toInt = 100 := by decide
  rw [← hundred, Int64.toInt_inj]

/-- Accepted settings are warned of a skewed split when there are weights in the table and the exact
sum of all weights, without what saturation loses, is not a hundred; that is the total that is
reported. Unless a weight leads back into the range of words after a sum that has left it, this is
so exactly when the sum itself is not a hundred, and the sum is reported whenever it is a word. -/
theorem validate_skewed (hvalid : s.validate = .ok warnings) :
    ∃ targets, buildTargets s.targets = .ok targets
      ∧ let weights := (Shares.ofTargets targets s.weights).weights
        (∀ total, .skewed total ∈ warnings ↔ s.weights.isEmpty = false ∧ total.toInt ≠ 100
            ∧ total.toInt = exactSum weights - lostSum 0 weights)
          ∧ (StaysOut weights →
            ((∃ total, .skewed total ∈ warnings)
                ↔ s.weights.isEmpty = false ∧ exactSum weights ≠ 100)
              ∧ ∀ total, .skewed total ∈ warnings → FitsWord (exactSum weights) →
                total.toInt = exactSum weights) := by
  obtain ⟨targets, -, hbuilt, -⟩ :=
    exists_logic_of_validate hvalid s.weights s.service.lockHeader
  obtain rfl := warnings_of_validate hvalid
  refine ⟨targets, hbuilt, ?_⟩
  intro weights
  have hwarned : ∀ total, .skewed total ∈ s.warnings ↔ s.weights.isEmpty = false
      ∧ total.toInt ≠ 100 ∧ total.toInt = (weights.foldl saturatingAdd 0).toInt := by
    intro total
    rw [skewed_mem_warnings_iff, readableTargets, filterMap_of_buildTargets hbuilt,
      Shares.total_ofTargets, Ne, ← toInt_eq_hundred_iff, Int64.toInt_inj]
  refine ⟨fun total => ?_, fun hstays => ?_⟩
  · rw [hwarned, toInt_foldl_saturatingAdd, Int64.toInt_zero, Int.zero_add]
  · have htotal : (weights.foldl saturatingAdd 0).toInt
        = max minInt64 (min (0 + exactSum weights) maxInt64) :=
      toInt_foldl_of_staysOut (by decide) hstays
    rw [Int.zero_add] at htotal
    have hmin : minInt64 < 100 := by decide
    have hmax : 100 < maxInt64 := by decide
    refine ⟨⟨?_, ?_⟩, ?_⟩
    · rintro ⟨total, hmem⟩
      obtain ⟨hentries, hne, heq⟩ := (hwarned total).1 hmem
      exact ⟨hentries, by omega⟩
    · rintro ⟨hentries, hne⟩
      refine ⟨weights.foldl saturatingAdd 0, (hwarned _).2 ⟨hentries, ?_, rfl⟩⟩
      omega
    · rintro total hmem ⟨hlow, hhigh⟩
      obtain ⟨-, -, heq⟩ := (hwarned total).1 hmem
      omega

/-! ### Weights that lead back

The second weight leaves the range of words, which loses one, and the third one leads back. The total
is a hundred, but the sum is not. Without such weights the split below is warned of. -/

def splitSettings (table : WeightTable) : Settings :=
  { Settings.default with
    service := { ServiceSettings.default with apiUrl := "http://10.0.0.1/api" }
    targets := [⟨"A", "10.0.0.1", "", "/\x7bpackage\x7d", none⟩,
      ⟨"B", "10.0.0.2", "", "/\x7bpackage\x7d", none⟩,
      ⟨"C", "10.0.0.3", "", "/\x7bpackage\x7d", none⟩]
    weights := table }

def splitTargets : List Target :=
  [⟨"A", "10.0.0.1", "", ⟨"/\x7bpackage\x7d", [.literal "/", .field .package]⟩, ""⟩,
    ⟨"B", "10.0.0.2", "", ⟨"/\x7bpackage\x7d", [.literal "/", .field .package]⟩, ""⟩,
    ⟨"C", "10.0.0.3", "", ⟨"/\x7bpackage\x7d", [.literal "/", .field .package]⟩, ""⟩]

def returningTable : WeightTable :=
  ((WeightTable.empty.insert "a" 9223372036854775807).insert "b" 1).insert "c"
    (-9223372036854775707)

def returningWarnings : List SettingsWarning :=
  [.weightAboveHundred "a" 9223372036854775807, .negativeWeight "c" (-9223372036854775707)]

def heavyTable : WeightTable := WeightTable.empty.insert "b" 250

theorem buildTargets_split (table : WeightTable) :
    buildTargets (splitSettings table).targets = .ok splitTargets := by
  with_unfolding_all rfl

theorem validate_split_returning :
    (splitSettings returningTable).validate = .ok returningWarnings := by
  with_unfolding_all rfl

theorem not_skewed_returning : (splitSettings returningTable).validate = .ok returningWarnings
    ∧ buildTargets (splitSettings returningTable).targets = .ok splitTargets
    ∧ (splitSettings returningTable).weights.isEmpty = false
    ∧ exactSum (Shares.ofTargets splitTargets returningTable).weights = 101
    ∧ ∀ total, SettingsWarning.skewed total ∉ returningWarnings := by
  refine ⟨validate_split_returning, buildTargets_split _, rfl, rfl, ?_⟩
  simp [returningWarnings]

theorem validate_skewed_split :
    (splitSettings returningTable).validate = .ok returningWarnings
      ∧ lostSum 0 (Shares.ofTargets splitTargets returningTable).weights = 1
      ∧ SettingsWarning.skewed 101 ∉ returningWarnings
      ∧ (splitSettings heavyTable).validate
        = .ok [.weightAboveHundred "b" 250, .skewed 316]
      ∧ exactSum (Shares.ofTargets splitTargets heavyTable).weights = 316 := by
  have hheavy : (splitSettings heavyTable).validate
      = .ok [.weightAboveHundred "b" 250, .skewed 316] := by with_unfolding_all rfl
  obtain ⟨targets, hbuilt, hreturning, -⟩ := validate_skewed validate_split_returning
  obtain rfl := Except.ok.inj ((buildTargets_split returningTable).symm.trans hbuilt)
  obtain ⟨targets', hbuilt', -, hstaying⟩ := validate_skewed hheavy
  obtain rfl := Except.ok.inj ((buildTargets_split heavyTable).symm.trans hbuilt')
  refine ⟨validate_split_returning, by decide, fun hmem => ?_, hheavy, ?_⟩
  · obtain ⟨-, -, htotal⟩ := (hreturning 101).1 hmem
    exact absurd htotal (by decide)
  · have hweights : (Shares.ofTargets splitTargets heavyTable).weights = [33, 250, 33] := rfl
    have hstays : StaysOut (Shares.ofTargets splitTargets heavyTable).weights := by
      rw [hweights]
      refine staysOut_of_nonneg ?_
      simp only [List.forall_mem_cons, List.not_mem_nil, false_implies, implies_true, and_true]
      decide
    exact ((hstaying hstays).2 316 (by simp) (by decide)).symm

end Settings

end EdgeRouting
