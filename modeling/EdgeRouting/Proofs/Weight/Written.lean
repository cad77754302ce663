import Mathlib.Data.List.Dedup
import EdgeRouting.Proofs.Lists
import EdgeRouting.Proofs.Text.ByteOrder
import EdgeRouting.Proofs.Weight.Entries
import EdgeRouting.Settings.Decode

/-!
# Weights that are written down

A document is one of weights if it is a table of words (`written?_eq_some_iff`). Its pairs are read
into a map first, in which of several pairs with one name the last counts, and the entries of that
map are inserted in the order of their bytes (`ofDocument?_eq`, `ofWritten_eq`).
-/

namespace EdgeRouting.WeightTable

variable {pairs : List (String × Int64)} {key : String} {w : Int64}

/-! ## Documents -/

/-- The table that writes pairs down. -/
def written (pairs : List (String × Int64)) : Document :=
  .table (pairs.map fun e => (e.1, .whole e.2.toInt))

/-- The pairs that a document writes down, if it is one of weights. -/
def written? : Document → Option (List (String × Int64))
  | .table entries => entries.mapM fun e => e.2.asInt64?.map fun w => (e.1, w)
  | _ => none

theorem asInt64?_eq_some_iff {d : Document} : d.asInt64? = some w ↔ d = .whole w.toInt := by
  constructor
  · intro h
    cases d with
    | whole n =>
        obtain ⟨n', hn', rfl⟩ := Option.map_eq_some_iff.1 h
        obtain ⟨hrange, hn⟩ := (Option.ite_none_right_eq_some ..).1 hn'
        obtain ⟨hlow, hhigh⟩ := Bool.and_eq_true_iff.1 hrange
        obtain rfl := Option.some.inj hn
        rw [Int64.toInt_ofInt_of_le (of_decide_eq_true hlow)]
        exact Int.lt_of_le_sub_one (of_decide_eq_true hhigh)
    | _ => cases h
  · rintro rfl
    have hlow : minInt64 ≤ w.toInt := w.le_toInt
    have hhigh : w.toInt ≤ maxInt64 := Int.le_sub_one_of_lt w.toInt_lt
    simp [Document.asInt64?, Document.asIntIn?, hlow, hhigh]

theorem written?_eq_some_iff {d : Document} : written? d = some pairs ↔ d = written pairs := by
  constructor
  · intro h
    cases d with
    | table entries =>
        refine congrArg Document.table ?_
        have hentries := mapM_eq_some_iff.1 h
        refine List.forall₂_eq_eq_eq ▸ List.forall₂_map_right_iff.2 (hentries.imp ?_)
        rintro ⟨name, d⟩ ⟨key, w⟩ he
        obtain ⟨w', hw, heq⟩ := Option.map_eq_some_iff.1 he
        obtain ⟨rfl, rfl⟩ := Prod.mk.inj heq
        obtain rfl : d = .whole w'.toInt := asInt64?_eq_some_iff.1 hw
        rfl
    | _ => cases h
  · rintro rfl
    refine mapM_eq_some_iff.2 (List.forall₂_map_left_iff.2 (List.forall₂_same.2 ?_))
    intro e _
    exact congrArg (Option.map _) (asInt64?_eq_some_iff.2 rfl)

theorem ofDocument?_eq (d : Document) : ofDocument? d = (written? d).map ofWritten := by
  cases d with
  | table entries => exact (Option.map_eq_bind ..).symm
  | _ => rfl

theorem ofDocument?_written (pairs : List (String × Int64)) :
    ofDocument? (written pairs) = some (ofWritten pairs) := by
  rw [ofDocument?_eq, written?_eq_some_iff.2 rfl, Option.map_some]

/-! ## The map in between -/

/-- The map that pairs denote one after the other, in the order of the bytes of its keys. -/
def orderedMap (pairs : List (String × Int64)) : List (String × Int64) :=
  ((pairs.map (·.1)).dedup.mergeSort fun a b => Text.bytes a ≤ Text.bytes b).filterMap fun key =>
    (lastWeight (fun k => k = key) pairs).map fun w => (key, w)

theorem mem_orderedMap_iff :
    (key, w) ∈ orderedMap pairs ↔ lastWeight (fun k => k = key) pairs = some w := by
  simp only [orderedMap, List.mem_filterMap, List.mem_mergeSort, List.mem_dedup,
    Option.map_eq_some_iff, Prod.mk.injEq]
  constructor
  · rintro ⟨_, -, _, hlast, rfl, rfl⟩
    exact hlast
  · intro hlast
    have hkey : key ∈ pairs.map (·.1) := by
      by_contra hnot
      have hnone : lastWeight (fun k => k = key) pairs = none := by
        refine lastWeight_eq_none_iff.2 fun e he hkey => hnot ?_
        rw [← of_decide_eq_true hkey]
        exact List.mem_map_of_mem he
      rw [hnone] at hlast
      cases hlast
    exact ⟨key, hkey, w, hlast, rfl, rfl⟩

theorem pairwise_lt_mergeSort {l : List String} (h : l.Nodup) :
    (l.mergeSort fun a b => Text.bytes a ≤ Text.bytes b).Pairwise (· < ·) := by
  have hle : (l.mergeSort fun a b => Text.bytes a ≤ Text.bytes b).Pairwise (· ≤ ·) := by
    refine (List.pairwise_mergeSort ?_ ?_ l).imp ?_
    · intro a b c hab hbc
      simp only [decide_eq_true_eq, ← Text.le_iff_bytes_le] at hab hbc ⊢
      exact le_trans hab hbc
    · intro a b
      simp only [Bool.or_eq_true, decide_eq_true_eq, ← Text.le_iff_bytes_le]
      exact le_total a b
    · intro a b hab
      exact Text.le_iff_bytes_le.2 (of_decide_eq_true hab)
  have hnodup := (List.mergeSort_perm l fun a b => Text.bytes a ≤ Text.bytes b).nodup_iff.2 h
  exact hle.imp₂ (fun _ _ => lt_of_le_of_ne) hnodup

theorem inOrder_orderedMap (pairs : List (String × Int64)) : InOrder (orderedMap pairs) := by
  refine (pairwise_lt_mergeSort (List.nodup_dedup _)).filterMap _ ?_
  intro a a' hlt b hb b' hb'
  obtain ⟨w, -, rfl⟩ := Option.map_eq_some_iff.1 hb
  obtain ⟨w', -, rfl⟩ := Option.map_eq_some_iff.1 hb'
  exact hlt

theorem insertEntries_nil (pairs : List (String × Int64)) :
    insertEntries [] pairs = orderedMap pairs := by
  have horder : InOrder (insertEntries [] pairs) := inOrder_insertEntries .nil pairs
  refine entries_ext horder (inOrder_orderedMap pairs) ?_
  rintro ⟨key, w⟩
  rw [mem_orderedMap_iff, mem_iff_lookupEntry horder.nodup_keys, lookupEntry_insertEntries]
  exact Eq.congr_left Option.or_none

theorem ofWritten_eq (pairs : List (String × Int64)) :
    ofWritten pairs = ofList (orderedMap pairs) :=
  congrArg ofList (insertEntries_nil pairs)

end EdgeRouting.WeightTable
