import Mathlib.Data.List.Induction
import Mathlib.Data.List.Nodup
import Mathlib.Data.String.Basic
import EdgeRouting.Weight.Table

/-!
# Entries that are inserted one after the other

After insertions a key has the weight that was inserted last, or else the one that it had before
(`lookupEntry_insertEntries`). A table takes its names in lower case, so there the last one counts
whose lower case is the key (`mem_insertAll_iff`, `get?_insertAll`).

Entries in order are determined by what they map (`entries_ext`), so that tables are compared entry
by entry.
-/

namespace EdgeRouting.WeightTable

variable {l m pairs : List (String × Int64)} {p : String → Bool} {key : String} {w : Int64}

/-! ## Entries in order -/

def InOrder (l : List (String × Int64)) : Prop := l.Pairwise fun a b => a.1 < b.1

theorem InOrder.nodup_keys (h : InOrder l) : (l.map (·.1)).Nodup :=
  List.pairwise_map.2 (h.imp fun hlt => ne_of_lt hlt)

theorem entries_ext (hl : InOrder l) (hm : InOrder m) (h : ∀ e, e ∈ l ↔ e ∈ m) : l = m := by
  have hperm : l.Perm m :=
    (List.perm_ext_iff_of_nodup hl.nodup_keys.of_map hm.nodup_keys.of_map).2 h
  refine hperm.eq_of_pairwise ?_ hl hm
  intro a b _ _ hab hba
  exact absurd hba (lt_asymm hab)

theorem mem_iff_lookupEntry (h : (l.map (·.1)).Nodup) :
    (key, w) ∈ l ↔ lookupEntry key l = some w := by
  induction l with
  | nil => simp [lookupEntry]
  | cons a r ih =>
      obtain ⟨k, v⟩ := a
      obtain ⟨hk, hr⟩ := List.nodup_cons.1 h
      by_cases hkey : key = k
      · subst hkey
        have hnot : (key, w) ∉ r := fun hmem => hk (List.mem_map.2 ⟨_, hmem, rfl⟩)
        simp [lookupEntry, hnot, eq_comm]
      · simp [lookupEntry, hkey, ih hr]

/-! ## The last weight -/

/-- The weight of the last pair whose name is one of those. -/
def lastWeight (p : String → Bool) (pairs : List (String × Int64)) : Option Int64 :=
  (pairs.filter fun e => p e.1).getLast?.map (·.2)

theorem lastWeight_concat (p : String → Bool) (pairs : List (String × Int64))
    (e : String × Int64) :
    lastWeight p (pairs ++ [e]) = if p e.1 then some e.2 else lastWeight p pairs := by
  unfold lastWeight
  rw [List.filter_append]
  by_cases he : p e.1 = true
  · simp [he]
  · simp [he]

theorem lastWeight_map (f : String → String) (p : String → Bool) (pairs : List (String × Int64)) :
    lastWeight p (pairs.map fun e => (f e.1, e.2)) = lastWeight (fun k => p (f k)) pairs := by
  simp only [lastWeight, List.filter_map, List.getLast?_map, Option.map_map]
  rfl

theorem lastWeight_eq_none_iff :
    lastWeight p pairs = none ↔ ∀ e ∈ pairs, ¬ p e.1 = true := by
  simp [lastWeight]

/-- Where one pair at most is meant, the last weight is its weight. -/
theorem lastWeight_eq_some_iff
    (h : ∀ a ∈ pairs, ∀ b ∈ pairs, p a.1 = true → p b.1 = true → a = b) :
    lastWeight p pairs = some w ↔ ∃ k, p k = true ∧ (k, w) ∈ pairs := by
  unfold lastWeight
  constructor
  · intro hw
    obtain ⟨⟨k, v⟩, hlast, rfl⟩ := Option.map_eq_some_iff.1 hw
    obtain ⟨hmem, hp⟩ := List.mem_filter.1 (List.mem_of_getLast? hlast)
    exact ⟨k, hp, hmem⟩
  · rintro ⟨k, hp, hmem⟩
    have hfiltered : (k, w) ∈ pairs.filter fun e => p e.1 := List.mem_filter.2 ⟨hmem, hp⟩
    have hlast := List.getLast?_eq_some_getLast (List.ne_nil_of_mem hfiltered)
    obtain ⟨hmem', hp'⟩ := List.mem_filter.1 (List.mem_of_getLast? hlast)
    rw [hlast, h _ hmem' _ hmem hp' hp]
    rfl

/-! ## Insertions -/

/-- The entries after insertions. -/
def insertEntries (l pairs : List (String × Int64)) : List (String × Int64) :=
  pairs.foldl (fun l e => insertEntry e.1 e.2 l) l

theorem inOrder_insertEntries (h : InOrder l) (pairs : List (String × Int64)) :
    InOrder (insertEntries l pairs) := by
  induction pairs generalizing l with
  | nil => exact h
  | cons e r ih => exact ih (sorted_insertEntry h)

theorem lookupEntry_insertEntries (l pairs : List (String × Int64)) (key : String) :
    lookupEntry key (insertEntries l pairs)
      = (lastWeight (fun k => k = key) pairs).or (lookupEntry key l) := by
  -- From the right, since the last insertion decides.
  induction pairs using List.reverseRecOn with
  | nil => rfl
  | append_singleton r e ih =>
      have hlast : insertEntries l (r ++ [e]) = insertEntry e.1 e.2 (insertEntries l r) :=
        List.foldl_concat _ _ _ _
      rw [hlast, lookupEntry_insertEntry, lastWeight_concat, ih]
      by_cases hkey : key = e.1
      · simp [hkey]
      · simp [hkey, Ne.symm hkey]

/-- The table after insertions. -/
def insertAll (t : WeightTable) (pairs : List (String × Int64)) : WeightTable :=
  pairs.foldl (fun t e => t.insert e.1 e.2) t

variable (t : WeightTable)

theorem entries_insertAll (pairs : List (String × Int64)) : (t.insertAll pairs).entries
    = insertEntries t.entries (pairs.map fun e => (Text.lower e.1, e.2)) := by
  induction pairs generalizing t with
  | nil => rfl
  | cons e r ih => exact ih (t.insert e.1 e.2)

theorem lookupEntry_insertAll (pairs : List (String × Int64)) (key : String) :
    lookupEntry key (t.insertAll pairs).entries
      = (lastWeight (fun k => Text.lower k = key) pairs).or (lookupEntry key t.entries) := by
  rw [entries_insertAll, lookupEntry_insertEntries, lastWeight_map]

theorem get?_insertAll (pairs : List (String × Int64)) (name : String) :
    (t.insertAll pairs).get? name
      = (lastWeight (fun k => Text.lower k = Text.lower name) pairs).or (t.get? name) :=
  lookupEntry_insertAll t pairs (Text.lower name)

variable {t} {u : WeightTable}

theorem mem_entries_iff : (key, w) ∈ t.entries ↔ lookupEntry key t.entries = some w :=
  mem_iff_lookupEntry (InOrder.nodup_keys t.sorted)

theorem ext_lookup (h : ∀ key, lookupEntry key t.entries = lookupEntry key u.entries) : t = u := by
  have hentries : t.entries = u.entries := by
    refine entries_ext t.sorted u.sorted fun e => ?_
    rw [mem_entries_iff, mem_entries_iff, h]
  cases t
  cases u
  exact (mk.injEq ..).mpr hentries

theorem get?_ofList (pairs : List (String × Int64)) (name : String) :
    (ofList pairs).get? name
      = lastWeight (fun k => Text.lower k = Text.lower name) pairs :=
  (get?_insertAll empty pairs name).trans (Option.or_none)

theorem mem_ofList_iff : (key, w) ∈ (ofList pairs).entries
    ↔ lastWeight (fun k => Text.lower k = key) pairs = some w := by
  have hlookup : lookupEntry key (ofList pairs).entries
      = lastWeight (fun k => Text.lower k = key) pairs :=
    (lookupEntry_insertAll empty pairs key).trans Option.or_none
  rw [mem_entries_iff, hlookup]

end EdgeRouting.WeightTable
