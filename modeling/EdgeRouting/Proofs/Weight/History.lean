import EdgeRouting.Proofs.Text.LowerCase
import EdgeRouting.Proofs.Weight.Written

/-!
# Histories of a weight table

A table is changed by insertions, and replaced by collecting pairs or by decoding a document. One
change does to the table what it does to the list of pairs that have been inserted since the table
was last replaced (`apply_ofList`). After a whole history the table is thus the one of these pairs
(`tableAfter_eq`), and it is a map of them in lower case (`isMapOf_tableAfter`).

Lower case changes nothing about a key that it has made, so the entries of a table can be inserted
again in any order (`insertAll_of_perm`).
-/

namespace EdgeRouting.WeightTable

variable {pairs order : List (String × Int64)} {t : WeightTable}

/-! ## Changes -/

/-- What is done to a table. -/
inductive Change where
  /-- In place or by value. -/
  | insert (name : String) (weight : Int64)
  | collect (pairs : List (String × Int64))
  | decode (d : Document)

/-- The table after a change. A document that cannot be decoded leaves it as it is. -/
def Change.apply (t : WeightTable) : Change → WeightTable
  | .insert name weight => t.insert name weight
  | .collect pairs => ofList pairs
  | .decode d => (ofDocument? d).getD t

/-- The table after changes, which is empty in the beginning. -/
def tableAfter (changes : List Change) : WeightTable := changes.foldl Change.apply empty

/-- The pairs inserted since the last replacement after one more change. -/
def Change.inserted (pairs : List (String × Int64)) : Change → List (String × Int64)
  | .insert name weight => pairs ++ [(name, weight)]
  | .collect pairs => pairs
  | .decode d => ((written? d).map orderedMap).getD pairs

/-- The pairs that have been inserted since the table was last replaced. -/
def insertedIn (changes : List Change) : List (String × Int64) := changes.foldl Change.inserted []

theorem ofList_concat (pairs : List (String × Int64)) (name : String) (weight : Int64) :
    ofList (pairs ++ [(name, weight)]) = (ofList pairs).insert name weight :=
  List.foldl_concat _ _ _ _

theorem apply_ofList (pairs : List (String × Int64)) (c : Change) :
    c.apply (ofList pairs) = ofList (c.inserted pairs) := by
  cases c with
  | insert name weight => exact (ofList_concat pairs name weight).symm
  | collect pairs => rfl
  | decode d =>
      simp only [Change.apply, Change.inserted, ofDocument?_eq]
      cases written? d with
      | none => rfl
      | some pairs => exact ofWritten_eq pairs

theorem tableAfter_eq (changes : List Change) :
    tableAfter changes = ofList (insertedIn changes) := by
  induction changes using List.reverseRecOn with
  | nil => rfl
  | append_singleton changes c ih =>
      have hlast : tableAfter (changes ++ [c]) = c.apply (tableAfter changes) :=
        List.foldl_concat _ _ _ _
      have hinserted : insertedIn (changes ++ [c]) = c.inserted (insertedIn changes) :=
        List.foldl_concat _ _ _ _
      rw [hlast, hinserted, ih, apply_ofList]

/-! ## Tables as maps -/

/-- A table is a map of pairs in lower case, in which the last of them counts. -/
structure IsMapOf (pairs : List (String × Int64)) (t : WeightTable) : Prop where
  get?_eq : ∀ name,
    t.get? name = lastWeight (fun k => Text.lower k = Text.lower name) pairs
  mem_keys_iff : ∀ key, key ∈ t.entries.map (·.1) ↔ ∃ e ∈ pairs, Text.lower e.1 = key
  lower_key : ∀ e ∈ t.entries, Text.lower e.1 = e.1
  get?_key : ∀ e ∈ t.entries, t.get? e.1 = some e.2
  inByteOrder : t.entries.Pairwise fun a b => Text.bytes a.1 < Text.bytes b.1
  collected : ∀ order : List (String × Int64), order.Perm t.entries → ofList order = t
  insertedAgain : ∀ order : List (String × Int64), order.Perm t.entries → t.insertAll order = t

theorem mem_keys_ofList_iff {key : String} :
    key ∈ (ofList pairs).entries.map (·.1) ↔ ∃ e ∈ pairs, Text.lower e.1 = key := by
  have hsome : (∃ w, lastWeight (fun k => Text.lower k = key) pairs = some w)
      ↔ ∃ e ∈ pairs, Text.lower e.1 = key := by
    rw [← Option.isSome_iff_exists, ← Option.ne_none_iff_isSome, Ne, lastWeight_eq_none_iff]
    simp
  rw [← hsome, List.mem_map]
  constructor
  · rintro ⟨⟨_, w⟩, he, rfl⟩
    exact ⟨w, mem_ofList_iff.1 he⟩
  · rintro ⟨w, hw⟩
    exact ⟨(key, w), mem_ofList_iff.2 hw, rfl⟩

theorem lower_of_mem_ofList {e : String × Int64} (he : e ∈ (ofList pairs).entries) :
    Text.lower e.1 = e.1 := by
  obtain ⟨e', -, hkey⟩ := mem_keys_ofList_iff.1 (List.mem_map_of_mem he)
  rw [← hkey, Text.lower_lower]

theorem lastWeight_of_perm (hlower : ∀ e ∈ t.entries, Text.lower e.1 = e.1)
    (h : order.Perm t.entries) (key : String) :
    lastWeight (fun k => Text.lower k = key) order = lookupEntry key t.entries := by
  -- Keys are their own lower case, so only one of the entries can be meant.
  have hkey : ∀ e ∈ order, decide (Text.lower e.1 = key) = true → e.1 = key := by
    intro e he hdecide
    rw [← hlower e (h.mem_iff.1 he)]
    exact of_decide_eq_true hdecide
  have hnodup : (order.map (·.1)).Nodup := (h.map _).nodup_iff.2 (InOrder.nodup_keys t.sorted)
  ext w
  rw [← mem_entries_iff, ← h.mem_iff, lastWeight_eq_some_iff]
  · constructor
    · rintro ⟨k, hk, hmem⟩
      rwa [← hkey _ hmem hk]
    · intro hmem
      have hfixed : Text.lower key = key := hlower (key, w) (h.mem_iff.1 hmem)
      exact ⟨key, decide_eq_true hfixed, hmem⟩
  · intro a ha b hb hpa hpb
    exact List.inj_on_of_nodup_map hnodup ha hb ((hkey a ha hpa).trans (hkey b hb hpb).symm)

/-- Insertion of the entries of a table, in any order, gives each key its weight there. -/
theorem lookupEntry_insertAll_of_perm (hlower : ∀ e ∈ t.entries, Text.lower e.1 = e.1)
    (h : order.Perm t.entries) (u : WeightTable) (key : String) :
    lookupEntry key (u.insertAll order).entries
      = (lookupEntry key t.entries).or (lookupEntry key u.entries) := by
  rw [lookupEntry_insertAll, lastWeight_of_perm hlower h]

theorem insertAll_of_perm (hlower : ∀ e ∈ t.entries, Text.lower e.1 = e.1)
    (h : order.Perm t.entries) : t.insertAll order = t := by
  refine ext_lookup fun key => ?_
  rw [lookupEntry_insertAll_of_perm hlower h, Option.or_self]

theorem ofList_of_perm (hlower : ∀ e ∈ t.entries, Text.lower e.1 = e.1)
    (h : order.Perm t.entries) : ofList order = t := by
  refine ext_lookup fun key => ?_
  exact (lookupEntry_insertAll_of_perm hlower h empty key).trans Option.or_none

theorem isMapOf_ofList (pairs : List (String × Int64)) : IsMapOf pairs (ofList pairs) where
  get?_eq := get?_ofList pairs
  mem_keys_iff _ := mem_keys_ofList_iff
  lower_key _ he := lower_of_mem_ofList he
  get?_key := by
    intro e he
    rw [get?, lower_of_mem_ofList he]
    exact mem_entries_iff.1 he
  inByteOrder := (ofList pairs).sorted.imp fun hlt => Text.lt_iff_bytes_lt.1 hlt
  collected _ := ofList_of_perm fun _ => lower_of_mem_ofList
  insertedAgain _ := insertAll_of_perm fun _ => lower_of_mem_ofList

/-- After any history a table is a map of what has been inserted since it was last replaced. -/
theorem isMapOf_tableAfter (changes : List Change) :
    IsMapOf (insertedIn changes) (tableAfter changes) := by
  rw [tableAfter_eq]
  exact isMapOf_ofList _

/-! ### A table that is replaced and then changed

The first insertion is lost, since the document behind it replaces the table, and the last document
cannot be decoded. -/

def blueGreenChanges : List Change :=
  [.insert "left" 1, .decode (written [("Green", 40), ("blue", 20), ("BLUE", 10)]),
    .insert "Blue" 30, .decode (.table [("blue", .real)])]

theorem isMapOf_tableAfter_blueGreen :
    insertedIn blueGreenChanges = [("BLUE", 10), ("Green", 40), ("blue", 20), ("Blue", 30)]
      ∧ (tableAfter blueGreenChanges).entries = [("blue", 30), ("green", 40)]
      ∧ (tableAfter blueGreenChanges).get? "bLUE" = some 30
      ∧ (tableAfter blueGreenChanges).get? "left" = none
      ∧ ofList [("green", 40), ("blue", 30)] = tableAfter blueGreenChanges := by
  have hmap := isMapOf_tableAfter blueGreenChanges
  have hinserted : insertedIn blueGreenChanges
      = [("BLUE", 10), ("Green", 40), ("blue", 20), ("Blue", 30)] := by
    show orderedMap [("Green", 40), ("blue", 20), ("BLUE", 10)] ++ [("Blue", 30)] = _
    rw [← insertEntries_nil]
    decide
  have hentries : (tableAfter blueGreenChanges).entries = [("blue", 30), ("green", 40)] := by
    with_unfolding_all rfl
  refine ⟨hinserted, hentries, ?_, ?_, hmap.collected _ ?_⟩
  · rw [hmap.get?_eq, hinserted]
    with_unfolding_all rfl
  · rw [hmap.get?_eq, hinserted]
    with_unfolding_all rfl
  · rw [hentries]
    exact .swap ..

end EdgeRouting.WeightTable
