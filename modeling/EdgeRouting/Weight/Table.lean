import EdgeRouting.Text.LowerCase

/-!
# Weight tables

A sparse map from the lower-cased name of a target to its weight. The entries are kept in strictly
increasing order of their keys, so a table is determined by what it maps.
-/

namespace EdgeRouting

structure WeightTable where
  entries : List (String × Int64)
  sorted : entries.Pairwise fun a b => a.1 < b.1
  deriving Repr, DecidableEq

namespace WeightTable

/-- Insertion into sorted entries; an entry with the same key is replaced. -/
def insertEntry (key : String) (weight : Int64) :
    List (String × Int64) → List (String × Int64)
  | [] => [(key, weight)]
  | (k, w) :: r =>
    if key < k then (key, weight) :: (k, w) :: r
    else if key = k then (key, weight) :: r
    else (k, w) :: insertEntry key weight r

theorem mem_insertEntry {key : String} {weight : Int64} {l : List (String × Int64)}
    {e : String × Int64} (h : e ∈ insertEntry key weight l) : e = (key, weight) ∨ e ∈ l := by
  induction l with
  | nil => simpa [insertEntry] using h
  | cons a r ih =>
    obtain ⟨k, w⟩ := a
    simp only [insertEntry] at h
    split at h
    · simpa using h
    · split at h
      · rcases List.mem_cons.1 h with h | h
        · exact .inl h
        · exact .inr (List.mem_cons_of_mem _ h)
      · rcases List.mem_cons.1 h with h | h
        · exact .inr (h ▸ List.mem_cons_self)
        · exact (ih h).imp_right (List.mem_cons_of_mem _)

theorem sorted_insertEntry {key : String} {weight : Int64} {l : List (String × Int64)}
    (h : l.Pairwise fun a b => a.1 < b.1) :
    (insertEntry key weight l).Pairwise fun a b => a.1 < b.1 := by
  induction l with
  | nil => simp [insertEntry]
  | cons a r ih =>
    obtain ⟨k, w⟩ := a
    obtain ⟨hk, hr⟩ := List.pairwise_cons.1 h
    simp only [insertEntry]
    split
    · next hlt =>
      refine List.pairwise_cons.2 ⟨fun e he => ?_, h⟩
      rcases List.mem_cons.1 he with rfl | he
      · exact hlt
      · exact String.lt_trans hlt (hk e he)
    · next hnlt =>
      split
      · next heq => subst heq; exact List.pairwise_cons.2 ⟨hk, hr⟩
      · next hne =>
        refine List.pairwise_cons.2 ⟨fun e he => ?_, ih hr⟩
        rcases mem_insertEntry he with rfl | he
        · rcases String.le_total k key with hle | hle
          · exact String.not_le.1 fun h' => hne (String.le_antisymm h' hle)
          · exact absurd (String.not_le.1 fun h' => hne (String.le_antisymm hle h')) hnlt
        · exact hk e he

def empty : WeightTable := ⟨[], .nil⟩

instance : Inhabited WeightTable := ⟨empty⟩

def isEmpty (t : WeightTable) : Bool := t.entries.isEmpty

/-- The table in which the name, in lower case, has the weight. -/
def insert (t : WeightTable) (name : String) (weight : Int64) : WeightTable :=
  ⟨insertEntry (Text.lower name) weight t.entries, sorted_insertEntry t.sorted⟩

def lookupEntry (key : String) : List (String × Int64) → Option Int64
  | [] => none
  | (k, w) :: r => if key = k then some w else lookupEntry key r

/-- The weight of the name, in whatever case it is spelled. -/
def get? (t : WeightTable) (name : String) : Option Int64 :=
  lookupEntry (Text.lower name) t.entries

/-- The table of pairs that are inserted one after the other. -/
def ofList (pairs : List (String × Int64)) : WeightTable :=
  pairs.foldl (fun t p => t.insert p.1 p.2) empty

/-- The table that a written map denotes: its entries are inserted in the order of their keys as
they are written, so of several spellings of one name the greatest counts. -/
def ofWritten (pairs : List (String × Int64)) : WeightTable :=
  ofList (pairs.foldl (fun l p => insertEntry p.1 p.2 l) [])

/-! ## Reading an entry back -/

theorem lookupEntry_insertEntry (key k : String) (weight : Int64) (l : List (String × Int64)) :
    lookupEntry k (insertEntry key weight l) =
      if k = key then some weight else lookupEntry k l := by
  induction l with
  | nil => simp [insertEntry, lookupEntry]
  | cons a r ih =>
    obtain ⟨a, w⟩ := a
    simp only [insertEntry]
    split
    · simp [lookupEntry]
    · split
      · next heq =>
        subst heq
        by_cases hk : k = key <;> simp [lookupEntry, hk]
      · next hne =>
        by_cases hka : k = a
        · subst hka
          simp [lookupEntry, Ne.symm hne]
        · simp [lookupEntry, hka, ih]

/-- An insertion is seen under every spelling of the name and changes no other entry. -/
theorem get?_insert (t : WeightTable) (name other : String) (weight : Int64) :
    (t.insert name weight).get? other =
      if Text.lower other = Text.lower name then some weight else t.get? other := by
  simp only [get?, insert, lookupEntry_insertEntry]

end WeightTable

end EdgeRouting
