import EdgeRouting.Proofs.Names
import EdgeRouting.Proofs.Text.LowerCase
import EdgeRouting.Proofs.Weight.Written
import EdgeRouting.Weight.Shares

/-!
# Several spellings of one name

The keys of a written map differ, but several of them may spell one name. They are inserted in the
order of their bytes, so the last one that spells a name is the greatest
(`lastWeight_eq_some_iff_of_inOrder`), and that is the one that counts, in whatever order the map is
written (`decoded_countsGreatest`).

A capital of ASCII comes before its lower case. Of the spellings in ASCII the one in lower case is
thus the greatest (`lt_lower_of_isWord`).
-/

namespace EdgeRouting.WeightTable

variable {pairs order : List (String × Int64)} {p : String → Bool} {name key : String} {w : Int64}

/-! ## The greatest of the keys -/

theorem getLast?_eq_some_iff_of_inOrder {l : List (String × Int64)} (h : InOrder l)
    {e : String × Int64} : l.getLast? = some e ↔ e ∈ l ∧ ∀ e' ∈ l, e'.1 ≤ e.1 := by
  rcases l.eq_nil_or_concat' with rfl | ⟨r, last, rfl⟩
  · simp
  · have hlast : ∀ e' ∈ r, e'.1 < last.1 := by
      intro e' he'
      exact (List.pairwise_append.1 h).2.2 e' he' last (List.mem_singleton_self last)
    have hmem : last ∈ r ++ [last] := List.mem_append_right r (List.mem_singleton_self last)
    rw [List.getLast?_concat, Option.some.injEq]
    constructor
    · rintro rfl
      refine ⟨hmem, fun e' he' => ?_⟩
      rcases List.mem_append.1 he' with he' | he'
      · exact le_of_lt (hlast e' he')
      · rw [List.mem_singleton.1 he']
    · rintro ⟨he, hle⟩
      rcases List.mem_append.1 he with he | he
      · exact absurd (hle last hmem) (not_le_of_gt (hlast e he))
      · exact (List.mem_singleton.1 he).symm

theorem lastWeight_eq_some_iff_of_inOrder (h : InOrder pairs) : lastWeight p pairs = some w
    ↔ ∃ k, p k = true ∧ (k, w) ∈ pairs ∧ ∀ e ∈ pairs, p e.1 = true → e.1 ≤ k := by
  have hfiltered : InOrder (pairs.filter fun e => p e.1) := h.filter _
  unfold lastWeight
  constructor
  · intro hw
    obtain ⟨⟨k, w⟩, hlast, rfl⟩ := Option.map_eq_some_iff.1 hw
    obtain ⟨hmem, hle⟩ := (getLast?_eq_some_iff_of_inOrder hfiltered).1 hlast
    obtain ⟨hmem, hp⟩ := List.mem_filter.1 hmem
    exact ⟨k, hp, hmem, fun e he hpe => hle e (List.mem_filter.2 ⟨he, hpe⟩)⟩
  · rintro ⟨k, hp, hmem, hle⟩
    have hlast : (pairs.filter fun e => p e.1).getLast? = some (k, w) := by
      refine (getLast?_eq_some_iff_of_inOrder hfiltered).2
        ⟨List.mem_filter.2 ⟨hmem, hp⟩, fun e he => ?_⟩
      obtain ⟨he, hpe⟩ := List.mem_filter.1 he
      exact hle e he hpe
    rw [hlast, Option.map_some]

/-! ## Keys that differ -/

theorem mem_orderedMap_iff_of_nodup (h : (pairs.map (·.1)).Nodup) {e : String × Int64} :
    e ∈ orderedMap pairs ↔ e ∈ pairs := by
  obtain ⟨key, w⟩ := e
  rw [mem_orderedMap_iff, lastWeight_eq_some_iff]
  · simp
  · intro a ha b hb hpa hpb
    have hkey : a.1 = b.1 := (of_decide_eq_true hpa).trans (of_decide_eq_true hpb).symm
    exact List.inj_on_of_nodup_map h ha hb hkey

/-- The order in which a map is written does not matter. -/
theorem ofWritten_of_perm (h : (pairs.map (·.1)).Nodup) (horder : order.Perm pairs) :
    ofWritten order = ofWritten pairs := by
  have hnodup : (order.map (·.1)).Nodup := (horder.map _).nodup_iff.2 h
  have hmap : orderedMap order = orderedMap pairs := by
    refine entries_ext (inOrder_orderedMap order) (inOrder_orderedMap pairs) fun e => ?_
    rw [mem_orderedMap_iff_of_nodup hnodup, mem_orderedMap_iff_of_nodup h, horder.mem_iff]
  rw [ofWritten_eq, ofWritten_eq, hmap]

/-- The key with the greatest bytes among those that spell a name. -/
structure IsGreatestSpelling (pairs : List (String × Int64)) (name key : String) : Prop where
  mem_keys : key ∈ pairs.map (·.1)
  spells : Text.lower key = Text.lower name
  bytes_le : ∀ other ∈ pairs.map (·.1), Text.lower other = Text.lower name →
    Text.bytes other ≤ Text.bytes key

theorem get?_ofWritten_eq_some_iff (h : (pairs.map (·.1)).Nodup) :
    (ofWritten pairs).get? name = some w
      ↔ ∃ key, IsGreatestSpelling pairs name key ∧ (key, w) ∈ pairs := by
  rw [ofWritten_eq, get?_ofList, lastWeight_eq_some_iff_of_inOrder (inOrder_orderedMap pairs)]
  simp only [mem_orderedMap_iff_of_nodup h, decide_eq_true_eq]
  refine exists_congr fun key => ?_
  constructor
  · rintro ⟨hspells, hmem, hle⟩
    refine ⟨⟨List.mem_map_of_mem hmem, hspells, fun other hother hsame => ?_⟩, hmem⟩
    obtain ⟨e, he, rfl⟩ := List.mem_map.1 hother
    exact Text.le_iff_bytes_le.1 (hle e he hsame)
  · rintro ⟨⟨-, hspells, hle⟩, hmem⟩
    refine ⟨hspells, hmem, fun e he hsame => ?_⟩
    exact Text.le_iff_bytes_le.2 (hle e.1 (List.mem_map_of_mem he) hsame)

theorem get?_ofWritten_eq_none_iff (h : (pairs.map (·.1)).Nodup) :
    (ofWritten pairs).get? name = none ↔ ∀ e ∈ pairs, Text.lower e.1 ≠ Text.lower name := by
  rw [ofWritten_eq, get?_ofList, lastWeight_eq_none_iff]
  simp only [mem_orderedMap_iff_of_nodup h, decide_eq_true_eq, ne_eq]

/-! ## Spellings in ASCII -/

/-- A text of the characters that a name may have. -/
def IsWord (s : String) : Prop := ∀ c ∈ s.toList, isNameChar c = true

instance (s : String) : Decidable (IsWord s) :=
  decidable_of_iff (s.toList.all isNameChar = true) List.all_eq_true

theorem toLower_eq_or_lt {c : Char} (h : isNameChar c = true) : c.toLower = c ∨ c < c.toLower :=
  Text.ascii_induction (toNat_lt_of_isNameChar h) (by decide)

theorem map_toLower_eq_or_lt {s : List Char} (h : ∀ c ∈ s, isNameChar c = true) :
    s.map Char.toLower = s ∨ s < s.map Char.toLower := by
  induction s with
  | nil => exact .inl rfl
  | cons c r ih =>
      obtain ⟨hc, hr⟩ := List.forall_mem_cons.1 h
      rw [List.map_cons]
      rcases toLower_eq_or_lt hc with hsame | hlt
      · rw [hsame, List.cons_lt_cons_iff]
        exact (ih hr).imp (congrArg _) fun hlt => .inr ⟨rfl, hlt⟩
      · exact .inr (List.cons_lt_cons_iff.2 (.inl hlt))

theorem lt_lower_of_isWord (h : IsWord key) (hne : Text.lower key ≠ key) :
    key < Text.lower key := by
  have hascii : ∀ c ∈ key.toList, c.toNat < 0x80 := fun c hc => toNat_lt_of_isNameChar (h c hc)
  have hlower : (Text.lower key).toList = key.toList.map Char.toLower := by
    rw [Text.lower, String.toList_ofList, Text.lowerChars_ascii hascii]
  rw [String.lt_iff_toList_lt, hlower]
  refine (map_toLower_eq_or_lt h).resolve_left fun hsame => hne ?_
  rw [← hlower] at hsame
  exact String.toList_inj.1 hsame

/-! ## Decoding -/

/-- A table in which the greatest spelling of a name counts. -/
structure CountsGreatest (pairs : List (String × Int64)) (t : WeightTable) : Prop where
  get?_eq_some_iff : ∀ name w, t.get? name = some w
    ↔ ∃ key, IsGreatestSpelling pairs name key ∧ (key, w) ∈ pairs
  get?_eq_none_iff : ∀ name, t.get? name = none
    ↔ ∀ e ∈ pairs, Text.lower e.1 ≠ Text.lower name
  /-- Where a name is spelled in ASCII only, its lower case counts. -/
  get?_of_lower : ∀ e ∈ pairs, Text.lower e.1 = e.1 →
    (∀ other ∈ pairs, Text.lower other.1 = e.1 → IsWord other.1) →
    ∀ name, Text.lower name = e.1 → t.get? name = some e.2
  /-- Another spelling in ASCII never counts beside the lower case. -/
  not_greatest : ∀ e ∈ pairs, ∀ lowered ∈ pairs, IsWord e.1 → Text.lower e.1 = lowered.1 →
    e.1 ≠ lowered.1 → ∀ name, ¬ IsGreatestSpelling pairs name e.1
  /-- Each target has the weight of the greatest spelling of its name, or else the even share. -/
  weights : ∀ (targets : List Target) (i : Nat) (target : Target), targets[i]? = some target →
    (∀ key w, IsGreatestSpelling pairs target.name key → (key, w) ∈ pairs →
      (Shares.ofTargets targets t).weights[i]? = some w)
    ∧ ((∀ e ∈ pairs, Text.lower e.1 ≠ Text.lower target.name) →
      (Shares.ofTargets targets t).weights[i]? = some (evenShare targets.length))

theorem isGreatestSpelling_of_lower {e : String × Int64} (he : e ∈ pairs)
    (hlower : Text.lower e.1 = e.1)
    (hwords : ∀ other ∈ pairs, Text.lower other.1 = e.1 → IsWord other.1)
    (hname : Text.lower name = e.1) : IsGreatestSpelling pairs name e.1 where
  mem_keys := List.mem_map_of_mem he
  spells := hlower.trans hname.symm
  bytes_le := by
    intro _ hkey hsame
    obtain ⟨other, hother, rfl⟩ := List.mem_map.1 hkey
    have hspells : Text.lower other.1 = e.1 := hsame.trans hname
    rw [← Text.le_iff_bytes_le]
    by_cases heq : other.1 = e.1
    · exact le_of_eq heq
    · rw [← hspells] at heq ⊢
      exact le_of_lt (lt_lower_of_isWord (hwords other hother hspells) (Ne.symm heq))

theorem getElem?_weights {targets : List Target} {i : Nat} {target : Target}
    (h : targets[i]? = some target) (t : WeightTable) :
    (Shares.ofTargets targets t).weights[i]?
      = some ((t.get? target.name).getD (evenShare targets.length)) := by
  simp only [Shares.ofTargets, List.getElem?_map, h, Option.map_some, Shares.weightOf]

theorem countsGreatest_ofWritten (h : (pairs.map (·.1)).Nodup) :
    CountsGreatest pairs (ofWritten pairs) where
  get?_eq_some_iff _ _ := get?_ofWritten_eq_some_iff h
  get?_eq_none_iff _ := get?_ofWritten_eq_none_iff h
  get?_of_lower := by
    intro e he hlower hwords name hname
    exact (get?_ofWritten_eq_some_iff h).2
      ⟨e.1, isGreatestSpelling_of_lower he hlower hwords hname, he⟩
  not_greatest := by
    intro e he lowered hlowered hword hspells hne name hgreatest
    have hsame : Text.lower lowered.1 = Text.lower name := by
      rw [← hspells, Text.lower_lower, hgreatest.spells]
    have hle := hgreatest.bytes_le lowered.1 (List.mem_map_of_mem hlowered) hsame
    rw [← hspells] at hne hle
    exact absurd (lt_lower_of_isWord hword (Ne.symm hne))
      (not_lt_of_ge (Text.le_iff_bytes_le.2 hle))
  weights := by
    intro targets i target htarget
    rw [getElem?_weights htarget]
    constructor
    · intro key w hgreatest hmem
      rw [(get?_ofWritten_eq_some_iff h).2 ⟨key, hgreatest, hmem⟩, Option.getD_some]
    · intro hnone
      rw [(get?_ofWritten_eq_none_iff h).2 hnone, Option.getD_none]

/-- Pairs with keys that differ are decoded to one table, in whatever order they are written, and
the greatest spelling of a name counts in it. -/
theorem decoded_countsGreatest (pairs : List (String × Int64)) (h : (pairs.map (·.1)).Nodup) :
    ∃ t, (∀ order : List (String × Int64), order.Perm pairs →
        ofDocument? (written order) = some t)
      ∧ CountsGreatest pairs t := by
  refine ⟨ofWritten pairs, fun order horder => ?_, countsGreatest_ofWritten h⟩
  rw [ofDocument?_written, ofWritten_of_perm h horder]

/-! ### Three spellings of one name -/

def spelledWeights : List (String × Int64) :=
  [("Blue", 10), ("blue", 20), ("BLUE", 30), ("GREEN", 40)]

def redTarget : Target := ⟨"red", "10.0.0.3", "/api", ⟨"/api", [.literal "/api"]⟩, ""⟩

theorem decoded_countsGreatest_blue :
    (spelledWeights.map (·.1)).Nodup
      ∧ ∃ t, ofDocument? (written spelledWeights.reverse) = some t
        ∧ t.get? "bLUE" = some 20
        ∧ (Shares.ofTargets [redTarget] t).weights[0]? = some 100 := by
  have hnodup : (spelledWeights.map (·.1)).Nodup := by decide
  obtain ⟨t, hdecoded, hcounts⟩ := decoded_countsGreatest spelledWeights hnodup
  have hblue : t.get? "bLUE" = some 20 :=
    hcounts.get?_of_lower ("blue", 20) (by decide) (by decide) (by decide) "bLUE" (by decide)
  have hred : (Shares.ofTargets [redTarget] t).weights[0]? = some 100 :=
    (hcounts.weights [redTarget] 0 redTarget rfl).2 (by decide)
  exact ⟨hnodup, t, hdecoded _ (List.reverse_perm _), hblue, hred⟩

end EdgeRouting.WeightTable
