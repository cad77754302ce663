import EdgeRouting.Proofs.Selection.Pairs

/-!
# Sub-fields of written pairs

What is read of pairs that were written is what a look-up in the pairs gives, in whichever way pairs
with empty values are written (`subfield_listText`). A list is cut at its separators before a pair
is cut at its first equals sign, so what is compared with a key has neither in it, and a key with
one of them is found nowhere (`subfield_eq_none`).
-/

namespace EdgeRouting.Selection

/-- A pair as it is written in full. -/
def pairText (pair : String × String) : List Char := pair.1.toList ++ '=' :: pair.2.toList

/-- Pairs as they are written in full, with separators between them. -/
def listText (separator : Char) (pairs : List (String × String)) : String :=
  String.ofList (Text.joinPieces [separator] (pairs.map pairText))

variable {separator : Char} {pairs : List (String × String)} {key : String}

theorem equals_not_mem_pairKey (piece : List Char) : '=' ∉ pairKey piece := by
  intro h
  have hne := List.mem_takeWhile_imp h
  simp at hne

theorem pairKey_subset (piece : List Char) : pairKey piece ⊆ piece :=
  (List.takeWhile_prefix _).subset

/-- A key that no pair can have is found in no source. -/
theorem subfield_eq_none (h : '=' ∈ key.toList ∨ separator ∈ key.toList) (source : String) :
    subfield source key separator = none := by
  rw [subfield, subfieldChars, Option.map_eq_none_iff, Option.map_eq_none_iff, List.find?_eq_none]
  intro piece hpiece hkey
  rw [← eq_of_beq hkey] at h
  rcases h with hequals | hseparator
  · exact equals_not_mem_pairKey piece hequals
  · exact Text.not_mem_of_mem_pieces hpiece (pairKey_subset piece hseparator)

theorem listsPairs_listText (hkeys : ∀ e ∈ pairs, '=' ∉ e.1.toList ∧ separator ∉ e.1.toList)
    (hvalues : ∀ e ∈ pairs, separator ∉ e.2.toList) :
    ListsPairs separator (listText separator pairs) pairs where
  spelled := by
    refine ⟨pairs.map pairText, String.toList_ofList, ?_⟩
    rw [List.forall₂_map_left_iff, List.forall₂_same]
    exact fun _ _ => .inl rfl
  keys := hkeys
  values := hvalues

/-- Written pairs are read as a look-up in them: the value of the first pair with the key is found,
and nothing if there is no such pair. It makes no difference which of the pairs with empty values
are written as bare keys. A key with an equals sign or a separator in it is not found in any text. -/
theorem subfield_listText (separator : Char) (key : String) :
    (∀ pairs : List (String × String), separator ≠ '=' → pairs ≠ [] →
        (∀ e ∈ pairs, '=' ∉ e.1.toList ∧ separator ∉ e.1.toList) →
        (∀ e ∈ pairs, separator ∉ e.2.toList) →
        subfield (listText separator pairs) key separator = pairs.lookup key
          ∧ ∀ source, ListsPairs separator source pairs →
            subfield source key separator = subfield (listText separator pairs) key separator)
      ∧ ('=' ∈ key.toList ∨ separator ∈ key.toList →
        ∀ source, subfield source key separator = none) := by
  refine ⟨fun pairs hseparator hne hkeys hvalues => ?_, subfield_eq_none⟩
  have hfull : subfield (listText separator pairs) key separator = pairs.lookup key :=
    subfield_eq_lookup hseparator (listsPairs_listText hkeys hvalues) (.inl hne)
  exact ⟨hfull, fun source hsource =>
    (subfield_eq_lookup hseparator hsource (.inl hne)).trans hfull.symm⟩

/-- Pairs with an empty key, with empty values, with an equals sign in a value and with one key
twice. -/
def flagPairs : List (String × String) :=
  [("flag", ""), ("x", "a=b"), ("", ""), ("env", "green"), ("env", "blue")]

/-- With and without the equals signs behind the keys that have no value, the first `env` is read. A
key that looks like a pair is not found, though it stands in the text. -/
theorem subfield_flagPairs :
    subfield "flag=&x=a=b&=&env=green&env=blue" "env" '&' = some "green"
      ∧ subfield "flag&x=a=b&&env=green&env=blue" "env" '&' = some "green"
      ∧ subfield "flag&x=a=b&&env=green&env=blue" "x=a" '&' = none := by
  have hkeys : ∀ e ∈ flagPairs, '=' ∉ e.1.toList ∧ '&' ∉ e.1.toList := by decide
  have hvalues : ∀ e ∈ flagPairs, '&' ∉ e.2.toList := by decide
  have hbare : ListsPairs '&' "flag&x=a=b&&env=green&env=blue" flagPairs := by
    refine ⟨⟨["flag".toList, "x=a=b".toList, [], "env=green".toList, "env=blue".toList], ?_,
      .cons ?_ (.cons ?_ (.cons ?_ (.cons ?_ (.cons ?_ .nil))))⟩, hkeys, hvalues⟩
    · decide
    · exact .inr ⟨rfl, rfl⟩
    · exact .inl (by decide)
    · exact .inr ⟨rfl, rfl⟩
    · exact .inl (by decide)
    · exact .inl (by decide)
  have hseparator : '&' ≠ '=' := by decide
  have hne : flagPairs ≠ [] := List.cons_ne_nil _ _
  obtain ⟨hfull, hsame⟩ :=
    (subfield_listText '&' "env").1 flagPairs hseparator hne hkeys hvalues
  have htext : listText '&' flagPairs = "flag=&x=a=b&=&env=green&env=blue" := by decide
  have hgreen : flagPairs.lookup "env" = some "green" := by decide
  rw [htext, hgreen] at hfull
  rw [htext, hfull] at hsame
  exact ⟨hfull, hsame _ hbare, (subfield_listText '&' "x=a").2 (.inl (by decide)) _⟩

end EdgeRouting.Selection
