import EdgeRouting.Logic.Eval
import EdgeRouting.Proofs.Logic.Match
import EdgeRouting.Selection.Logic

/-!
# The override at the edge

At the edge an override is a text: the sub-field of the header, empty when there is none. In a
selection it is an optional token. The lemmas here say that the two agree: the text is the token or
empty, a token is never empty, and a visible character is in the text exactly when there is a token,
provided the header is on one line.
-/

namespace EdgeRouting.Selection

/-! ## Characters of a sub-field -/

theorem mem_of_mem_pieces {separator c : Char} {s p : List Char}
    (hp : p ∈ Text.pieces separator s) (hc : c ∈ p) : c ∈ s := by
  induction s generalizing p with
  | nil =>
      obtain rfl : p = [] := by simpa [Text.pieces] using hp
      exact hc
  | cons d r ih =>
      rw [Text.pieces] at hp
      split at hp
      · rcases List.mem_cons.1 hp with rfl | hp
        · cases hc
        · exact List.mem_cons_of_mem _ (ih hp hc)
      · split at hp
        · next heq => exact absurd heq (Text.pieces_ne_nil separator r)
        · next q qs heq =>
          rcases List.mem_cons.1 hp with rfl | hp
          · rcases List.mem_cons.1 hc with rfl | hc
            · exact List.mem_cons_self
            · exact List.mem_cons_of_mem _ (ih (heq ▸ List.mem_cons_self) hc)
          · exact List.mem_cons_of_mem _ (ih (heq ▸ List.mem_cons_of_mem _ hp) hc)

theorem mem_of_mem_pairValue {c : Char} {piece : List Char} (h : c ∈ pairValue piece) :
    c ∈ piece :=
  (List.dropWhile_sublist _).subset (List.mem_of_mem_drop h)

theorem mem_of_subfield {source key value : String} {separator c : Char}
    (h : subfield source key separator = some value) (hc : c ∈ value.toList) :
    c ∈ source.toList := by
  obtain ⟨chars, hchars, rfl⟩ := Option.map_eq_some_iff.1 h
  obtain ⟨piece, hpiece, rfl⟩ := Option.map_eq_some_iff.1 hchars
  rw [String.toList_ofList] at hc
  exact mem_of_mem_pieces (List.mem_of_find?_eq_some hpiece) (mem_of_mem_pairValue hc)

/-! ## The token -/

/-- The override that a request carries. -/
def tokenOf (lock : Option String) : Option String := lock.bind overrideToken

theorem tokenOf_eq_some {lock : Option String} {token : String} (h : tokenOf lock = some token) :
    token ≠ "" ∧ ∃ header, lock = some header
      ∧ subfield header overrideKey overrideSeparator = some token := by
  obtain ⟨header, rfl, htoken⟩ := Option.bind_eq_some_iff.1 h
  obtain ⟨hfield, hne⟩ := Option.filter_eq_some_iff.1 htoken
  exact ⟨by simpa using hne, header, rfl, hfield⟩

/-- The text that the edge compares keys with is the token, or empty when there is none. -/
theorem subfieldText_lock (lock : Option String) :
    Logic.subfieldText (lock.getD "") overrideKey (String.singleton overrideSeparator)
      = (tokenOf lock).getD "" := by
  have hsep : (String.singleton overrideSeparator).toList = [overrideSeparator] := by simp
  unfold Logic.subfieldText
  rw [hsep]
  cases lock with
  | none => decide
  | some header =>
      show (subfield header overrideKey overrideSeparator).getD ""
        = ((subfield header overrideKey overrideSeparator).filter (· ≠ "")).getD ""
      cases subfield header overrideKey overrideSeparator with
      | none => rfl
      | some value => by_cases h : value = "" <;> simp [Option.filter, h]

/-- On one line, a visible character is found exactly when there is a token. -/
theorem find?_presence_eq_none_iff {lock : Option String}
    (hline : ∀ header, lock = some header → '\n' ∉ header.toList) :
    Selector.presencePattern.find? ((tokenOf lock).getD "") = none ↔ tokenOf lock = none := by
  unfold Selector.presencePattern
  rw [Logic.Pattern.find?_visible_eq_none_iff]
  cases htoken : tokenOf lock with
  | none => simp
  | some token =>
      obtain ⟨hne, header, rfl, hfield⟩ := tokenOf_eq_some htoken
      have hchars : token.toList ≠ [] := fun h => hne (by simpa using h)
      obtain ⟨c, hc⟩ := List.exists_mem_of_ne_nil _ hchars
      simp only [Option.getD_some, reduceCtorEq, iff_false]
      intro hall
      exact hline header rfl (hall c hc ▸ mem_of_subfield hfield hc)

end EdgeRouting.Selection
