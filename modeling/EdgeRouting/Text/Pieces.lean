/-!
# Pieces of a text

A text is cut at every separator, and put together again with separators between the pieces.
-/

namespace EdgeRouting.Text

/-- The pieces of a text between separators; there is always one more piece than separators. -/
def pieces (separator : Char) : List Char → List (List Char)
  | [] => [[]]
  | c :: r =>
    if c = separator then [] :: pieces separator r
    else match pieces separator r with
      | [] => [[c]]
      | p :: ps => (c :: p) :: ps

/-- The text of pieces with a separator between them. -/
def joinPieces (separator : List Char) : List (List Char) → List Char
  | [] => []
  | [p] => p
  | p :: ps => p ++ separator ++ joinPieces separator ps

theorem pieces_ne_nil (separator : Char) (s : List Char) : pieces separator s ≠ [] := by
  cases s with
  | nil => simp [pieces]
  | cons c r =>
    simp only [pieces]
    split
    · simp
    · split <;> simp

/-- No piece has the separator in it. -/
theorem not_mem_of_mem_pieces {separator : Char} {s p : List Char} (h : p ∈ pieces separator s) :
    separator ∉ p := by
  induction s generalizing p with
  | nil =>
    obtain rfl := List.mem_singleton.1 h
    exact List.not_mem_nil
  | cons c r ih =>
    obtain ⟨q, qs, hr⟩ := List.exists_cons_of_ne_nil (pieces_ne_nil separator r)
    rw [hr] at ih
    rw [pieces, hr] at h
    split at h
    · rcases List.mem_cons.1 h with rfl | h
      · exact List.not_mem_nil
      · exact ih h
    · next hc =>
      rcases List.mem_cons.1 h with rfl | h
      · rw [List.mem_cons, not_or]
        exact ⟨Ne.symm hc, ih List.mem_cons_self⟩
      · exact ih (List.mem_cons_of_mem q h)

/-- A text without separators is one piece, and a separator begins a new one. -/
theorem pieces_append (separator : Char) {s : List Char} (h : separator ∉ s) (r : List Char) :
    pieces separator (s ++ separator :: r) = s :: pieces separator r := by
  induction s with
  | nil => simp [pieces]
  | cons c s ih =>
    have hc : c ≠ separator := fun hc => h (by simp [hc])
    rw [List.cons_append, pieces, if_neg hc, ih fun hs => h (by simp [hs])]

theorem pieces_of_not_mem (separator : Char) {s : List Char} (h : separator ∉ s) :
    pieces separator s = [s] := by
  induction s with
  | nil => rfl
  | cons c s ih =>
    have hc : c ≠ separator := fun hc => h (by simp [hc])
    rw [pieces, if_neg hc, ih fun hs => h (by simp [hs])]

/-- Pieces without separators are found again in the text that they are put together to. -/
theorem pieces_joinPieces (separator : Char) {ps : List (List Char)} (hne : ps ≠ [])
    (h : ∀ p ∈ ps, separator ∉ p) : pieces separator (joinPieces [separator] ps) = ps := by
  induction ps with
  | nil => exact absurd rfl hne
  | cons p r ih =>
    have hp : separator ∉ p := h p (by simp)
    cases r with
    | nil => exact pieces_of_not_mem separator hp
    | cons q r =>
      have hjoin : joinPieces [separator] (p :: q :: r)
          = p ++ separator :: joinPieces [separator] (q :: r) := by simp [joinPieces]
      rw [hjoin, pieces_append separator hp, ih (by simp) fun s hs => h s (by simp [hs])]

end EdgeRouting.Text
