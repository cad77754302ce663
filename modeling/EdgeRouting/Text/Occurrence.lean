/-!
# Occurrences

Whether one text occurs in another.
-/

namespace EdgeRouting.Text

def occurs (pattern : List Char) : List Char → Bool
  | [] => pattern.isEmpty
  | c :: r => pattern.isPrefixOf (c :: r) || occurs pattern r

/-- A text occurs in exactly those texts of which it is a contiguous piece. -/
theorem occurs_iff {pattern s : List Char} : occurs pattern s = true ↔ pattern <:+: s := by
  induction s with
  | nil => cases pattern <;> simp [occurs]
  | cons c r ih =>
    rw [occurs, Bool.or_eq_true, List.isPrefixOf_iff_prefix, ih, List.infix_cons_iff]

end EdgeRouting.Text
