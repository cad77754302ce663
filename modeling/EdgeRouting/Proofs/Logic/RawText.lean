import Mathlib.Data.List.DropRight
import EdgeRouting.Logic.Render

/-!
# Raw text in written logic

Raw text is written line by line, each line behind the indentation of its block. What is written of
it are its lines that show anything, up to the last character that does (`renderRaw_eq`). So the
text is found again behind the indentation exactly when every one of its lines ends in a character
that shows (`blockText_keptLines_iff`): a line without any is lost, and so are blanks at the end of
one.
-/

namespace EdgeRouting.Logic

open Text (isBlank trimEndChars)

variable {s l : List Char} {lines : List (List Char)}

/-- A line whose last character shows. -/
def EndsVisibly (l : List Char) : Prop := ∃ hne : l ≠ [], isBlank (l.getLast hne) = false

instance (l : List Char) : Decidable (EndsVisibly l) :=
  inferInstanceAs (Decidable (∃ hne : l ≠ [], isBlank (l.getLast hne) = false))

/-- The lines of raw text as they are written. -/
def keptLines (s : List Char) : List (List Char) :=
  ((linesOf s).filter fun l => !l.all isBlank).map trimEndChars

/-- The text of lines, each behind an indentation and with a line break behind it. -/
def blockText (pad : String) (lines : List (List Char)) : String :=
  String.join (lines.map fun l => pad ++ String.ofList l ++ "\n")

theorem blockText_cons (pad : String) (l : List Char) (lines : List (List Char)) :
    blockText pad (l :: lines) = pad ++ String.ofList l ++ "\n" ++ blockText pad lines :=
  String.join_cons

theorem renderRaw_eq (pad text : String) :
    renderRaw pad text = blockText pad (keptLines text.toList) := by
  rw [renderRaw, blockText, keptLines, List.map_map]
  rfl

/-! ## Ends of lines -/

theorem trimEndChars_of_endsVisibly (h : EndsVisibly l) : trimEndChars l = l := by
  obtain ⟨_, hlast⟩ := h
  exact List.rdropWhile_eq_self_iff.2 fun _ => by rw [hlast]; decide

theorem all_isBlank_of_endsVisibly (h : EndsVisibly l) : l.all isBlank = false := by
  obtain ⟨hne, hlast⟩ := h
  exact List.all_eq_false.2 ⟨_, List.getLast_mem hne, by rw [hlast]; decide⟩

theorem endsVisibly_trimEndChars (h : l.all isBlank = false) : EndsVisibly (trimEndChars l) := by
  have hne : trimEndChars l ≠ [] := by
    intro hnil
    have hall : l.all isBlank = true := List.all_eq_true.2 (List.rdropWhile_eq_nil_iff.1 hnil)
    rw [hall] at h
    cases h
  exact ⟨hne, Bool.eq_false_iff.2 (List.rdropWhile_last_not isBlank l hne)⟩

theorem endsVisibly_of_mem_keptLines (h : l ∈ keptLines s) : EndsVisibly l := by
  obtain ⟨l', hl', rfl⟩ := List.mem_map.1 h
  exact endsVisibly_trimEndChars (by simpa using (List.mem_filter.1 hl').2)

theorem keptLines_eq_linesOf (h : ∀ l ∈ linesOf s, EndsVisibly l) : keptLines s = linesOf s := by
  have hfilter : (linesOf s).filter (fun l => !l.all isBlank) = linesOf s :=
    List.filter_eq_self.2 fun l hl => by rw [all_isBlank_of_endsVisibly (h l hl)]; rfl
  rw [keptLines, hfilter, List.map_congr_left fun l hl => trimEndChars_of_endsVisibly (h l hl),
    List.map_id']

/-! ## Lines of a text -/

theorem linesOf_cons_newline (s : List Char) : linesOf ('\n' :: s) = [] :: linesOf s := by
  rw [linesOf, if_pos rfl]

theorem linesOf_cons_of_ne {c : Char} (hc : c ≠ '\n') (s : List Char) :
    linesOf (c :: s) = (c :: (linesOf s).head?.getD []) :: (linesOf s).tail := by
  rw [linesOf, if_neg hc]
  cases linesOf s <;> rfl

theorem eq_nil_of_linesOf_eq_nil (h : linesOf s = []) : s = [] := by
  cases s with
  | nil => rfl
  | cons c r =>
      by_cases hc : c = '\n'
      · rw [hc, linesOf_cons_newline] at h
        cases h
      · rw [linesOf_cons_of_ne hc] at h
        cases h

theorem newline_not_mem_linesOf (s : List Char) : ∀ l ∈ linesOf s, '\n' ∉ l := by
  induction s with
  | nil => simp [linesOf]
  | cons c r ih =>
      by_cases hc : c = '\n'
      · rw [hc, linesOf_cons_newline]
        exact List.forall_mem_cons.2 ⟨List.not_mem_nil, ih⟩
      · rw [linesOf_cons_of_ne hc]
        cases hr : linesOf r with
        | nil => simpa using Ne.symm hc
        | cons l ls =>
            rw [hr] at ih
            obtain ⟨hl, hls⟩ := List.forall_mem_cons.1 ih
            exact List.forall_mem_cons.2 ⟨List.not_mem_cons_of_ne_of_not_mem (Ne.symm hc) hl, hls⟩

theorem newline_not_mem_keptLines (h : l ∈ keptLines s) : '\n' ∉ l := by
  obtain ⟨l', hl', rfl⟩ := List.mem_map.1 h
  intro hmem
  exact newline_not_mem_linesOf s l' (List.mem_filter.1 hl').1
    ((List.rdropWhile_prefix isBlank l').subset hmem)

/-- A line in front of a line break is a line of its own. -/
theorem linesOf_append_newline (h : '\n' ∉ l) (s : List Char) :
    linesOf (l ++ '\n' :: s) = l :: linesOf s := by
  induction l with
  | nil => exact linesOf_cons_newline s
  | cons c r ih =>
      have hc : c ≠ '\n' := fun hc => h (hc ▸ List.mem_cons_self)
      rw [List.cons_append, linesOf_cons_of_ne hc, ih fun hr => h (List.mem_cons_of_mem _ hr)]
      rfl

theorem toList_blockText_cons (l : List Char) (lines : List (List Char)) :
    (blockText "" (l :: lines)).toList = l ++ '\n' :: (blockText "" lines).toList := by
  rw [blockText_cons, String.empty_append, String.toList_append, String.toList_append,
    String.toList_ofList, List.append_assoc]
  rfl

/-- Without their indentation, the lines of a block are found again. -/
theorem linesOf_blockText (h : ∀ l ∈ lines, '\n' ∉ l) :
    linesOf (blockText "" lines).toList = lines := by
  induction lines with
  | nil => rfl
  | cons l r ih =>
      obtain ⟨hl, hr⟩ := List.forall_mem_cons.1 h
      rw [toList_blockText_cons, linesOf_append_newline hl, ih hr]

/-- The lines of a text are the text again, but for a line break at its end. -/
theorem toList_blockText_linesOf (s : List Char) :
    (blockText "" (linesOf s)).toList = s ∨ (blockText "" (linesOf s)).toList = s ++ ['\n'] := by
  induction s with
  | nil => exact .inl rfl
  | cons c r ih =>
      by_cases hc : c = '\n'
      · rw [hc, linesOf_cons_newline, toList_blockText_cons]
        exact ih.imp (congrArg ('\n' :: ·)) (congrArg ('\n' :: ·))
      · rw [linesOf_cons_of_ne hc]
        cases hr : linesOf r with
        | nil =>
            obtain rfl := eq_nil_of_linesOf_eq_nil hr
            exact .inr (toList_blockText_cons [c] [])
        | cons l ls =>
            rw [hr, toList_blockText_cons] at ih
            rw [toList_blockText_cons]
            exact ih.imp (congrArg (c :: ·)) (congrArg (c :: ·))

theorem linesOf_prefix_append_newline (s : List Char) : linesOf s <+: linesOf (s ++ ['\n']) := by
  induction s with
  | nil => exact List.nil_prefix
  | cons c r ih =>
      by_cases hc : c = '\n'
      · rw [hc, List.cons_append, linesOf_cons_newline, linesOf_cons_newline]
        exact List.prefix_cons_inj _ |>.2 ih
      · rw [List.cons_append, linesOf_cons_of_ne hc, linesOf_cons_of_ne hc]
        cases hr : linesOf r with
        | nil =>
            obtain rfl := eq_nil_of_linesOf_eq_nil hr
            exact List.prefix_rfl
        | cons l ls =>
            rw [hr] at ih
            obtain ⟨rest, hrest⟩ := ih
            rw [← hrest]
            exact ⟨rest, rfl⟩

/-- A text is found again in what is written of it, but for a line break at its end, exactly when
all its lines end in a character that shows. -/
theorem blockText_keptLines_iff :
    ((blockText "" (keptLines s)).toList = s ∨ (blockText "" (keptLines s)).toList = s ++ ['\n'])
      ↔ ∀ l ∈ linesOf s, EndsVisibly l := by
  have hfound : linesOf (blockText "" (keptLines s)).toList = keptLines s :=
    linesOf_blockText fun l hl => newline_not_mem_keptLines hl
  constructor
  · rintro (h | h) l hl
    · rw [h] at hfound
      exact endsVisibly_of_mem_keptLines (hfound ▸ hl)
    · rw [h] at hfound
      exact endsVisibly_of_mem_keptLines (hfound ▸ (linesOf_prefix_append_newline s).subset hl)
  · intro h
    rw [keptLines_eq_linesOf h]
    exact toList_blockText_linesOf s

end EdgeRouting.Logic
