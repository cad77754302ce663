import EdgeRouting.Logic.Lexeme

/-!
# Scanning written logic

What the scanner makes of pieces of text, whatever stands behind them. A text scans to lexemes when
these are found in front of what is found in the rest (`Scans`), so pieces can be scanned one by
one. A text without quotation marks and opening braces is outside from its first character to its
last.

A string constant is one lexeme. A plain one ends at its closing mark because there is no mark in
it. A long one ends at its closing delimiter because that does not occur in it, and an occurrence
cannot begin in the string and end behind it: a delimiter has a quotation mark in front and nowhere
else (`prefix_of_prefix_append`).
-/

namespace EdgeRouting.Logic

/-! ## The scanner -/

theorem lexemes?_nil : lexemes? [] = some [] := by rw [lexemes?]

theorem lexemes?_outside {c : Char} (hquote : c ≠ '"') (hbrace : c ≠ '\x7b') (r : List Char) :
    lexemes? (c :: r) = (lexemes? r).map (.outside c :: ·) := by
  rw [lexemes?]
  · exact hquote
  · exact hbrace

theorem lexemes?_plain {r body rest : List Char} (h : untilEnding ['"'] r = some (body, rest)) :
    lexemes? ('"' :: r) = (lexemes? rest).map (.plain body :: ·) := by
  rw [lexemes?]
  split
  · next hnone =>
    rw [h] at hnone
    cases hnone
  · next p hp =>
    rw [h] at hp
    obtain rfl := Option.some.inj hp
    rfl

theorem lexemes?_brace {r : List Char} (h : longOpening? r = none) :
    lexemes? ('\x7b' :: r) = (lexemes? r).map (.outside '\x7b' :: ·) := by
  rw [lexemes?]
  split
  · rfl
  · next o ho =>
    rw [h] at ho
    cases ho

theorem lexemes?_long {r letters s body rest : List Char}
    (hopening : longOpening? r = some (letters, s))
    (h : untilEnding ('"' :: letters ++ ['\x7d']) s = some (body, rest)) :
    lexemes? ('\x7b' :: r) = (lexemes? rest).map (.long body :: ·) := by
  rw [lexemes?]
  split
  · next hnone =>
    rw [hopening] at hnone
    cases hnone
  · next o ho =>
    rw [hopening] at ho
    obtain rfl := Option.some.inj ho
    split
    · next hnone =>
      rw [h] at hnone
      cases hnone
    · next p hp =>
      rw [h] at hp
      obtain rfl := Option.some.inj hp
      rfl

/-! ## Endings -/

/-- An occurrence that begins in a text ends in it, if the character in front of the pattern is
nowhere else in the pattern. -/
theorem prefix_of_prefix_append {q : Char} {tail b r : List Char} (hq : q ∉ tail) (hb : b ≠ [])
    (h : q :: tail <+: b ++ q :: r) : q :: tail <+: b := by
  rcases Nat.lt_or_ge b.length (q :: tail).length with hlt | hge
  · -- The pattern would reach the character behind the text, which is its own first one.
    exfalso
    obtain ⟨c, b, rfl⟩ := List.exists_cons_of_ne_nil hb
    have hprefix : c :: b ++ [q] <+: q :: tail := by
      refine List.prefix_of_prefix_length_le ⟨r, by simp⟩ h ?_
      rw [List.length_append]
      exact hlt
    obtain ⟨u, hu⟩ := hprefix
    refine hq ?_
    rw [← (List.cons.inj hu).2]
    simp
  · exact List.prefix_of_prefix_length_le h (List.prefix_append _ _) hge

/-- A string ends where its ending stands, if that does not occur before. -/
theorem untilEnding_append {q : Char} {tail body : List Char} (hq : q ∉ tail)
    (hbody : ¬ q :: tail <:+: body) (rest : List Char) :
    untilEnding (q :: tail) (body ++ (q :: tail ++ rest)) = some (body, rest) := by
  induction body with
  | nil =>
      rw [List.nil_append, List.cons_append, untilEnding, if_pos]
      · simp
      · simp
  | cons c body ih =>
      have hnot : ¬ q :: tail <+: c :: body ++ q :: (tail ++ rest) := fun h =>
        hbody (prefix_of_prefix_append hq (List.cons_ne_nil _ _) h).isInfix
      have hrest : ¬ q :: tail <:+: body := fun h =>
        hbody (h.trans (List.suffix_cons c body).isInfix)
      rw [List.cons_append, untilEnding, if_neg, ih hrest]
      · rfl
      · exact fun h => hnot (List.isPrefixOf_iff_prefix.1 h)

/-! ## Pieces of text -/

/-- A piece of text scans to lexemes, whatever stands behind it. -/
def Scans (t : List Char) (l : List Lexeme) : Prop :=
  ∀ rest, lexemes? (t ++ rest) = (lexemes? rest).map (l ++ ·)

theorem Scans.append {t t' : List Char} {l l' : List Lexeme} (h : Scans t l) (h' : Scans t' l') :
    Scans (t ++ t') (l ++ l') := by
  intro rest
  rw [List.append_assoc, h, h', Option.map_map]
  simp [Function.comp_def]

theorem Scans.lexemes? {t : List Char} {l : List Lexeme} (h : Scans t l) :
    lexemes? t = some l := by
  have hall := h []
  rwa [List.append_nil, lexemes?_nil, Option.map_some, List.append_nil] at hall

theorem scans_nil : Scans [] [] := by
  intro rest
  simp

theorem scans_outside {t : List Char} (h : ∀ c ∈ t, c ≠ '"' ∧ c ≠ '\x7b') :
    Scans t (t.map .outside) := by
  induction t with
  | nil => exact scans_nil
  | cons c t ih =>
      obtain ⟨⟨hquote, hbrace⟩, ht⟩ := List.forall_mem_cons.1 h
      intro rest
      rw [List.cons_append, lexemes?_outside hquote hbrace, ih ht, Option.map_map]
      rfl

/-- A brace with a line break behind it opens no string. -/
theorem scans_opening : Scans ['\x7b', '\n'] [.outside '\x7b', .outside '\n'] := by
  intro rest
  have hnone : longOpening? ('\n' :: rest) = none := by
    unfold longOpening?
    rw [List.dropWhile_cons_of_neg (by decide)]
    rfl
  show lexemes? ('\x7b' :: '\n' :: rest) = _
  rw [lexemes?_brace hnone, lexemes?_outside (by decide) (by decide), Option.map_map]
  rfl

/-! ## String constants -/

/-- The lexeme of a string constant. -/
def literalLexeme (s : List Char) : Lexeme := if isPlainText s then .plain s else .long s

theorem scans_plain {s : List Char} (h : '"' ∉ s) : Scans ('"' :: s ++ ['"']) [.plain s] := by
  intro rest
  have hending : untilEnding ['"'] (s ++ (['"'] ++ rest)) = some (s, rest) := by
    refine untilEnding_append List.not_mem_nil (fun hinfix => h ?_) rest
    exact hinfix.subset List.mem_cons_self
  rw [List.append_assoc, List.cons_append, lexemes?_plain hending]
  rfl

theorem isAlpha_of_mem_replicate {n : Nat} : ∀ c ∈ List.replicate n 'E', c.isAlpha = true := by
  intro c hc
  obtain rfl := List.eq_of_mem_replicate hc
  decide

theorem longOpening?_replicate (n : Nat) (s : List Char) :
    longOpening? (List.replicate n 'E' ++ '"' :: s) = some (List.replicate n 'E', s) := by
  unfold longOpening?
  rw [List.dropWhile_append_of_pos isAlpha_of_mem_replicate,
    List.dropWhile_cons_of_neg (by decide),
    List.takeWhile_append_of_pos isAlpha_of_mem_replicate,
    List.takeWhile_cons_of_neg (by decide), List.append_nil]
  rfl

theorem quote_not_mem_ending (n : Nat) : '"' ∉ List.replicate n 'E' ++ ['\x7d'] := by
  simp

theorem not_infix_longEnding (s : List Char) : ¬ longEnding (shortestRun s 0) <:+: s := by
  intro hinfix
  have hnot := not_occurs_shortestRun s 0
  rw [Text.occurs_iff.2 hinfix] at hnot
  cases hnot

theorem untilEnding_longEnding (s rest : List Char) :
    untilEnding (longEnding (shortestRun s 0)) (s ++ (longEnding (shortestRun s 0) ++ rest))
      = some (s, rest) :=
  untilEnding_append (quote_not_mem_ending _) (not_infix_longEnding s) rest

theorem scans_longLiteral (s : List Char) : Scans (longLiteral s) [.long s] := by
  intro rest
  have htext : longLiteral s ++ rest = '\x7b' :: (List.replicate (shortestRun s 0) 'E'
      ++ '"' :: (s ++ (longEnding (shortestRun s 0) ++ rest))) := by
    simp [longLiteral]
  rw [htext, lexemes?_long (longOpening?_replicate _ _) (untilEnding_longEnding s rest)]
  rfl

theorem scans_literalChars (s : List Char) : Scans (literalChars s) [literalLexeme s] := by
  unfold literalChars literalLexeme
  split
  · next h =>
    refine scans_plain fun hmem => ?_
    simp [isPlainText, hmem] at h
  · exact scans_longLiteral s

end EdgeRouting.Logic
