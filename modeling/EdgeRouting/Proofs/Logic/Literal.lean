import Mathlib.Data.Finset.Card
import EdgeRouting.Proofs.Logic.Scan

/-!
# String constants read back

The run of letters around a long string is lengthened as long as its ending occurs in the text, so
the endings of all shorter runs occur and its own does not (`shortestRun_spec`). Endings of different
runs begin at different quotation marks. A text has therefore no more of them than quotation marks
(`card_le_count_quote`), and that many letters are always enough.

Behind the text the ending occurs once: it has a quotation mark in front and nowhere else, so an
occurrence that begins in the text ends in it, where there is none (`append_ending_eq_iff`). A
reader that stops at the first ending has then read the text, and a constant has no other text
(`literal_readsBack`).
-/

namespace EdgeRouting.Logic

variable {s t : List Char} {m n : Nat}

/-! ## Runs -/

theorem longEnding_infix_of_lt_shortestRun (s : List Char) (n : Nat) :
    ∀ k, n ≤ k → k < shortestRun s n → longEnding k <:+: s := by
  fun_induction shortestRun s n with
  | case1 n h _ ih =>
      intro k hn hk
      rcases Nat.eq_or_lt_of_le hn with rfl | hlt
      · exact Text.occurs_iff.1 h
      · exact ih k hlt hk
  | case2 n h =>
      intro k hn hk
      exact absurd hk (Nat.not_lt.2 hn)

/-- The run is the shortest one whose ending does not occur in the text. -/
theorem shortestRun_spec (s : List Char) :
    ¬ longEnding (shortestRun s 0) <:+: s ∧ ∀ k < shortestRun s 0, longEnding k <:+: s :=
  ⟨not_infix_longEnding s, fun k => longEnding_infix_of_lt_shortestRun s 0 k (Nat.zero_le k)⟩

/-- The characters of an ending up to its brace. -/
theorem takeWhile_longEnding (h : longEnding n <+: s) :
    s.takeWhile (· ≠ '\x7d') = '"' :: List.replicate n 'E' := by
  obtain ⟨r, rfl⟩ := h
  have hrun : ∀ c ∈ '"' :: List.replicate n 'E', decide (c ≠ '\x7d') = true := by
    intro c hc
    rcases List.mem_cons.1 hc with rfl | hc
    · decide
    · obtain rfl := List.eq_of_mem_replicate hc
      decide
  rw [longEnding, List.append_assoc, List.takeWhile_append_of_pos hrun, List.singleton_append,
    List.takeWhile_cons_of_neg (by decide), List.append_nil]

/-- No two endings begin at the same place. -/
theorem longEnding_prefix_inj (hm : longEnding m <+: s) (hn : longEnding n <+: s) : m = n := by
  have heq := (takeWhile_longEnding hm).symm.trans (takeWhile_longEnding hn)
  simpa using congrArg List.length heq

/-- A text has no more endings of different runs in it than quotation marks. -/
theorem card_le_count_quote {s : List Char} (runs : Finset Nat)
    (h : ∀ n ∈ runs, longEnding n <:+: s) : runs.card ≤ s.count '"' := by
  induction s generalizing runs with
  | nil =>
      have hempty : runs = ∅ := Finset.eq_empty_of_forall_notMem fun n hn => by
        simpa [longEnding] using List.infix_nil.1 (h n hn)
      rw [hempty]
      exact Nat.zero_le _
  | cons c r ih =>
      by_cases hfirst : ∃ n ∈ runs, longEnding n <+: c :: r
      · -- Of the endings only this one begins at the first character.
        obtain ⟨n, hn, hprefix⟩ := hfirst
        have hquote : '"' = c := (List.cons_prefix_cons.1 hprefix).1
        have hrest := ih (runs.erase n) fun k hk => by
          obtain ⟨hne, hk⟩ := Finset.mem_erase.1 hk
          rcases List.infix_cons_iff.1 (h k hk) with hprefix' | hinfix
          · exact absurd (longEnding_prefix_inj hprefix' hprefix) hne
          · exact hinfix
        have hcard := Finset.card_erase_add_one hn
        rw [← hquote, List.count_cons_self]
        omega
      · refine (ih runs fun k hk => ?_).trans List.count_le_count_cons
        rcases List.infix_cons_iff.1 (h k hk) with hprefix | hinfix
        · exact absurd ⟨k, hk, hprefix⟩ hfirst
        · exact hinfix

theorem shortestRun_le_count_quote (s : List Char) : shortestRun s 0 ≤ s.count '"' := by
  have hcard := card_le_count_quote (Finset.range (shortestRun s 0)) fun n hn =>
    (shortestRun_spec s).2 n (Finset.mem_range.1 hn)
  rwa [Finset.card_range] at hcard

/-! ## Endings -/

/-- Behind a text in which it does not occur, an ending occurs once. -/
theorem append_ending_eq_iff {q : Char} {tail body : List Char} (hq : q ∉ tail)
    (hbody : ¬ q :: tail <:+: body) {before after : List Char} :
    body ++ q :: tail = before ++ q :: tail ++ after ↔ before = body ∧ after = [] := by
  constructor
  · intro h
    rw [List.append_assoc] at h
    rcases List.append_eq_append_iff.1 h with ⟨x, rfl, hx⟩ | ⟨x, rfl, hx⟩
    · have hlength := congrArg List.length hx
      simp only [List.length_append] at hlength
      obtain rfl : x = [] := List.eq_nil_of_length_eq_zero (by omega)
      exact ⟨List.append_nil _, List.eq_nil_of_length_eq_zero (by omega)⟩
    · cases x with
      | nil => simpa using hx
      | cons c x =>
          have hprefix : q :: tail <+: c :: x ++ q :: tail := ⟨after, hx⟩
          have hin := prefix_of_prefix_append hq (List.cons_ne_nil c x) hprefix
          exact absurd (hin.isInfix.trans (List.suffix_append before _).isInfix) hbody
  · rintro ⟨rfl, rfl⟩
    exact (List.append_nil _).symm

/-! ## The two forms -/

theorem isPlainText_iff : isPlainText s = true ↔ '"' ∉ s ∧ '%' ∉ s := by
  simp [isPlainText]

/-- The two forms differ in their first character. -/
theorem plain_ne_longLiteral (s : List Char) : '"' :: s ++ ['"'] ≠ longLiteral s := by
  intro heq
  have hfirst : '"' = '\x7b' := (List.cons.inj heq).1
  exact absurd hfirst (by decide)

theorem literalChars_eq_plain_iff :
    literalChars s = '"' :: s ++ ['"'] ↔ '"' ∉ s ∧ '%' ∉ s := by
  rw [literalChars, ite_eq_left_iff, imp_iff_not (plain_ne_longLiteral s).symm, not_not,
    isPlainText_iff]

theorem literalChars_eq_long_iff : literalChars s = longLiteral s ↔ '"' ∈ s ∨ '%' ∈ s := by
  rw [literalChars, ite_eq_right_iff, imp_iff_not (plain_ne_longLiteral s), isPlainText_iff,
    not_and_or, not_not, not_not]

theorem literalLexeme_inj (h : literalLexeme t = literalLexeme s) : t = s := by
  have hstring : ∀ u, stringsIn [literalLexeme u] = [u] := by
    intro u
    unfold literalLexeme
    split <;> rfl
  have heq := congrArg (fun l => stringsIn [l]) h
  simp only [hstring] at heq
  exact List.singleton_injective heq

theorem toList_literal (s : String) : (literal s).toList = literalChars s.toList :=
  String.toList_ofList

theorem lexemes_literal (s : String) :
    lexemes? (literal s).toList = some [literalLexeme s.toList] := by
  rw [toList_literal]
  exact (scans_literalChars s.toList).lexemes?

theorem literal_inj {s t : String} (h : literal t = literal s) : t = s := by
  have hlexemes := congrArg (fun u => lexemes? u.toList) h
  simp only [lexemes_literal] at hlexemes
  have hlexeme := List.singleton_injective (Option.some.inj hlexemes)
  exact String.toList_inj.1 (literalLexeme_inj hlexeme)

/-- A run is tried with one letter more at a time, beginning with none. That ends with the first run
whose ending does not occur in the text, which has at most as many letters as the text has quotation
marks. Behind the text the ending occurs once, so what stands before the first ending is the text. A
text is written in the plain form when it has no quotation mark and no percent sign in it, and
otherwise in the long form with that run. It is the one string that is found in its constant, so no
other text has the same one. -/
theorem literal_readsBack (s : String) :
    ∃ n, shortestRun s.toList 0 = n
      ∧ (¬ longEnding n <:+: s.toList ∧ ∀ k < n, longEnding k <:+: s.toList)
      ∧ n ≤ s.toList.count '"'
      ∧ (∀ before after, s.toList ++ longEnding n = before ++ longEnding n ++ after
          ↔ before = s.toList ∧ after = [])
      ∧ untilEnding (longEnding n) (s.toList ++ longEnding n) = some (s.toList, [])
      ∧ ((literal s).toList = '"' :: s.toList ++ ['"'] ↔ '"' ∉ s.toList ∧ '%' ∉ s.toList)
      ∧ ((literal s).toList = '\x7b' :: List.replicate n 'E' ++ '"' :: s.toList ++ longEnding n
          ↔ '"' ∈ s.toList ∨ '%' ∈ s.toList)
      ∧ lexemes? (literal s).toList = some [literalLexeme s.toList]
      ∧ ∀ t, literal t = literal s ↔ t = s := by
  have hrun := shortestRun_spec s.toList
  refine ⟨_, rfl, hrun, shortestRun_le_count_quote s.toList, fun before after => ?_, ?_, ?_, ?_,
    lexemes_literal s, fun t => ⟨literal_inj, ?_⟩⟩
  · exact append_ending_eq_iff (quote_not_mem_ending _) hrun.1
  · have hread := untilEnding_longEnding s.toList []
    rwa [List.append_nil] at hread
  · rw [toList_literal]
    exact literalChars_eq_plain_iff
  · rw [toList_literal]
    exact literalChars_eq_long_iff
  · rintro rfl
    rfl

example : literal "\"\x7d\"E\x7d%" = "\x7bEE\"\"\x7d\"E\x7d%\"EE\x7d" := by cbv

end EdgeRouting.Logic
