import EdgeRouting.Proofs.Template.Printing
import EdgeRouting.Template.Grammar

/-!
# Templates behind each other

Reading a template is taking its tokens one by one. The scanner looks ahead, but never beyond the
token that it is at, so a row of tokens is read alike whatever stands behind it (`scan_spells`): it
leaves some parts behind and some literal text pending. Where the row ends, the text ends as well or
a fault is ahead (`spellsOrFails`).

So reading respects concatenation, faults included. Literal text may run on over the seam, which
changes the parts but not what they expand to: an expansion is that of the tokens
(`expandParts_tokens`).
-/

namespace EdgeRouting.Template

open Placeholder

variable {pos : Nat} {pending name s r : List Char} {tokens tokens' : List Token}
  {parts : List Part} {fault : Fault}

/-! ## Bytes -/

theorem byteLength_append (s r : List Char) :
    byteLength (s ++ r) = byteLength s + byteLength r := by
  induction s with
  | nil => simp [byteLength]
  | cons c s ih => simp only [List.cons_append, byteLength, ih, Nat.add_assoc]

theorem utf8ByteSize_ofList (s : List Char) : (String.ofList s).utf8ByteSize = byteLength s := by
  induction s with
  | nil => rfl
  | cons c s ih =>
      rw [String.ofList_cons, String.utf8ByteSize_append, String.utf8ByteSize_singleton, ih,
        byteLength]

theorem byteLength_placeholder (name r : List Char) :
    byteLength ('\x7b' :: (name ++ '\x7d' :: r)) = byteLength name + 2 + byteLength r := by
  have hbraces : '\x7b'.utf8Size = 1 ∧ '\x7d'.utf8Size = 1 := ⟨rfl, rfl⟩
  simp only [byteLength, byteLength_append, hbraces]
  omega

theorem byteLength_toList (s : String) : byteLength s.toList = s.utf8ByteSize := by
  rw [← utf8ByteSize_ofList, String.ofList_toList]

/-! ## The name of a placeholder -/

theorem untilClose_eq_none_iff : untilClose s = none ↔ '\x7d' ∉ s := by
  fun_induction untilClose s with
  | case1 => simp
  | case2 r => simp
  | case3 c r hc ih => simp [ih, Ne.symm hc]

theorem untilClose_eq_some (h : untilClose s = some (name, r)) :
    s = name ++ '\x7d' :: r ∧ '\x7d' ∉ name := by
  fun_induction untilClose s generalizing name r with
  | case1 => cases h
  | case2 r' =>
      obtain ⟨rfl, rfl⟩ := Prod.mk.inj (Option.some.inj h)
      exact ⟨rfl, List.not_mem_nil⟩
  | case3 c r' hc ih =>
      obtain ⟨⟨n, t⟩, hrest, heq⟩ := Option.map_eq_some_iff.1 h
      obtain ⟨rfl, rfl⟩ := Prod.mk.inj heq
      obtain ⟨rfl, hname⟩ := ih hrest
      exact ⟨rfl, by simpa [Ne.symm hc] using hname⟩

/-! ## Tokens -/

theorem Spells.append (h : Spells s tokens) (h' : Spells r tokens') :
    Spells (s ++ r) (tokens ++ tokens') := by
  induction h with
  | nil => exact h'
  | openBrace _ ih => exact .openBrace ih
  | closeBrace _ ih => exact .closeBrace ih
  | plain hopen hclose _ ih => exact .plain hopen hclose ih
  | field hhead hname hfield _ ih =>
      rw [List.cons_append, List.append_assoc]
      exact .field hhead hname hfield ih

/-- The literal text that is pending behind a row of tokens. -/
def pendingAfter (pending : List Char) : List Token → List Char
  | [] => pending
  | .char c :: r => pendingAfter (pending ++ [c]) r
  | .field _ :: r => pendingAfter [] r

/-- The parts that are complete behind a row of tokens. -/
def partsBefore (pending : List Char) : List Token → List Part
  | [] => []
  | .char c :: r => partsBefore (pending ++ [c]) r
  | .field f :: r => literalParts pending ++ .field f :: partsBefore [] r

/-- A row of tokens is read the same whatever stands behind it. -/
theorem scan_spells (h : Spells s tokens) :
    scan pos pending (s ++ r)
      = (scan (pos + byteLength s) (pendingAfter pending tokens) r).map
          (partsBefore pending tokens ++ ·) := by
  induction h generalizing pos pending with
  | nil =>
      rw [List.nil_append, byteLength, Nat.add_zero, pendingAfter]
      cases scan pos pending r <;> rfl
  | openBrace _ ih =>
      rw [List.cons_append, List.cons_append, scan, ih]
      simp only [byteLength, ← Nat.add_assoc]
      rfl
  | closeBrace _ ih =>
      rw [List.cons_append, List.cons_append, scan, ih]
      simp only [byteLength, ← Nat.add_assoc]
      rfl
  | plain hopen hclose _ ih =>
      rw [List.cons_append, scan_plain hopen hclose, ih, byteLength, Nat.add_assoc]
      rfl
  | @field name s f tokens hhead hname hfield _ ih =>
      rw [List.cons_append, List.append_assoc, List.cons_append,
        scan_placeholder hhead hname hfield, ih, byteLength_placeholder, pendingAfter,
        ← Nat.add_assoc, ← Nat.add_assoc]
      cases scan (pos + byteLength name + 2 + byteLength s) (pendingAfter [] tokens) r with
      | error e => rfl
      | ok parts => simp [partsBefore, Except.map, bind, Except.bind]

/-- The parts that a row of tokens is read as. -/
def partsOf (tokens : List Token) : List Part :=
  partsBefore [] tokens ++ literalParts (pendingAfter [] tokens)

theorem scan_of_spells (h : Spells s tokens) : scan pos [] s = .ok (partsOf tokens) := by
  rw [← List.append_nil s, scan_spells h, scan]
  rfl

/-! ## Faults -/

theorem ne_cons_of_head? {c : Char} (h : s.head? ≠ some c) (r : List Char) (heq : s = c :: r) :
    False :=
  h (heq ▸ rfl)

theorem head?_ne_of_ne_cons {c : Char} (h : ∀ r, s = c :: r → False) : s.head? ≠ some c := by
  intro hhead
  obtain ⟨r, hr⟩ := List.head?_eq_some_iff.1 hhead
  exact h r hr

theorem head?_append_close_iff :
    (name ++ '\x7d' :: r).head? ≠ some '\x7b' ↔ name.head? ≠ some '\x7b' := by
  cases name <;> simp

theorem scan_of_isAhead (h : fault.IsAhead pos s) : scan pos pending s = .error fault := by
  cases fault with
  | unknownPlaceholder name =>
      obtain ⟨after, rfl, hhead, hname, hfield⟩ := h
      rw [scan.eq_4 pos pending _ (ne_cons_of_head? (head?_append_close_iff.2 hhead)),
        untilClose_append hname]
      simp only [hfield, String.ofList_toList]
  | unclosed place =>
      obtain ⟨rfl, after, rfl, hhead, hname⟩ := h
      rw [scan.eq_4 _ pending after (ne_cons_of_head? hhead), untilClose_eq_none_iff.2 hname]
  | strayBrace place =>
      obtain ⟨rfl, after, rfl, hhead⟩ := h
      rw [scan.eq_5 _ pending after (ne_cons_of_head? hhead)]

theorem scan_of_fault {before ahead : List Char} (h : Spells before tokens)
    (hfault : fault.IsAhead (pos + byteLength before) ahead) :
    scan pos pending (before ++ ahead) = .error fault := by
  rw [scan_spells h, scan_of_isAhead hfault]
  rfl

/-- A text that begins at a byte is a row of tokens, to its end or to a fault. -/
def SpellsOrFails (byte : Nat) (s : List Char) : Prop :=
  (∃ tokens, Spells s tokens) ∨ ∃ (before ahead : List Char) (tokens : List Token) (fault : Fault),
    s = before ++ ahead ∧ Spells before tokens ∧ fault.IsAhead (byte + byteLength before) ahead

theorem SpellsOrFails.behind_token (chars : List Char) {token : Token}
    (htoken : ∀ {r tokens}, Spells r tokens → Spells (chars ++ r) (token :: tokens))
    (h : SpellsOrFails (pos + byteLength chars) s) : SpellsOrFails pos (chars ++ s) := by
  rcases h with ⟨tokens, hs⟩ | ⟨before, ahead, tokens, fault, rfl, hbefore, hfault⟩
  · exact .inl ⟨_, htoken hs⟩
  · refine .inr ⟨chars ++ before, ahead, _, fault, (List.append_assoc ..).symm, htoken hbefore, ?_⟩
    rwa [byteLength_append, ← Nat.add_assoc]

theorem spellsOrFails (pos : Nat) (pending s : List Char) : SpellsOrFails pos s := by
  fun_induction scan pos pending s with
  | case1 => exact .inl ⟨[], .nil⟩
  | case2 pos pending s ih => exact .behind_token ['\x7b', '\x7b'] .openBrace ih
  | case3 pos pending s ih => exact .behind_token ['\x7d', '\x7d'] .closeBrace ih
  | case4 pos pending s hsingle hclose =>
      exact .inr ⟨[], _, [], .unclosed pos, rfl, .nil, rfl, s, rfl, head?_ne_of_ne_cons hsingle,
        untilClose_eq_none_iff.1 hclose⟩
  | case5 pos pending s hsingle name rest hclose hfield =>
      obtain ⟨rfl, hname⟩ := untilClose_eq_some hclose
      have hhead := head?_append_close_iff.1 (head?_ne_of_ne_cons hsingle)
      exact .inr ⟨[], _, [], .unknownPlaceholder (String.ofList name), rfl, .nil, rest,
        by rw [String.toList_ofList], by rwa [String.toList_ofList], by rwa [String.toList_ofList],
        by rwa [String.toList_ofList]⟩
  | case6 pos pending s hsingle name rest hclose f hfield ih =>
      obtain ⟨rfl, hname⟩ := untilClose_eq_some hclose
      have hhead := head?_append_close_iff.1 (head?_ne_of_ne_cons hsingle)
      have hbytes : pos + byteLength ('\x7b' :: (name ++ ['\x7d'])) = pos + byteLength name + 2 := by
        rw [byteLength_placeholder, byteLength, Nat.add_zero, Nat.add_assoc]
      rw [← hbytes] at ih
      have htoken : ∀ {r tokens}, Spells r tokens →
          Spells ('\x7b' :: (name ++ ['\x7d']) ++ r) (.field f :: tokens) := by
        intro r tokens hr
        rw [List.cons_append, List.append_assoc]
        exact .field hhead hname hfield hr
      have hsplit : '\x7b' :: (name ++ '\x7d' :: rest) = '\x7b' :: (name ++ ['\x7d']) ++ rest := by
        rw [List.cons_append, List.append_assoc, List.singleton_append]
      rw [hsplit]
      exact .behind_token _ htoken ih
  | case7 pos pending s hsingle =>
      exact .inr ⟨[], _, [], .strayBrace pos, rfl, .nil, rfl, s, rfl, head?_ne_of_ne_cons hsingle⟩
  | case8 pos pending c s hopens hcloses hopen hclose ih =>
      exact .behind_token [c] (.plain hopen hclose) ih

theorem scan_eq_ok_iff :
    scan pos [] s = .ok parts ↔ ∃ tokens, Spells s tokens ∧ partsOf tokens = parts := by
  constructor
  · intro h
    rcases spellsOrFails pos [] s with ⟨tokens, hs⟩ | ⟨before, ahead, tokens, fault, rfl, hs, hfault⟩
    · exact ⟨tokens, hs, Except.ok.inj ((scan_of_spells hs).symm.trans h)⟩
    · cases (scan_of_fault hs hfault).symm.trans h
  · rintro ⟨tokens, hs, rfl⟩
    exact scan_of_spells hs

theorem scan_eq_error_iff : scan pos [] s = .error fault ↔ ∃ before ahead tokens,
    s = before ++ ahead ∧ Spells before tokens
      ∧ fault.IsAhead (pos + byteLength before) ahead := by
  constructor
  · intro h
    rcases spellsOrFails pos [] s with
      ⟨tokens, hs⟩ | ⟨before, ahead, tokens, fault', rfl, hs, hfault⟩
    · cases (scan_of_spells hs).symm.trans h
    · obtain rfl := Except.error.inj ((scan_of_fault hs hfault).symm.trans h)
      exact ⟨before, ahead, tokens, rfl, hs, hfault⟩
  · rintro ⟨before, ahead, tokens, rfl, hs, hfault⟩
    exact scan_of_fault hs hfault

/-! ## Expansion -/

/-- The text of a row of tokens in which each placeholder stands for its value. -/
def expandTokens (value : Placeholder → String) : List Token → String
  | [] => ""
  | .char c :: r => String.singleton c ++ expandTokens value r
  | .field f :: r => value f ++ expandTokens value r

theorem expandTokens_append (value : Placeholder → String) (tokens tokens' : List Token) :
    expandTokens value (tokens ++ tokens')
      = expandTokens value tokens ++ expandTokens value tokens' := by
  induction tokens with
  | nil => simp [expandTokens]
  | cons token r ih => cases token <;> simp [expandTokens, ih, String.append_assoc]

theorem expandParts_literalParts (value : Placeholder → String) (pending : List Char) :
    expandParts value (literalParts pending) = String.ofList pending := by
  cases pending <;> simp [literalParts, expandParts]

theorem expandParts_tokens (value : Placeholder → String) (pending : List Char)
    (tokens : List Token) :
    expandParts value (partsBefore pending tokens ++ literalParts (pendingAfter pending tokens))
      = String.ofList pending ++ expandTokens value tokens := by
  induction tokens generalizing pending with
  | nil => simp [partsBefore, pendingAfter, expandTokens, expandParts_literalParts]
  | cons token r ih =>
      cases token with
      | char c =>
          rw [partsBefore, pendingAfter, ih, expandTokens, String.ofList_append, String.append_assoc]
          rfl
      | field f =>
          rw [partsBefore, pendingAfter, List.append_assoc, List.cons_append, expandParts_append,
            expandParts, ih, expandParts_literalParts, expandTokens]
          simp

theorem expandParts_partsOf (value : Placeholder → String) (tokens : List Token) :
    expandParts value (partsOf tokens) = expandTokens value tokens := by
  rw [partsOf, expandParts_tokens]
  simp

/-! ## Whole texts -/

theorem parse_eq_ok_iff_spells {source : String} {t : Template} : parse source = .ok t ↔
    t.source = source ∧ ∃ tokens, Spells source.toList tokens ∧ partsOf tokens = t.parts := by
  rw [parse_eq_ok_iff, scan_eq_ok_iff]

theorem exists_parse_iff {source : String} :
    (∃ t, parse source = .ok t) ↔ ∃ tokens, Spells source.toList tokens := by
  constructor
  · rintro ⟨t, h⟩
    obtain ⟨-, tokens, hs, -⟩ := parse_eq_ok_iff_spells.1 h
    exact ⟨tokens, hs⟩
  · rintro ⟨tokens, hs⟩
    exact ⟨⟨source, partsOf tokens⟩, parse_eq_ok_iff_spells.2 ⟨rfl, tokens, hs, rfl⟩⟩

theorem parse_eq_error_iff {source : String} : parse source = .error fault ↔
    ∃ before ahead : String, source = before ++ ahead ∧ (∃ t, parse before = .ok t)
      ∧ fault.IsAhead before.utf8ByteSize ahead.toList := by
  have hscan : parse source = .error fault ↔ scan 0 [] source.toList = .error fault := by
    unfold parse
    cases scan 0 [] source.toList <;> simp [bind, Except.bind]
  rw [hscan, scan_eq_error_iff]
  constructor
  · rintro ⟨before, ahead, tokens, hsplit, hs, hfault⟩
    refine ⟨String.ofList before, String.ofList ahead, ?_, exists_parse_iff.2 ⟨tokens, ?_⟩, ?_⟩
    · rw [← String.ofList_append, ← hsplit, String.ofList_toList]
    · rwa [String.toList_ofList]
    · rwa [utf8ByteSize_ofList, String.toList_ofList, ← Nat.zero_add (byteLength before)]
  · rintro ⟨before, ahead, rfl, hparse, hfault⟩
    obtain ⟨tokens, hs⟩ := exists_parse_iff.1 hparse
    refine ⟨before.toList, ahead.toList, tokens, String.toList_append, hs, ?_⟩
    rwa [byteLength_toList, Nat.zero_add]

theorem Fault.IsAhead.movedBy {byte : Nat} (h : fault.IsAhead byte s) (n : Nat) :
    (fault.movedBy n).IsAhead (n + byte) s := by
  cases fault with
  | unknownPlaceholder name => exact h
  | unclosed place => exact ⟨congrArg (n + ·) h.1, h.2⟩
  | strayBrace place => exact ⟨congrArg (n + ·) h.1, h.2⟩

/-- Behind a template, another one is read as if it stood alone, and a text that is none fails for
the same reason, at a place that counts the bytes in front. A text fails exactly where a template
ends and the brace of the fault is ahead. -/
theorem parse_append :
    (∀ s t, parse s = .ok t →
      (∀ s' t', parse s' = .ok t' → ∃ u, parse (s ++ s') = .ok u
          ∧ ∀ value, u.expand value = t.expand value ++ t'.expand value)
        ∧ ∀ s' fault, parse s' = .error fault →
          parse (s ++ s') = .error (fault.movedBy s.utf8ByteSize))
      ∧ ∀ source fault, parse source = .error fault ↔
        ∃ before ahead : String, source = before ++ ahead ∧ (∃ t, parse before = .ok t)
          ∧ fault.IsAhead before.utf8ByteSize ahead.toList := by
  refine ⟨fun s t hparse => ⟨fun s' t' hparse' => ?_, fun s' fault hparse' => ?_⟩,
    fun _ _ => parse_eq_error_iff⟩
  · obtain ⟨-, tokens, hs, hparts⟩ := parse_eq_ok_iff_spells.1 hparse
    obtain ⟨-, tokens', hs', hparts'⟩ := parse_eq_ok_iff_spells.1 hparse'
    have happend : Spells (s ++ s').toList (tokens ++ tokens') := by
      rw [String.toList_append]
      exact hs.append hs'
    refine ⟨⟨s ++ s', partsOf (tokens ++ tokens')⟩,
      parse_eq_ok_iff_spells.2 ⟨rfl, _, happend, rfl⟩, fun value => ?_⟩
    rw [expand, expand, expand, ← hparts, ← hparts', expandParts_partsOf, expandParts_partsOf,
      expandParts_partsOf, expandTokens_append]
  · obtain ⟨before, ahead, rfl, hbefore, hfault⟩ := parse_eq_error_iff.1 hparse'
    obtain ⟨tokens, hs⟩ := exists_parse_iff.1 ⟨t, hparse⟩
    obtain ⟨tokens', hs'⟩ := exists_parse_iff.1 hbefore
    refine parse_eq_error_iff.2 ⟨s ++ before, ahead, (String.append_assoc ..).symm,
      exists_parse_iff.2 ⟨tokens ++ tokens', ?_⟩, ?_⟩
    · rw [String.toList_append]
      exact hs.append hs'
    · rw [String.utf8ByteSize_append]
      exact hfault.movedBy s.utf8ByteSize

/-! ### Braces at the seam

The first text ends with a placeholder, so its last brace stands before the two of the second one.
Both have letters of two bytes. -/

def restTemplate : Template := ⟨"/ü\x7brest\x7d", [.literal "/ü", .field .rest]⟩

def braceTemplate : Template := ⟨"\x7d\x7dé", [.literal "\x7dé"]⟩

theorem parse_restTemplate_append :
    parse restTemplate.source = .ok restTemplate ∧ parse braceTemplate.source = .ok braceTemplate
      ∧ (∃ u, parse (restTemplate.source ++ braceTemplate.source) = .ok u
        ∧ ∀ value, u.expand value = restTemplate.expand value ++ braceTemplate.expand value)
      ∧ parse "\x7d\x7dé\x7d" = .error (.strayBrace 4)
      ∧ parse (restTemplate.source ++ "\x7d\x7dé\x7d") = .error (.strayBrace 13) := by
  have hrest : parse restTemplate.source = .ok restTemplate := by with_unfolding_all rfl
  have hbrace : parse braceTemplate.source = .ok braceTemplate := by with_unfolding_all rfl
  have hstray : parse "\x7d\x7dé\x7d" = .error (.strayBrace 4) := by with_unfolding_all rfl
  obtain ⟨hexpand, hfault⟩ := parse_append.1 restTemplate.source restTemplate hrest
  exact ⟨hrest, hbrace, hexpand _ _ hbrace, hstray, hfault _ _ hstray⟩

end EdgeRouting.Template
