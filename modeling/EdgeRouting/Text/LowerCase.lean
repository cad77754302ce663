import EdgeRouting.Text.Blank
import EdgeRouting.Text.LowerCaseTable

/-!
# Lower case

Names, table keys and error messages are compared in lower case, in the full sense of the Unicode
standard: a letter is replaced by its lower case whatever its alphabet, the dotted capital I becomes
two characters, and a capital sigma becomes a final sigma at the end of a word. Apart from the sigma
each character is replaced on its own, which `lowerChars_cons` says; on ASCII text lower case is the
shift of the letters `A` to `Z`.
-/

namespace EdgeRouting.Text

def capitalSigma : Char := 'Σ'

/-- Lower case of one character outside any word. -/
def lowerChar (c : Char) : List Char :=
  if c.toNat < 0x80 then [c.toLower]
  else if c.toNat = 0x130 then ['i', Char.ofNat 0x307]
  else match caseRuns.find? fun r => r.covers c.toNat with
    | some r => [Char.ofNat (c.toNat + r.shift).toNat]
    | none => [c]

def isCased (c : Char) : Bool := inSpans casedSpans c

def isCaseIgnorable (c : Char) : Bool := inSpans caseIgnorableSpans c

/-- Whether the first character that is not looked through is a letter with case. -/
def facesLetter (s : List Char) : Bool :=
  match s.dropWhile isCaseIgnorable with
  | c :: _ => isCased c
  | [] => false

/-- Lower case of a capital sigma between `before`, nearest character first, and `after`: final
when a letter precedes it in the word and none follows. -/
def lowerSigma (before after : List Char) : Char :=
  if facesLetter before && !facesLetter after then 'ς' else 'σ'

/-- Lower case of the text that follows `before`, which is read backwards. -/
def lowerCharsAfter (before : List Char) : List Char → List Char
  | [] => []
  | c :: r =>
    (if c = capitalSigma then [lowerSigma before r] else lowerChar c)
      ++ lowerCharsAfter (c :: before) r

def lowerChars (s : List Char) : List Char := lowerCharsAfter [] s

def lower (s : String) : String := String.ofList (lowerChars s.toList)

/-! ## ASCII -/

/-- What all of ASCII has been tried for holds of a character of ASCII. -/
@[elab_as_elim]
theorem ascii_induction {P : Char → Prop} {c : Char} (hc : c.toNat < 0x80)
    (h : ∀ n < 0x80, P (Char.ofNat n)) : P c := by
  have hcode := h c.toNat hc
  rwa [Char.ofNat_toNat] at hcode

/-- Equality of texts in which only the ASCII letters may differ in case. -/
def eqIgnoringAsciiCase (s t : String) : Bool :=
  s.toList.map Char.toLower == t.toList.map Char.toLower

theorem lowerChar_ascii {c : Char} (h : c.toNat < 0x80) : lowerChar c = [c.toLower] := by
  simp [lowerChar, h]

theorem ne_capitalSigma_of_ascii {c : Char} (h : c.toNat < 0x80) : c ≠ capitalSigma := by
  rintro rfl
  revert h
  decide

theorem lowerCharsAfter_ascii {s : List Char} (h : ∀ c ∈ s, c.toNat < 0x80) (before : List Char) :
    lowerCharsAfter before s = s.map Char.toLower := by
  induction s generalizing before with
  | nil => rfl
  | cons c r ih =>
    have hc := h c (by simp)
    rw [lowerCharsAfter, if_neg (ne_capitalSigma_of_ascii hc), lowerChar_ascii hc,
      ih (fun d hd => h d (by simp [hd]))]
    rfl

/-- On ASCII text, lower case is taken letter by letter. -/
theorem lowerChars_ascii {s : List Char} (h : ∀ c ∈ s, c.toNat < 0x80) :
    lowerChars s = s.map Char.toLower :=
  lowerCharsAfter_ascii h []

theorem lowerChars_cons {c : Char} (h : c ≠ capitalSigma) (r : List Char) :
    lowerChars (c :: r) = lowerChar c ++ lowerCharsAfter [c] r := by
  simp [lowerChars, lowerCharsAfter, h]

end EdgeRouting.Text
