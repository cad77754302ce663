/-!
# Blank characters and trimming

A character is blank when it has the Unicode property `White_Space`. Trimming removes blanks at the
ends of a text and keeps those inside it.
-/

namespace EdgeRouting.Text

/-- Membership of a code point in a list of ranges, both ends included. -/
def inSpans (spans : List (Nat × Nat)) (c : Char) : Bool :=
  spans.any fun s => s.1 ≤ c.toNat && c.toNat ≤ s.2

def blankSpans : List (Nat × Nat) :=
  [(0x9, 0xD), (0x20, 0x20), (0x85, 0x85), (0xA0, 0xA0), (0x1680, 0x1680), (0x2000, 0x200A),
    (0x2028, 0x2029), (0x202F, 0x202F), (0x205F, 0x205F), (0x3000, 0x3000)]

def isBlank (c : Char) : Bool := inSpans blankSpans c

/-- A text without any visible character. -/
def AllBlank (s : List Char) : Prop := ∀ c ∈ s, isBlank c = true

instance (s : List Char) : Decidable (AllBlank s) :=
  inferInstanceAs (Decidable (∀ c ∈ s, isBlank c = true))

def trimStartChars (s : List Char) : List Char := s.dropWhile isBlank

def trimEndChars (s : List Char) : List Char := (s.reverse.dropWhile isBlank).reverse

def trimChars (s : List Char) : List Char := trimEndChars (trimStartChars s)

/-- Whether a text has no visible character, the empty text included. -/
def isBlankText (s : String) : Bool := s.toList.all isBlank

theorem isBlankText_iff {s : String} : isBlankText s = true ↔ AllBlank s.toList := by
  simp [isBlankText, AllBlank]

end EdgeRouting.Text
