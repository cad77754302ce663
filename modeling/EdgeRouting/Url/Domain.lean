import EdgeRouting.Text.LowerCase
import EdgeRouting.Text.PrintableTable
import EdgeRouting.Url.Address
import EdgeRouting.Url.Punycode

/-!
# Domain names

A domain name is brought into one form. Its characters are folded one by one: letters to lower case,
wide forms of ASCII characters and of the full stop to the plain ones, and characters that do not
show to nothing. Then each label that is not ASCII is written in Punycode behind the mark `xn--`. A
label that carries the mark already must be the Punycode of a label in that form.
-/

namespace EdgeRouting.Url

/-! ## Folding -/

/-- Characters that leave no trace in a domain name. -/
def vanishingSpans : List (Nat × Nat) :=
  [(0xAD, 0xAD), (0x34F, 0x34F), (0x115F, 0x1160), (0x17B4, 0x17B5), (0x180B, 0x180F),
    (0x200B, 0x200B), (0x2060, 0x2064), (0x206A, 0x206F), (0x3164, 0x3164), (0xFE00, 0xFE0F),
    (0xFEFF, 0xFEFF), (0xFFA0, 0xFFA0), (0x1BCA0, 0x1BCA3), (0x1D173, 0x1D17A),
    (0xE0100, 0xE01EF)]

/-- Full stops of other scripts. -/
def isFullStop (c : Char) : Bool := c = '。' || c = '｡'

/-- The forms of the ASCII characters that are as wide as an ideograph. -/
def isWide (c : Char) : Bool := 0xFF01 ≤ c.toNat && c.toNat ≤ 0xFF5E

/-- What a character becomes in a domain name; a sigma does not depend on its place in a word. -/
def foldDomainChar (c : Char) : List Char :=
  if Text.inSpans vanishingSpans c then []
  else if isFullStop c then ['.']
  else if isWide c then Text.lowerChar (Char.ofNat (c.toNat - 0xFEE0))
  else Text.lowerChar c

/-- Whether a character outside ASCII can stand in a label. The two marks for what cannot be shown
cannot, though they do show. -/
def isLabelChar (c : Char) : Bool :=
  !Text.inSpans Text.unprintableSpans c && c.toNat ≠ 0xFFFC && c.toNat ≠ 0xFFFD
    && foldDomainChar c = [c]

/-- A label in Unicode: its characters stay as they are under folding, and none of them combines
with a character in front of the label. -/
def isUnicodeLabel (s : List Char) : Bool :=
  s.all (fun c => Punycode.isAscii c || isLabelChar c)
    && !s.head?.any (Text.inSpans Text.combiningSpans)

/-! ## Labels -/

/-- The mark of a label in Punycode. -/
def punycodeMark : List Char := ['x', 'n', '-', '-']

/-- Characters that no domain name can contain. -/
def isForbiddenInDomain (c : Char) : Bool :=
  isControl c || c = ' ' || c = '#' || c = '%' || c = '/' || c = ':' || c = '<' || c = '>'
    || c = '?' || c = '@' || c = '[' || c = '\\' || c = ']' || c = '^' || c = '|'

def isAsciiText (s : List Char) : Bool := s.all Punycode.isAscii

/-- The ASCII form of a folded label. -/
def labelToAscii? (label : List Char) : Option (List Char) :=
  if label.take 4 = punycodeMark then
    match Punycode.decode? (label.drop 4) with
    | none => none
    | some u =>
      if isAsciiText u || !isAsciiText label || !isUnicodeLabel u then none else some label
  else if isAsciiText label then some label
  else if isUnicodeLabel label then some (punycodeMark ++ Punycode.encode label)
  else none

/-- The ASCII form of a domain name. -/
def domainToAscii? (s : List Char) : Option (List Char) := do
  let labels ← (Text.pieces '.' (s.flatMap foldDomainChar)).mapM labelToAscii?
  let name := Text.joinPieces ['.'] labels
  if name.any isForbiddenInDomain then none else some name

end EdgeRouting.Url
