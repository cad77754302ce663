import EdgeRouting.Text.Digits

/-!
# Percent encoding

A character outside a set of allowed ones is written as the bytes of its UTF-8 form, each as a
percent sign and two hexadecimal digits. Which ASCII characters are encoded depends on the part of a
URL; every other character always is.
-/

namespace EdgeRouting.Url

def hexUpper (n : Nat) : Char := if n < 10 then Char.ofNat (48 + n) else Char.ofNat (55 + n)

def percentByte (b : UInt8) : List Char := ['%', hexUpper (b.toNat / 16), hexUpper (b.toNat % 16)]

/-- The encoding of one character, where `special` says which ASCII characters are encoded. -/
def percentChar (special : Char → Bool) (c : Char) : List Char :=
  if c.toNat < 0x80 && !special c then [c] else (String.utf8EncodeChar c).flatMap percentByte

def percentEncode (special : Char → Bool) (s : List Char) : List Char :=
  s.flatMap (percentChar special)

/-! ## Encode sets -/

def isControl (c : Char) : Bool := c.toNat < 0x20 || c.toNat = 0x7F

def inFragmentSet (c : Char) : Bool :=
  isControl c || c = ' ' || c = '"' || c = '<' || c = '>' || c = '\x60'

def inPathSet (c : Char) : Bool :=
  inFragmentSet c || c = '#' || c = '?' || c = '\x7b' || c = '\x7d'

/-- A segment is encoded so that it can hold neither a separator nor an encoded character. -/
def inSegmentSet (c : Char) : Bool := inPathSet c || c = '/' || c = '%'

/-- Where a backslash separates segments, it is encoded as well. -/
def inSpecialSegmentSet (c : Char) : Bool := inSegmentSet c || c = '\\'

def inUserSet (c : Char) : Bool :=
  inPathSet c || c = '/' || c = ':' || c = ';' || c = '=' || c = '@' || c = '[' || c = '\\'
    || c = ']' || c = '^' || c = '|'

def inQuerySet (c : Char) : Bool :=
  isControl c || c = ' ' || c = '"' || c = '#' || c = '<' || c = '>'

def inSpecialQuerySet (c : Char) : Bool := inQuerySet c || c = '\''

/-! ## Decoding -/

/-- The bytes of a text in which encoded bytes are replaced by what they stand for. -/
def percentDecodeBytes : List Char → List UInt8
  | [] => []
  | '%' :: a :: b :: r =>
    match Text.hexValue? a, Text.hexValue? b with
    | some x, some y => UInt8.ofNat (16 * x + y) :: percentDecodeBytes r
    | _, _ => String.utf8EncodeChar '%' ++ percentDecodeBytes (a :: b :: r)
  | c :: r => String.utf8EncodeChar c ++ percentDecodeBytes r

/-- The text that the decoded bytes are the UTF-8 form of. -/
def percentDecode? (s : List Char) : Option (List Char) :=
  (String.fromUTF8? ⟨(percentDecodeBytes s).toArray⟩).map String.toList

end EdgeRouting.Url
