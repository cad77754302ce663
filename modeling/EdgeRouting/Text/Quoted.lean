import EdgeRouting.Text.Blank
import EdgeRouting.Text.PrintableTable

/-!
# Quoted text

The form in which a text is shown inside a description of a value: between quotation marks, with
quotation marks and backslashes escaped, and every character that would not show as itself written
as its code point in hexadecimal.
-/

namespace EdgeRouting.Text

/-- Whether a character shows as itself when it stands alone. -/
def isPrintable (c : Char) : Bool :=
  !inSpans unprintableSpans c && !inSpans combiningSpans c

def hexDigits (n : Nat) : List Char := Nat.toDigits 16 n

/-- A character as it is written between quotation marks. -/
def quotedChar (c : Char) : List Char :=
  if c.toNat = 0 then ['\\', '0']
  else if c = '\t' then ['\\', 't']
  else if c = '\r' then ['\\', 'r']
  else if c = '\n' then ['\\', 'n']
  else if c = '\\' || c = '"' then ['\\', c]
  else if isPrintable c then [c]
  else ['\\', 'u', '\x7b'] ++ hexDigits c.toNat ++ ['\x7d']

def quoted (s : String) : String :=
  String.ofList ('"' :: s.toList.flatMap quotedChar ++ ['"'])

/-- An optional text, shown with a word for its presence. -/
def quotedOption : Option String → String
  | none => "None"
  | some s => "Some(" ++ quoted s ++ ")"

end EdgeRouting.Text
