import EdgeRouting.Json.Basic

/-!
# Writing JSON

The shortest JSON text of a value, on one line. Characters beyond ASCII stand for themselves.
-/

namespace EdgeRouting.Json

def hexDigit (n : Nat) : Char := if n < 10 then Char.ofNat (48 + n) else Char.ofNat (87 + n)

/-- A character as it is written inside a string. -/
def escapedChar (c : Char) : List Char :=
  if c = '"' || c = '\\' then ['\\', c]
  else if c.toNat < 0x20 then
    ['\\', 'u', '0', '0', hexDigit (c.toNat / 16), hexDigit (c.toNat % 16)]
  else [c]

def quote (s : String) : String :=
  String.ofList ('"' :: s.toList.flatMap escapedChar ++ ['"'])

def Number.write : Number → String
  | .integer n => toString n
  | .decimal written => written

mutual

/-- The text of a value. A string that denotes no text is written as null. -/
def write : Json → String
  | .null => "null"
  | .bool b => if b then "true" else "false"
  | .number n => n.write
  | .text s => quote s
  | .brokenText => "null"
  | .array items => "[" ++ ",".intercalate (writeItems items) ++ "]"
  | .object members => "\x7b" ++ ",".intercalate (writeMembers members) ++ "\x7d"

def writeItems : List Json → List String
  | [] => []
  | j :: r => write j :: writeItems r

def writeMembers : List (Option String × Json) → List String
  | [] => []
  | (some name, j) :: r => (quote name ++ ":" ++ write j) :: writeMembers r
  | (none, _) :: r => writeMembers r

end

end EdgeRouting.Json
