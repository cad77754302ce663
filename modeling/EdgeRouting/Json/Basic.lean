import EdgeRouting.Word

/-!
# JSON values

The tree that a JSON text denotes. Members of an object keep their order and may repeat a name, and
a string that is written with half of a surrogate pair is kept apart from text, so that each reader
of the tree can decide what it makes of them.
-/

namespace EdgeRouting

namespace Json

/-- Integers of 64 bits, signed or not, are exact; every other number is kept as it was written. -/
inductive Number where
  | integer (n : Int)
  | decimal (text : String)
  deriving Repr, DecidableEq

end Json

inductive Json where
  | null
  | bool (b : Bool)
  | number (n : Json.Number)
  | text (s : String)
  /-- A string with an escape for half of a surrogate pair, which denotes no text. -/
  | brokenText
  | array (items : List Json)
  | object (members : List (Option String × Json))
  deriving Repr, Inhabited

namespace Json

/-- The integers that a JSON number can denote exactly. -/
def integerRange (n : Int) : Bool := minInt64 ≤ n && n ≤ maxNat64

/-- An object all of whose names are texts. -/
def ofMembers (members : List (String × Json)) : Json :=
  .object (members.map fun m => (some m.1, m.2))

def ofInt (n : Int) : Json := .number (.integer n)

def ofNat (n : Nat) : Json := .number (.integer n)

/-- A text, or null where there is none. -/
def ofOption : Option String → Json
  | none => .null
  | some s => .text s

def ofTexts (l : List String) : Json := .array (l.map .text)

/-- The value of the last member with a name. -/
def member? (name : String) : Json → Option Json
  | .object members => members.foldl (fun acc m => if m.1 = some name then some m.2 else acc) none
  | _ => none

def asText? : Json → Option String
  | .text s => some s
  | _ => none

def asBool? : Json → Option Bool
  | .bool b => some b
  | _ => none

def asInt? : Json → Option Int
  | .number (.integer n) => some n
  | _ => none

def asArray? : Json → Option (List Json)
  | .array items => some items
  | _ => none

/-- An integer in the range from `low` to `high`, both included. -/
def asIntIn? (low high : Int) (j : Json) : Option Int := do
  let n ← j.asInt?
  if low ≤ n && n ≤ high then some n else none

end Json

end EdgeRouting
