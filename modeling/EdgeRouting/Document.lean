import EdgeRouting.Json.Basic

/-!
# Documents

The data that a configuration is read from, whatever the language it was written in. A convention
says in which respects the languages differ when a document is turned into values.
-/

namespace EdgeRouting

inductive Document where
  | null
  | truth (b : Bool)
  | whole (n : Int)
  /-- A number that is no integer of 64 bits. -/
  | real
  | text (s : String)
  /-- A date or a time. -/
  | moment
  | list (items : List Document)
  | table (entries : List (String × Document))
  deriving Repr, Inhabited

namespace Document

/-- How a language writes what documents have in common. -/
structure Convention where
  /-- What stands for a value that carries nothing. -/
  isVoid : Document → Bool
  /-- Whether a record that is written as a list may not be longer than the record. -/
  exactLists : Bool

/-- Null stands for nothing, and no value may be left over. -/
def jsonConvention : Convention where
  isVoid
    | .null => true
    | _ => false
  exactLists := true

/-- An empty list or table stands for nothing, and values may be left over. -/
def tomlConvention : Convention where
  isVoid
    | .list [] => true
    | .table [] => true
    | _ => false
  exactLists := false

mutual

/-- The document of a JSON value. A string that denotes no text makes it none. -/
def ofJson? : Json → Option Document
  | .null => some .null
  | .bool b => some (.truth b)
  | .number (.integer n) => some (.whole n)
  | .number (.decimal _) => some .real
  | .text s => some (.text s)
  | .brokenText => none
  | .array items => (ofJsonItems? items).map .list
  | .object members => (ofJsonMembers? members).map .table

def ofJsonItems? : List Json → Option (List Document)
  | [] => some []
  | j :: r => do
    let d ← ofJson? j
    let ds ← ofJsonItems? r
    some (d :: ds)

def ofJsonMembers? : List (Option String × Json) → Option (List (String × Document))
  | [] => some []
  | (none, _) :: _ => none
  | (some name, j) :: r => do
    let d ← ofJson? j
    let entries ← ofJsonMembers? r
    some ((name, d) :: entries)

end

/-! ## Reading values -/

def asText? : Document → Option String
  | .text s => some s
  | _ => none

/-- A text or nothing. -/
def asOptionalText? : Document → Option (Option String)
  | .null => some none
  | .text s => some (some s)
  | _ => none

/-- An integer from `low` to `high`, both included. -/
def asIntIn? (low high : Int) : Document → Option Int
  | .whole n => if low ≤ n && n ≤ high then some n else none
  | _ => none

def asInt64? (d : Document) : Option Int64 :=
  (d.asIntIn? minInt64 maxInt64).map Int64.ofInt

/-- A natural number of 64 bits. -/
def asNat64? (d : Document) : Option Nat := (d.asIntIn? 0 maxNat64).map Int.toNat

def asList? : Document → Option (List Document)
  | .list items => some items
  | _ => none

/-- The values of a record: those of a table under their names, the last of each name first, or
those of a list in order. A date is taken for a record that leaves out every field. -/
def recordFields? (convention : Convention) (names : List String) :
    Document → Option (List (String × Document))
  | .table entries => some entries.reverse
  | .moment => some []
  | .list items =>
    if convention.exactLists && names.length < items.length then none else some (names.zip items)
  | _ => none

/-- A field of a record that has to be there. -/
def required? {α : Type} (fields : List (String × Document)) (name : String)
    (decode : Document → Option α) : Option α :=
  (fields.lookup name).bind decode

/-- A field of a record with a value for its absence. -/
def withDefault? {α : Type} (fields : List (String × Document)) (name : String)
    (decode : Document → Option α) (default : α) : Option α :=
  match fields.lookup name with
  | none => some default
  | some d => decode d

/-- The name of a case that carries nothing: a text, or a table with that name alone. -/
def caseName? (convention : Convention) : Document → Option String
  | .text s => some s
  | .table [(name, d)] => if convention.isVoid d then some name else none
  | _ => none

end Document

end EdgeRouting
