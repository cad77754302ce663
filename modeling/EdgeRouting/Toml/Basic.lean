/-!
# TOML lines

A TOML text is a list of lines: headers, each of which says which table the lines after it belong
to, and entries. Keys may be dotted, and so a line alone does not say what the table looks like that
it contributes to.
-/

namespace EdgeRouting.Toml

/-- The parts of a dotted key, of which there is at least one. -/
abbrev Key := List String

inductive Value where
  | truth (b : Bool)
  | integer (n : Int)
  | real
  | moment
  | text (s : String)
  | list (items : List Value)
  /-- A table that is written where a value stands. -/
  | table (entries : List (Key × Value))
  deriving Repr, Inhabited

inductive Line where
  | entry (key : Key) (value : Value)
  /-- The entries below belong to this table. -/
  | header (key : Key)
  /-- The entries below belong to a new item of this list of tables. -/
  | itemHeader (key : Key)
  deriving Repr

/-! ## Depth -/

/-- The most parts that a key may have, and the most values that may be nested in each other. -/
def maxDepth : Nat := 79

def isShallowKey (k : Key) : Bool := k.length ≤ maxDepth

mutual

/-- Whether lists and tables are nested at most so deep, and keys are not too long. -/
def Value.isShallow (depth : Nat) : Value → Bool
  | .list items => match depth with
    | 0 => false
    | d + 1 => areShallow d items
  | .table entries => match depth with
    | 0 => false
    | d + 1 => entriesAreShallow d entries
  | _ => true

def areShallow (depth : Nat) : List Value → Bool
  | [] => true
  | v :: r => v.isShallow depth && areShallow depth r

def entriesAreShallow (depth : Nat) : List (Key × Value) → Bool
  | [] => true
  | (k, v) :: r => isShallowKey k && v.isShallow depth && entriesAreShallow depth r

end

def Line.isShallow : Line → Bool
  | .entry k v => isShallowKey k && v.isShallow maxDepth
  | .header k => isShallowKey k
  | .itemHeader k => isShallowKey k

end EdgeRouting.Toml
