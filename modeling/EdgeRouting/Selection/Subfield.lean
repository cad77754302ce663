import EdgeRouting.Text.Pieces

/-!
# Sub-fields of a header

A header can hold a list of pairs `key=value` between separators. A key without a value counts as
one with an empty value, and of several pairs with one key the first is meant.
-/

namespace EdgeRouting.Selection

open Text (pieces)

/-- What stands before the first equals sign. -/
def pairKey (piece : List Char) : List Char := piece.takeWhile (· ≠ '=')

/-- What stands behind the first equals sign. -/
def pairValue (piece : List Char) : List Char := (piece.dropWhile (· ≠ '=')).drop 1

def subfieldChars (source key : List Char) (separator : Char) : Option (List Char) :=
  ((pieces separator source).find? fun p => pairKey p == key).map pairValue

/-- The value of a key in a list of pairs. -/
def subfield (source key : String) (separator : Char) : Option String :=
  (subfieldChars source.toList key.toList separator).map String.ofList

/-- The key under which the override header names a target. -/
def overrideKey : String := "env"

def overrideSeparator : Char := '&'

/-- The target that an override header names, unless the name is empty. -/
def overrideToken (header : String) : Option String :=
  (subfield header overrideKey overrideSeparator).filter (· ≠ "")

end EdgeRouting.Selection
