/-!
# Reading from the front of a text

A step of a reader answers the value that it found together with the rest of the text, which is
shorter than what it was given. Readers that go on with such a rest come to an end.
-/

namespace EdgeRouting.Text

/-- A value found at the front of `s`, and the shorter rest of `s`. -/
structure Read (α : Type) (s : List Char) where
  val : α
  rest : List Char
  lt : rest.length < s.length

namespace Read

/-- A value and a rest, if the rest is shorter. -/
def of? {α : Type} (s : List Char) (a : α) (rest : List Char) : Option (Read α s) :=
  if h : rest.length < s.length then some ⟨a, rest, h⟩ else none

end Read

end EdgeRouting.Text
