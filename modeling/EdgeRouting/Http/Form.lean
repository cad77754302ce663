import EdgeRouting.Text.Pieces
import EdgeRouting.Url.Percent

/-!
# Form bodies

Named values as the body of a request. Names and values are encoded so that neither of the two
separators occurs in them.
-/

namespace EdgeRouting.Http

/-- The characters of a form that are percent-encoded. -/
def inFormSet (c : Char) : Bool :=
  !(c.isAlphanum || c = '*' || c = '-' || c = '.' || c = '_')

def formChar (c : Char) : List Char := if c = ' ' then ['+'] else Url.percentChar inFormSet c

def formText (s : String) : String := String.ofList (s.toList.flatMap formChar)

def formBody (fields : List (String × String)) : String :=
  "&".intercalate (fields.map fun f => formText f.1 ++ "=" ++ formText f.2)

/-! ## Reading forms -/

/-- The text that an encoded text stands for. -/
def formDecode? (s : List Char) : Option String :=
  (Url.percentDecode? (s.map fun c => if c = '+' then ' ' else c)).map String.ofList

/-- The names and values of a form body, if all of them can be decoded. -/
def formFields? (body : String) : Option (List (String × String)) :=
  if body.isEmpty then some []
  else (Text.pieces '&' body.toList).mapM fun p => do
    let name ← formDecode? (p.takeWhile (· ≠ '='))
    let value ← formDecode? ((p.dropWhile (· ≠ '=')).drop 1)
    some (name, value)

/-- The type of such a body. -/
def formType : String := "application/x-www-form-urlencoded"

end EdgeRouting.Http
