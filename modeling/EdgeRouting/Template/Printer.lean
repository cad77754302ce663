import EdgeRouting.Template.Basic

/-!
# Writing templates

The text of a list of parts: literal text with its braces doubled, and each placeholder between
braces. Parts are in normal form when no literal is empty and no two literals are neighbours; such
parts are what reading a template gives.
-/

namespace EdgeRouting.Template

/-- Literal text with its braces doubled. -/
def escapeBraces : List Char → List Char
  | [] => []
  | '\x7b' :: r => '\x7b' :: '\x7b' :: escapeBraces r
  | '\x7d' :: r => '\x7d' :: '\x7d' :: escapeBraces r
  | c :: r => c :: escapeBraces r

def printPart : Template.Part → List Char
  | .literal s => escapeBraces s.toList
  | .field f => '\x7b' :: f.name.toList ++ ['\x7d']

def printParts (parts : List Template.Part) : String :=
  String.ofList (parts.flatMap printPart)

/-- No literal is empty, and no two literals are neighbours. -/
def IsNormal : List Template.Part → Prop
  | [] => True
  | .field _ :: r => IsNormal r
  | [.literal s] => s ≠ ""
  | .literal s :: .field _ :: r => s ≠ "" ∧ IsNormal r
  | .literal _ :: .literal _ :: _ => False

end EdgeRouting.Template
