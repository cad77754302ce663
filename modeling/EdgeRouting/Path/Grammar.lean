import EdgeRouting.Path.Inbound

/-!
# The grammar of inbound paths

The form of a path as a relation between a path and its pieces, without a word on how the pieces are
found. A path can be cut in several ways; the cut that counts has the longest action and, among
those, the longest version.
-/

namespace EdgeRouting.PathCut

/-- Nothing, or a divider with at least one character behind it. -/
def IsVersion : List Char → Prop
  | [] => True
  | d :: r => isDivider d = true ∧ r ≠ [] ∧ ∀ c ∈ r, isNameChar c = true

/-- The pieces of a cut have the forms that the grammar asks for. -/
structure WellFormed (c : PathCut) : Prop where
  package_ne_nil : c.package ≠ []
  package_chars : ∀ x ∈ c.package, x ≠ '/'
  action_ne_nil : c.action ≠ []
  action_chars : ∀ x ∈ c.action, isNameChar x = true
  version_form : IsVersion c.version
  rest_chars : '\n' ∉ c.rest

/-- The path that the pieces make up. -/
def path (c : PathCut) : List Char :=
  '/' :: c.package ++ '/' :: c.action ++ c.version ++ c.rest

/-- A cut of a path. -/
def Cuts (url : List Char) (c : PathCut) : Prop := c.WellFormed ∧ c.path = url

/-- The cut that counts: no other one has a longer action, or the same action and a longer
version. -/
def IsLongest (url : List Char) (c : PathCut) : Prop :=
  Cuts url c ∧ ∀ d, Cuts url d →
    d.action.length < c.action.length ∨
      (d.action.length = c.action.length ∧ d.version.length ≤ c.version.length)

end EdgeRouting.PathCut
