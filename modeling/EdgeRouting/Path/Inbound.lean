import EdgeRouting.Template.Basic

/-!
# Inbound paths

An inbound path has the form `/<package>/<action>[<divider><version>]<rest>`, where the divider is
an at sign or an underscore. Package and action are as long as they can be, then the version is; the
rest is on one line. A path of another form has no fields at all, which is the same as empty fields.
-/

namespace EdgeRouting

/-- The places at which a path is cut. -/
structure PathCut where
  package : List Char
  action : List Char
  /-- Empty, or a divider with the version behind it. -/
  version : List Char
  rest : List Char
  deriving Repr, DecidableEq

namespace PathCut

def isDivider (c : Char) : Bool := c = '@' || c = '_'

def isPackageChar (c : Char) : Bool := c ≠ '/'

/-- A character that can stand in an action and behind the divider of a version. -/
def isNameChar (c : Char) : Bool := c ≠ '/' && !isDivider c

/-- A divider and a version at the front of a text, or nothing when there is none. -/
def cutVersion : List Char → List Char × List Char
  | [] => ([], [])
  | d :: r =>
    if isDivider d && !(r.takeWhile isNameChar).isEmpty then
      (d :: r.takeWhile isNameChar, r.dropWhile isNameChar)
    else ([], d :: r)

/-- The cut of a text that begins with the package. -/
def ofPackage? (s : List Char) : Option PathCut :=
  let package := s.takeWhile isPackageChar
  match s.dropWhile isPackageChar with
  | [] => none
  | _ :: t =>
    let action := t.takeWhile isNameChar
    let (version, rest) := cutVersion (t.dropWhile isNameChar)
    if package.isEmpty || action.isEmpty || rest.contains '\n' then none
    else some ⟨package, action, version, rest⟩

def ofPath? : List Char → Option PathCut
  | '/' :: s => ofPackage? s
  | _ => none

/-- The version behind another divider; an absent version stays absent. -/
def withDivider (divider : Char) : List Char → List Char
  | [] => []
  | _ :: version => divider :: version

end PathCut

/-- The fields of an inbound path. -/
structure InboundPath where
  package : String
  action : String
  /-- The version with its divider. -/
  version : String
  underscoreVersion : String
  atVersion : String
  slashVersion : String
  rest : String
  deriving Repr, DecidableEq

namespace InboundPath

def empty : InboundPath := ⟨"", "", "", "", "", "", ""⟩

def ofCut (c : PathCut) : InboundPath where
  package := String.ofList c.package
  action := String.ofList c.action
  version := String.ofList c.version
  underscoreVersion := String.ofList (PathCut.withDivider '_' c.version)
  atVersion := String.ofList (PathCut.withDivider '@' c.version)
  slashVersion := String.ofList (PathCut.withDivider '/' c.version)
  rest := String.ofList c.rest

/-- The fields of a path, which are empty for a path of another form. -/
def ofUrl (url : String) : InboundPath :=
  match PathCut.ofPath? url.toList with
  | none => empty
  | some c => ofCut c

def isEmpty (p : InboundPath) : Bool := p = empty

/-- The value of a field; the base path is no part of a path. -/
def value (p : InboundPath) : Placeholder → String
  | .package => p.package
  | .action => p.action
  | .version => p.version
  | .underscoreVersion => p.underscoreVersion
  | .atVersion => p.atVersion
  | .slashVersion => p.slashVersion
  | .rest => p.rest
  | .basePath => ""

end InboundPath

/-! ## Where a cut is made -/

namespace PathCut

theorem cutVersion_append (s : List Char) : (cutVersion s).1 ++ (cutVersion s).2 = s := by
  cases s with
  | nil => rfl
  | cons d r =>
    simp only [cutVersion]
    split <;> simp

theorem not_isPackageChar_head {s t : List Char} {c : Char}
    (h : s.dropWhile isPackageChar = c :: t) : c = '/' := by
  have := List.head?_dropWhile_not isPackageChar s
  rw [h] at this
  simpa [isPackageChar] using this

end PathCut

end EdgeRouting
