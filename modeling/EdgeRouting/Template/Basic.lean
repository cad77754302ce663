import EdgeRouting.Text.Blank

/-!
# URL templates

A template is a text with placeholders between braces, such as `/api/{package}/{action}{rest}`; a
doubled brace stands for one brace of the text. Reading a template gives its parts, literal texts
and placeholders, or the first fault with its place. Places count the bytes of the UTF-8 form of the
text.
-/

namespace EdgeRouting

/-- A value that a template can refer to: a field of an inbound path, or the base path. -/
inductive Placeholder where
  | package
  | action
  /-- The version with the divider it was written with. -/
  | version
  /-- The version behind an underscore. -/
  | underscoreVersion
  /-- The version behind an at sign. -/
  | atVersion
  /-- The version behind a slash. -/
  | slashVersion
  | rest
  /-- The base path of the target, which no request can change. -/
  | basePath
  deriving Repr, DecidableEq

namespace Placeholder

/-- Every placeholder, in the order in which they are declared and looked up. -/
def all : List Placeholder :=
  [.package, .action, .version, .underscoreVersion, .atVersion, .slashVersion, .rest, .basePath]

/-- The placeholders whose value comes from a request: all but the base path. -/
def ofRequest : List Placeholder :=
  [.package, .action, .version, .underscoreVersion, .atVersion, .slashVersion, .rest]

/-- The name between the braces. -/
def name : Placeholder → String
  | .package => "package"
  | .action => "action"
  | .version => "version"
  | .underscoreVersion => "_version"
  | .atVersion => "atversion"
  | .slashVersion => "slashversion"
  | .rest => "rest"
  | .basePath => "base_path"

def ofName? (text : String) : Option Placeholder :=
  all.find? fun f => f.name == text

theorem ofName?_name (f : Placeholder) : ofName? f.name = some f := by
  cases f <;> decide

end Placeholder

/-- A piece of a template. -/
inductive Template.Part where
  | literal (text : String)
  | field (f : Placeholder)
  deriving Repr, DecidableEq

/-- Why a text is no template. -/
inductive Template.Fault where
  | unknownPlaceholder (name : String)
  /-- The brace at this byte is never closed. -/
  | unclosed (byte : Nat)
  /-- The closing brace at this byte belongs to no opening one. -/
  | strayBrace (byte : Nat)
  deriving Repr, DecidableEq

def Template.Fault.message : Template.Fault → String
  | .unknownPlaceholder name => "unknown placeholder '\x7b" ++ name ++ "\x7d'"
  | .unclosed byte => "unclosed '\x7b' at byte " ++ toString byte
  | .strayBrace byte => "unmatched '\x7d' at byte " ++ toString byte

/-- A template with the text it was read from. -/
structure Template where
  source : String
  parts : List Template.Part
  deriving Repr, DecidableEq

namespace Template

/-! ## Reading -/

/-- The text before the first closing brace and the text after it. -/
def untilClose : List Char → Option (List Char × List Char)
  | [] => none
  | '\x7d' :: r => some ([], r)
  | c :: r => (untilClose r).map fun p => (c :: p.1, p.2)

theorem length_of_untilClose {s name rest : List Char} (h : untilClose s = some (name, rest)) :
    rest.length < s.length := by
  fun_induction untilClose s generalizing name rest with
  | case1 => simp at h
  | case2 r =>
    obtain ⟨-, rfl⟩ := Prod.mk.injEq .. ▸ Option.some.injEq .. ▸ h
    simp
  | case3 c r _ ih =>
    obtain ⟨⟨n, t⟩, hnt, he⟩ := Option.map_eq_some_iff.1 h
    have := ih hnt
    simp only [Prod.mk.injEq] at he
    simp only [List.length_cons, ← he.2]
    omega

/-- The number of bytes of a text. -/
def byteLength : List Char → Nat
  | [] => 0
  | c :: r => c.utf8Size + byteLength r

/-- Literal text as a part, and no part for the empty text. -/
def literalParts (s : List Char) : List Template.Part :=
  if s.isEmpty then [] else [.literal (String.ofList s)]

/-- The parts of the text that begins at byte `pos`, where `pending` is the literal text that has
been read since the last placeholder. -/
def scan (pos : Nat) (pending : List Char) (s : List Char) :
    Except Template.Fault (List Template.Part) :=
  match s with
  | [] => .ok (literalParts pending)
  | '\x7b' :: '\x7b' :: r => scan (pos + 2) (pending ++ ['\x7b']) r
  | '\x7d' :: '\x7d' :: r => scan (pos + 2) (pending ++ ['\x7d']) r
  | '\x7b' :: r =>
    match _hclose : untilClose r with
    | none => .error (.unclosed pos)
    | some (name, rest) =>
      match Placeholder.ofName? (String.ofList (Text.trimChars name)) with
      | none => .error (.unknownPlaceholder (String.ofList name))
      | some f => do
        let parts ← scan (pos + byteLength name + 2) [] rest
        .ok (literalParts pending ++ .field f :: parts)
  | '\x7d' :: _ => .error (.strayBrace pos)
  | c :: r => scan (pos + c.utf8Size) (pending ++ [c]) r
termination_by s.length
decreasing_by
  all_goals simp only [List.length_cons]
  all_goals first
    | omega
    | (have hlt := length_of_untilClose _hclose; omega)

/-- The template that a text denotes. -/
def parse (source : String) : Except Template.Fault Template := do
  let parts ← scan 0 [] source.toList
  .ok ⟨source, parts⟩

/-! ## Filling in -/

def expandParts (value : Placeholder → String) : List Template.Part → String
  | [] => ""
  | .literal s :: r => s ++ expandParts value r
  | .field f :: r => value f ++ expandParts value r

/-- The text of a template in which each placeholder stands for its value. -/
def expand (t : Template) (value : Placeholder → String) : String := expandParts value t.parts

theorem expandParts_append (value : Placeholder → String) (a b : List Template.Part) :
    expandParts value (a ++ b) = expandParts value a ++ expandParts value b := by
  induction a with
  | nil => simp [expandParts]
  | cons p r ih => cases p <;> simp [expandParts, ih, String.append_assoc]

end Template

end EdgeRouting
