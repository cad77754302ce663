import EdgeRouting.Logic.Literal
import EdgeRouting.Logic.Program
import EdgeRouting.Text.Blank

/-!
# Writing edge logic

The text of a program in VCL, the configuration language of the edge: one statement a line, with
bodies indented by two spaces. Nested conditions stand in parentheses, a condition of its own does
not. Raw text keeps its lines that are not blank, without the blanks at their ends.
-/

namespace EdgeRouting.Logic

def Message.word : Message → String
  | .request => "req"
  | .backendResponse => "beresp"
  | .response => "resp"

def LocalType.word : LocalType → String
  | .integer => "INTEGER"
  | .text => "STRING"

def Builtin.word : Builtin → String
  | .requestUrl => "req.url"
  | .requestBackend => "req.backend"
  | .backendUrl => "bereq.url"

def Comparison.sign : Comparison → String
  | .equal => "=="
  | .atMost => "<="

def localText (name : String) : String := "var." ++ name

def headerText (m : Message) (name : String) : String := m.word ++ ".http." ++ name

def Place.text : Place → String
  | .localVar name => localText name
  | .header m name => headerText m name
  | .requestBackend => "req.backend"
  | .backendUrl => "bereq.url"
  | .cacheable => "beresp.cacheable"

def matchSign (negated : Bool) : String := if negated then "!~" else "~"

/-! ## Expressions -/

mutual

def Expr.render : Expr → String
  | .text s => literal s
  | .bool b => if b then "true" else "false"
  | .localVar name => localText name
  | .header m name => headerText m name
  | .builtin b => b.word
  | .backend name => name
  | .healthy name => "backend." ++ name ++ ".healthy"
  | .random low high => "randomint(" ++ toString low ++ ", " ++ toString high ++ ")"
  | .integerOf e => "std.atoi(" ++ e.render ++ ")"
  | .tableEntry table key default =>
    "table.lookup(" ++ table ++ ", " ++ literal key ++ ", " ++ literal default ++ ")"
  | .subfield source key separator =>
    "subfield(" ++ source.render ++ ", " ++ literal key ++ ", " ++ literal separator ++ ")"
  | .replaceFirst input pattern replacement =>
    "regsub(" ++ input.render ++ ", " ++ literal pattern ++ ", " ++ literal replacement ++ ")"
  | .group n => "re.group." ++ toString n
  | .concat parts => if parts.isEmpty then "\"\"" else " + ".intercalate (renderAll parts)
  | .compare op lhs rhs => lhs.render ++ " " ++ op.sign ++ " " ++ rhs.render
  | .isMatch subject pattern negated =>
    subject.render ++ " " ++ matchSign negated ++ " " ++ literal pattern
  | .all items => "(" ++ " && ".intercalate (renderAll items) ++ ")"
  | .any items => "(" ++ " || ".intercalate (renderAll items) ++ ")"

def renderAll : List Expr → List String
  | [] => []
  | e :: r => e.render :: renderAll r

end

/-- The text of a condition that stands on its own. -/
def Expr.renderCondition : Expr → String
  | .all items => " && ".intercalate (renderAll items)
  | .any items => " || ".intercalate (renderAll items)
  | e => e.render

/-! ## Statements -/

/-- The lines of a text; what follows the last line break is a line only if it is not empty. -/
def linesOf : List Char → List (List Char)
  | [] => []
  | c :: r =>
    if c = '\n' then [] :: linesOf r
    else match linesOf r with
      | [] => [[c]]
      | l :: ls => (c :: l) :: ls

/-- Raw text with an indentation: its lines that are not blank, without the blanks at their ends. -/
def renderRaw (pad : String) (text : String) : String :=
  String.join (((linesOf text.toList).filter fun l => !l.all Text.isBlank).map fun l =>
    pad ++ String.ofList (Text.trimEndChars l) ++ "\n")

def indentation (depth : Nat) : String := String.ofList (List.replicate (2 * depth) ' ')

mutual

def Stmt.render (depth : Nat) : Stmt → String
  | .declare name type =>
    indentation depth ++ "declare local var." ++ name ++ " " ++ type.word ++ ";\n"
  | .set place value =>
    indentation depth ++ "set " ++ place.text ++ " = " ++ value.render ++ ";\n"
  | .add name value =>
    indentation depth ++ "set " ++ localText name ++ " += " ++ value.render ++ ";\n"
  | .choose branches otherwise =>
    renderBranches depth true branches ++ renderOtherwise depth branches.isEmpty otherwise
      ++ (if branches.isEmpty && otherwise.isNone then "" else indentation depth ++ "\x7d\n")
  | .raw text => renderRaw (indentation depth) text

def renderStmts (depth : Nat) : List Stmt → String
  | [] => ""
  | s :: r => s.render depth ++ renderStmts depth r

/-- Branches, of which only the first of a chain does not close the one before it. -/
def renderBranches (depth : Nat) (first : Bool) : List (Expr × List Stmt) → String
  | [] => ""
  | (condition, body) :: r =>
    indentation depth ++ (if first then "if (" else "\x7d else if (") ++ condition.renderCondition
      ++ ") \x7b\n" ++ renderStmts (depth + 1) body ++ renderBranches depth false r

def renderOtherwise (depth : Nat) (first : Bool) : Option (List Stmt) → String
  | none => ""
  | some body =>
    indentation depth ++ (if first then "\x7b\n" else "\x7d else \x7b\n")
      ++ renderStmts (depth + 1) body

end

/-- The text of a program. -/
def render (p : Program) : String := renderStmts 0 p

end EdgeRouting.Logic
