/-!
# Edge logic

Programs that an edge runs for each request: assignments to locals, headers and a few fixed places,
and chains of conditions. The language is just large enough for weighted selection, health checks,
table lookups, captures of a pattern and the assembly of texts. How a program is written down is the
matter of `Logic.Render`, what it does that of `Logic.Eval`.
-/

namespace EdgeRouting.Logic

/-- Type of a declared local. -/
inductive LocalType where
  | integer
  | text
  deriving Repr, DecidableEq

/-- The message that a header belongs to. -/
inductive Message where
  | request
  | backendResponse
  | response
  deriving Repr, DecidableEq

/-- Values that the edge provides. -/
inductive Builtin where
  | requestUrl
  | requestBackend
  | backendUrl
  deriving Repr, DecidableEq

inductive Comparison where
  | equal
  | atMost
  deriving Repr, DecidableEq

inductive Expr where
  | text (s : String)
  | bool (b : Bool)
  /-- A declared local. -/
  | localVar (name : String)
  | header (message : Message) (name : String)
  | builtin (b : Builtin)
  /-- A backend, by its name. -/
  | backend (name : String)
  /-- The health flag of a backend. -/
  | healthy (backend : String)
  /-- A random integer between two bounds that can both be drawn. -/
  | random (low high : Int)
  /-- The integer that a text denotes. -/
  | integerOf (e : Expr)
  /-- The entry of a table, or a default when there is none. -/
  | tableEntry (table key default : String)
  /-- The value of a key in a list of pairs `key=value`. -/
  | subfield (source : Expr) (key separator : String)
  /-- The input with the first match of a pattern replaced. -/
  | replaceFirst (input : Expr) (pattern replacement : String)
  /-- A group of the last successful match. -/
  | group (n : Nat)
  | concat (parts : List Expr)
  | compare (op : Comparison) (lhs rhs : Expr)
  | isMatch (subject : Expr) (pattern : String) (negated : Bool)
  | all (items : List Expr)
  | any (items : List Expr)
  deriving Repr, Inhabited

/-- A place that can be assigned to. -/
inductive Place where
  | localVar (name : String)
  | header (message : Message) (name : String)
  | requestBackend
  | backendUrl
  | cacheable
  deriving Repr, DecidableEq

inductive Stmt where
  | declare (name : String) (type : LocalType)
  | set (place : Place) (value : Expr)
  /-- Adds to an integer local. -/
  | add (name : String) (value : Expr)
  /-- The body of the first branch whose condition holds, and otherwise the last body. -/
  | choose (branches : List (Expr × List Stmt)) (otherwise : Option (List Stmt))
  /-- Text for the edge that is not looked into. -/
  | raw (text : String)
  deriving Repr, Inhabited

abbrev Program := List Stmt

namespace Stmt

def setLocal (name : String) (value : Expr) : Stmt := .set (.localVar name) value

end Stmt

end EdgeRouting.Logic
