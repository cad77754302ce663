import EdgeRouting.Logic.Pattern
import EdgeRouting.Logic.Program
import EdgeRouting.Selection.Selector
import EdgeRouting.Text.Blank

/-!
# Selection as edge logic

The program that makes the same selection at the edge. The weights stand in locals, each read from
the table of priorities with its own weight as the default, and are then summed up in order;
the health of all backends goes into a header; a chain of conditions assigns the backend.
-/

namespace EdgeRouting.Selector

open Logic

/-- The edge table that holds priorities. -/
def priorityTableName : String := "priorities"

/-- The request header that carries the health of all backends. -/
def healthHeader : String := "X-Backend-Health"

def drawLocal : String := "draw"

def weightLocal (c : Contender) : String := "weight_" ++ c.key

/-- The weight of a target as the edge finds it. -/
def weightExpr (c : Contender) : Expr :=
  .integerOf (.tableEntry priorityTableName c.key (toString c.weight.toInt))

/-- Each weight but the first is increased by the one before it. -/
def sumStmts : List Contender → List Stmt
  | a :: b :: r => .add (weightLocal b) (.localVar (weightLocal a)) :: sumStmts (b :: r)
  | _ => []

/-- The health flags of the targets with spaces between them. -/
def healthExprs : List Contender → List Expr
  | [] => []
  | [c] => [.healthy c.backend]
  | c :: r => .healthy c.backend :: .text " " :: healthExprs r

/-- The override that a request carries. -/
def tokenExpr (lockHeader : String) : Expr :=
  .subfield (.header .request lockHeader) Selection.overrideKey
    (String.singleton Selection.overrideSeparator)

/-- What a text with any visible character matches. -/
def presencePattern : Pattern := .one .visible

def winCondition (lockHeader : String) (c : Contender) : Expr :=
  .any [
    .all [
      .compare .atMost (.localVar drawLocal) (.localVar (weightLocal c)),
      .healthy c.backend,
      .isMatch (tokenExpr lockHeader) presencePattern.text true],
    .compare .equal (tokenExpr lockHeader) (.text c.key)]

def winBranch (lockHeader : String) (c : Contender) : Expr × List Stmt :=
  (winCondition lockHeader c, [.set .requestBackend (.backend c.backend)])

/-- The backend of the first target, and its fallback logic unless that is blank. -/
def fallbackStmts (p : Selector) : List Stmt :=
  .set .requestBackend (.backend (p.contenders.head p.nonempty).backend)
    :: (if Text.isBlankText p.fallbackLogic then [] else [.raw p.fallbackLogic])

/-- The selector as a program for the phase in which a request arrives. -/
def program (p : Selector) : Program :=
  p.contenders.map (fun c => Stmt.declare (weightLocal c) .integer)
    ++ p.contenders.map (fun c => Stmt.setLocal (weightLocal c) (weightExpr c))
    ++ sumStmts p.contenders
    ++ [.declare drawLocal .integer,
      .setLocal drawLocal (.random 0 (drawRange - 1)),
      .set (.header .request healthHeader) (.concat (healthExprs p.contenders)),
      .choose (p.contenders.map (winBranch p.lockHeader)) (some p.fallbackStmts)]

end EdgeRouting.Selector
