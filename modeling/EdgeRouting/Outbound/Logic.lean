import EdgeRouting.Logic.Pattern
import EdgeRouting.Logic.Program
import EdgeRouting.Outbound.Basic

/-!
# Outbound URLs as edge logic

The program that makes the same URLs at the edge. Each field of a path has a local of its name; one
match of the path pattern sets them, with the version brought behind each divider by a replacement,
and a chain of conditions on the backend assembles the URL.
-/

namespace EdgeRouting.Outbound

open Logic

/-- The form of a path: package, action, version with its divider, and rest as four groups. -/
def pathPattern : Pattern :=
  .sequence .start <| .sequence (.exactly '/') <|
    .sequence (.group 1 (.oneOrMore (.noneOf ['/']))) <| .sequence (.exactly '/') <|
    .sequence (.group 2 (.oneOrMore (.noneOf ['/', '@', '_']))) <|
    .sequence (.optional (.group 3
      (.sequence (.one (.oneOf ['@', '_'])) (.oneOrMore (.noneOf ['/', '@', '_']))))) <|
    .sequence (.group 4 (.zeroOrMore .visible)) .finish

/-- The divider in front of a version. -/
def dividerPattern : Pattern := .one (.oneOf ['@', '_'])

example : pathPattern.text = "^/([^/]+)/([^/@_]+)([@_][^/@_]+)?(.*)$" := rfl

def setField (f : Placeholder) (e : Expr) : Stmt := .setLocal f.name e

/-- Sets the local of a field to the version behind a divider. -/
def setVersion (f : Placeholder) (divider : String) : Stmt :=
  setField f (.replaceFirst (.localVar Placeholder.version.name) dividerPattern.text divider)

def readFields : List Stmt :=
  [setField .package (.group 1), setField .action (.group 2), setField .version (.group 3),
    setField .rest (.group 4), setVersion .underscoreVersion "_", setVersion .atVersion "@",
    setVersion .slashVersion "/"]

def partExpr (basePath : String) : Template.Part → Expr
  | .literal s => .text s
  | .field .basePath => .text basePath
  | .field f => .localVar f.name

def urlExpr (r : Outbound.Route) : Expr := .concat (r.template.parts.map (partExpr r.basePath))

def routeBranch (r : Outbound.Route) : Expr × List Stmt :=
  (.compare .equal (.builtin .requestBackend) (.backend r.backend), [.set .backendUrl (urlExpr r)])

/-- The routes as a program for the phases in which a request is sent on. -/
def program (o : Outbound) : Program :=
  Placeholder.ofRequest.map (fun f => Stmt.declare f.name .text)
    ++ Placeholder.ofRequest.map (fun f => setField f (.text ""))
    ++ [.choose [(.isMatch (.builtin .requestUrl) pathPattern.text false, readFields)] none,
      .choose (o.routes.map routeBranch) none]

end EdgeRouting.Outbound
