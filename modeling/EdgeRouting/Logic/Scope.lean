import EdgeRouting.Logic.Pattern
import EdgeRouting.Logic.Program

/-!
# Well-formed edge logic

Which programs the edge accepts: a local is declared once and before it is used, and values are used
by their kinds. Texts in locals are put together or have a pattern replaced in them, and are used
for nothing else. A group is used only in the branch whose condition is the match that it belongs
to, and that branch makes no other match. The bodies of branches declare nothing, so what is declared
does not depend on the way that a run takes.
-/

namespace EdgeRouting.Logic

inductive ValueKind where
  | integer
  | text
  | flag
  deriving Repr, DecidableEq

/-- What an expression can refer to. -/
structure Scope where
  locals : List (String × LocalType)
  backends : List String
  /-- The groups of the match that guards the expression. -/
  groups : List Nat
  deriving Repr, DecidableEq

namespace Scope

/-- The scope at the beginning of a program. -/
def initial (backends : List String) : Scope := ⟨[], backends, []⟩

/-- The names of the locals, the last one declared first. -/
def names (sc : Scope) : List String := sc.locals.map Prod.fst

/-- The scope with another local. -/
def declare (sc : Scope) (name : String) (type : LocalType) : Scope :=
  { sc with locals := (name, type) :: sc.locals }

end Scope

mutual

/-- An expression has a value of a kind. -/
inductive Expr.HasKind (sc : Scope) : Expr → ValueKind → Prop where
  | text (s : String) : HasKind sc (.text s) .text
  | bool (b : Bool) : HasKind sc (.bool b) .flag
  | localVar {name : String} :
    (name, LocalType.integer) ∈ sc.locals → HasKind sc (.localVar name) .integer
  | header (m : Message) (name : String) : HasKind sc (.header m name) .text
  | builtin (b : Builtin) : HasKind sc (.builtin b) .text
  | backend {name : String} : name ∈ sc.backends → HasKind sc (.backend name) .text
  | healthy {name : String} : name ∈ sc.backends → HasKind sc (.healthy name) .flag
  | random {low high : Int} : low ≤ high → HasKind sc (.random low high) .integer
  | integerOf {e : Expr} : HasKind sc e .text → HasKind sc (.integerOf e) .integer
  | tableEntry (table key default : String) : HasKind sc (.tableEntry table key default) .text
  | subfield {source : Expr} (key separator : String) :
    HasKind sc source .text → HasKind sc (.subfield source key separator) .text
  | replaceFirst {input : Expr} (pattern replacement : String) :
    IsPart sc input → HasKind sc (.replaceFirst input pattern replacement) .text
  | group {n : Nat} : n ∈ sc.groups → HasKind sc (.group n) .text
  | concat {parts : List Expr} :
    (∀ e ∈ parts, IsPart sc e) → HasKind sc (.concat parts) .text
  | atMost {a b : Expr} :
    HasKind sc a .integer → HasKind sc b .integer → HasKind sc (.compare .atMost a b) .flag
  | equal {a b : Expr} :
    HasKind sc a .text → HasKind sc b .text → HasKind sc (.compare .equal a b) .flag
  -- A match would take the place of the one that the groups in scope belong to.
  | isMatch {e : Expr} (pattern : String) (negated : Bool) :
    sc.groups = [] → HasKind sc e .text → HasKind sc (.isMatch e pattern negated) .flag
  | all {items : List Expr} :
    (∀ e ∈ items, HasKind sc e .flag) → HasKind sc (.all items) .flag
  | any {items : List Expr} :
    (∀ e ∈ items, HasKind sc e .flag) → HasKind sc (.any items) .flag

/-- An expression can be a part of a text. -/
inductive Expr.IsPart (sc : Scope) : Expr → Prop where
  | text {e : Expr} : HasKind sc e .text → IsPart sc e
  | flag {e : Expr} : HasKind sc e .flag → IsPart sc e
  | localVar {name : String} :
    (name, LocalType.text) ∈ sc.locals → IsPart sc (.localVar name)

end

/-- The groups that the match in a condition leaves behind. -/
def guardGroups (patterns : List Pattern) : Expr → List Nat
  | .isMatch _ text false =>
    ((patterns.find? fun p => p.text == text).map Pattern.groups).getD []
  | _ => []

/-- The scope of the body of a branch. -/
def Scope.behind (patterns : List Pattern) (sc : Scope) (condition : Expr) : Scope :=
  { sc with groups := guardGroups patterns condition ++ sc.groups }

mutual

/-- A statement is well formed in a scope, and leaves another one to the statements after it. -/
inductive Stmt.Fits (patterns : List Pattern) : Scope → Stmt → Scope → Prop where
  | declare {sc : Scope} {name : String} {type : LocalType} :
    name ∉ sc.names → Stmt.Fits patterns sc (.declare name type) (sc.declare name type)
  | setInteger {sc : Scope} {name : String} {e : Expr} :
    (name, LocalType.integer) ∈ sc.locals → e.HasKind sc .integer →
      Stmt.Fits patterns sc (.set (.localVar name) e) sc
  | setText {sc : Scope} {name : String} {e : Expr} :
    (name, LocalType.text) ∈ sc.locals → e.HasKind sc .text →
      Stmt.Fits patterns sc (.set (.localVar name) e) sc
  | setHeader {sc : Scope} {m : Message} {name : String} {e : Expr} :
    e.HasKind sc .text → Stmt.Fits patterns sc (.set (.header m name) e) sc
  | setBackend {sc : Scope} {name : String} :
    name ∈ sc.backends → Stmt.Fits patterns sc (.set .requestBackend (.backend name)) sc
  | setBackendUrl {sc : Scope} {e : Expr} :
    e.HasKind sc .text → Stmt.Fits patterns sc (.set .backendUrl e) sc
  | setCacheable {sc : Scope} {e : Expr} :
    e.HasKind sc .flag → Stmt.Fits patterns sc (.set .cacheable e) sc
  | add {sc : Scope} {name : String} {e : Expr} :
    (name, LocalType.integer) ∈ sc.locals → e.HasKind sc .integer →
      Stmt.Fits patterns sc (.add name e) sc
  | choose {sc : Scope} {branches : List (Expr × List Stmt)} {otherwise : Option (List Stmt)} :
    BranchesFit patterns sc branches → OtherwiseFits patterns sc otherwise →
      Stmt.Fits patterns sc (.choose branches otherwise) sc
  | raw {sc : Scope} (text : String) : Stmt.Fits patterns sc (.raw text) sc

/-- Statements are well formed one after the other. -/
inductive AllFit (patterns : List Pattern) : Scope → List Stmt → Scope → Prop where
  | nil {sc : Scope} : AllFit patterns sc [] sc
  | cons {sc₁ sc₂ sc₃ : Scope} {st : Stmt} {r : List Stmt} :
    Stmt.Fits patterns sc₁ st sc₂ → AllFit patterns sc₂ r sc₃ →
      AllFit patterns sc₁ (st :: r) sc₃

/-- The conditions of branches are flags, and the bodies are well formed behind them. -/
inductive BranchesFit (patterns : List Pattern) : Scope → List (Expr × List Stmt) → Prop where
  | nil {sc : Scope} : BranchesFit patterns sc []
  | cons {sc : Scope} {condition : Expr} {body : List Stmt} {r : List (Expr × List Stmt)} :
    condition.HasKind sc .flag →
      AllFit patterns (sc.behind patterns condition) body (sc.behind patterns condition) →
      BranchesFit patterns sc r → BranchesFit patterns sc ((condition, body) :: r)

/-- The last body of a choice is well formed, if there is one. -/
inductive OtherwiseFits (patterns : List Pattern) : Scope → Option (List Stmt) → Prop where
  | none {sc : Scope} : OtherwiseFits patterns sc none
  | some {sc : Scope} {body : List Stmt} :
    AllFit patterns sc body sc → OtherwiseFits patterns sc (some body)

end

/-- A program that refers to no backend but these is well formed. -/
def Program.WellFormed (patterns : List Pattern) (backends : List String) (p : Program) : Prop :=
  ∃ sc, AllFit patterns (.initial backends) p sc

/-! ## Declarations -/

mutual

/-- The locals that a statement declares, at any depth. -/
def Stmt.declared : Stmt → List String
  | .declare name _ => [name]
  | .choose branches otherwise => declaredInBranches branches ++ declaredInOtherwise otherwise
  | _ => []

def declaredIn : List Stmt → List String
  | [] => []
  | st :: r => st.declared ++ declaredIn r

def declaredInBranches : List (Expr × List Stmt) → List String
  | [] => []
  | (_, body) :: r => declaredIn body ++ declaredInBranches r

def declaredInOtherwise : Option (List Stmt) → List String
  | none => []
  | some body => declaredIn body

end

end EdgeRouting.Logic
