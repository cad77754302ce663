import EdgeRouting.Logic.Pattern
import EdgeRouting.Logic.Program
import EdgeRouting.Selection.Subfield

/-!
# Running edge logic

What a program does to the state of a request. The edge around it is fixed during a run: the draw,
the health of the backends, the tables, and the patterns that the texts of patterns denote. A run
that uses a local before its declaration, or a value of the wrong kind, has no outcome; nor has one
in which the draw lies outside the bounds that it is drawn from.
-/

namespace EdgeRouting.Logic

inductive LogicValue where
  | integer (n : Int)
  | text (s : String)
  | flag (b : Bool)
  deriving Repr, DecidableEq

/-- A value as a text; a flag is one digit. -/
def LogicValue.asText : LogicValue → String
  | .integer n => toString n
  | .text s => s
  | .flag b => if b then "1" else "0"

/-- What surrounds a run. -/
structure Edge where
  /-- The outcome of every random draw. -/
  draw : Int
  /-- The health of a backend. -/
  healthy : String → Bool
  /-- The entry of a table under a key. -/
  entry : String → String → Option String
  patterns : List Pattern

namespace Edge

/-- The pattern that a text denotes. -/
def pattern? (edge : Edge) (text : String) : Option Pattern :=
  edge.patterns.find? fun p => p.text == text

end Edge

/-- The state of a request. -/
structure RequestState where
  locals : String → Option LogicValue
  /-- Headers by the lower-cased name. -/
  headers : Message → String → Option String
  url : String
  backend : String
  backendUrl : String
  cacheable : Bool
  /-- The last successful match. -/
  lastMatch : Option Pattern.Match
  /-- The raw texts that have been reached. -/
  raw : List String

namespace RequestState

/-- Names of headers agree when they differ in the case of ASCII letters only. -/
def headerKey (name : String) : String := String.ofList (name.toList.map Char.toLower)

def header? (s : RequestState) (m : Message) (name : String) : Option String :=
  s.headers m (headerKey name)

def setLocal (s : RequestState) (name : String) (v : LogicValue) : RequestState :=
  { s with locals := fun n => if n = name then some v else s.locals n }

def setHeader (s : RequestState) (m : Message) (name value : String) : RequestState :=
  { s with headers := fun m' n =>
      if m' = m ∧ n = headerKey name then some value else s.headers m' n }

end RequestState

/-! ## Expressions -/

/-- The number that decimal digits denote; a text of anything else counts as zero. -/
def numberOfDigits (ds : List Char) : Nat :=
  if ds.all Char.isDigit then Nat.ofDigitChars 10 ds 0 else 0

/-- The integer that a text denotes: decimal digits, perhaps behind a minus sign. -/
def integerOfText (s : String) : Int :=
  match s.toList with
  | '-' :: ds => -(numberOfDigits ds : Int)
  | ds => numberOfDigits ds

/-- The value of a key in a list of pairs, which is empty where there is none. -/
def subfieldText (source key separator : String) : String :=
  match separator.toList with
  | [c] => (Selection.subfield source key c).getD ""
  | _ => ""

def compareValues : Comparison → LogicValue → LogicValue → Option Bool
  | .equal, .integer a, .integer b => some (a = b)
  | .equal, a, b => some (a.asText = b.asText)
  | .atMost, .integer a, .integer b => some (a ≤ b)
  | .atMost, _, _ => none

mutual

/-- The value of an expression, and the state after the matches in it. -/
def Expr.eval (edge : Edge) (s : RequestState) : Expr → Option (LogicValue × RequestState)
  | .text t => some (.text t, s)
  | .bool b => some (.flag b, s)
  | .localVar name => (s.locals name).map fun v => (v, s)
  | .header m name => some (.text ((s.header? m name).getD ""), s)
  | .builtin .requestUrl => some (.text s.url, s)
  | .builtin .requestBackend => some (.text s.backend, s)
  | .builtin .backendUrl => some (.text s.backendUrl, s)
  | .backend name => some (.text name, s)
  | .healthy name => some (.flag (edge.healthy name), s)
  | .random low high =>
    if low ≤ edge.draw ∧ edge.draw ≤ high then some (.integer edge.draw, s) else none
  | .integerOf e => do
    let (v, s) ← e.eval edge s
    some (.integer (integerOfText v.asText), s)
  | .tableEntry table key default => some (.text ((edge.entry table key).getD default), s)
  | .subfield source key separator => do
    let (v, s) ← source.eval edge s
    some (.text (subfieldText v.asText key separator), s)
  | .replaceFirst input pattern replacement => do
    let (v, s) ← input.eval edge s
    let p ← edge.pattern? pattern
    some (.text (p.replaceFirst v.asText replacement), s)
  | .group n => some (.text ((s.lastMatch.map (·.group n)).getD ""), s)
  | .concat parts => do
    let (t, s) ← concatAll edge s parts
    some (.text t, s)
  | .compare op lhs rhs => do
    let (a, s) ← lhs.eval edge s
    let (b, s) ← rhs.eval edge s
    let holds ← compareValues op a b
    some (.flag holds, s)
  | .isMatch subject pattern negated => do
    let (v, s) ← subject.eval edge s
    let p ← edge.pattern? pattern
    match p.find? v.asText with
    | some m => some (.flag !negated, { s with lastMatch := some m })
    | none => some (.flag negated, s)
  | .all items => do
    let (b, s) ← allHold edge s items
    some (.flag b, s)
  | .any items => do
    let (b, s) ← anyHolds edge s items
    some (.flag b, s)

/-- The texts of expressions, one behind the other. -/
def concatAll (edge : Edge) (s : RequestState) : List Expr → Option (String × RequestState)
  | [] => some ("", s)
  | e :: r => do
    let (v, s) ← e.eval edge s
    let (t, s) ← concatAll edge s r
    some (v.asText ++ t, s)

/-- Whether all conditions hold; none is looked at behind one that does not. -/
def allHold (edge : Edge) (s : RequestState) : List Expr → Option (Bool × RequestState)
  | [] => some (true, s)
  | e :: r => do
    match ← e.eval edge s with
    | (.flag true, s) => allHold edge s r
    | (.flag false, s) => some (false, s)
    | _ => none

/-- Whether any condition holds; none is looked at behind one that does. -/
def anyHolds (edge : Edge) (s : RequestState) : List Expr → Option (Bool × RequestState)
  | [] => some (false, s)
  | e :: r => do
    match ← e.eval edge s with
    | (.flag true, s) => some (true, s)
    | (.flag false, s) => anyHolds edge s r
    | _ => none

end

/-! ## Statements -/

/-- What a local holds before it is assigned to. -/
def LocalType.initial : LocalType → LogicValue
  | .integer => .integer 0
  | .text => .text ""

/-- A value for a local that holds another one: integers for integers, texts for texts. -/
def valueFor : LogicValue → LogicValue → Option LogicValue
  | .integer _, .integer n => some (.integer n)
  | .text _, .integer _ => none
  | .text _, v => some (.text v.asText)
  | _, _ => none

def Place.assign (s : RequestState) (v : LogicValue) : Place → Option RequestState
  | .localVar name => do
    let held ← s.locals name
    let v ← valueFor held v
    some (s.setLocal name v)
  | .header m name => some (s.setHeader m name v.asText)
  | .requestBackend => some { s with backend := v.asText }
  | .backendUrl => some { s with backendUrl := v.asText }
  | .cacheable =>
    match v with
    | .flag b => some { s with cacheable := b }
    | _ => none

mutual

/-- The state after a statement. -/
def Stmt.run (edge : Edge) (s : RequestState) : Stmt → Option RequestState
  | .declare name type =>
    if (s.locals name).isSome then none else some (s.setLocal name type.initial)
  | .set place value => do
    let (v, s) ← value.eval edge s
    place.assign s v
  | .add name value => do
    let (v, s) ← value.eval edge s
    match s.locals name, v with
    | some (.integer a), .integer b => some (s.setLocal name (.integer (a + b)))
    | _, _ => none
  | .choose branches otherwise => do
    match ← runBranches edge s branches with
    | (s, true) => some s
    | (s, false) => runOtherwise edge s otherwise
  | .raw text => some { s with raw := s.raw ++ [text] }

/-- The state after statements in order. -/
def runAll (edge : Edge) (s : RequestState) : List Stmt → Option RequestState
  | [] => some s
  | st :: r => do
    let s ← st.run edge s
    runAll edge s r

/-- The state after the body of the first branch whose condition holds, and whether there is one. -/
def runBranches (edge : Edge) (s : RequestState) :
    List (Expr × List Stmt) → Option (RequestState × Bool)
  | [] => some (s, false)
  | (condition, body) :: r => do
    match ← condition.eval edge s with
    | (.flag true, s) =>
      let s ← runAll edge s body
      some (s, true)
    | (.flag false, s) => runBranches edge s r
    | _ => none

/-- The state after the last body of a choice, if there is one. -/
def runOtherwise (edge : Edge) (s : RequestState) : Option (List Stmt) → Option RequestState
  | none => some s
  | some body => runAll edge s body

end

/-- The state after a program. -/
def Program.run (edge : Edge) (s : RequestState) (p : Program) : Option RequestState :=
  runAll edge s p

end EdgeRouting.Logic
