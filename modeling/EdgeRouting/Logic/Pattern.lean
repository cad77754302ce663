/-!
# Patterns

Patterns over the characters of a text, as far as edge logic uses them. A match is the leftmost one,
and of those that begin there the one that is found first when every choice is tried in its order of
preference: a repetition takes as many characters as it can, and an optional part is taken if it can
be. A pattern is written in the usual notation.
-/

namespace EdgeRouting.Logic

inductive CharClass where
  /-- Any character but the line break. -/
  | visible
  | oneOf (chars : List Char)
  | noneOf (chars : List Char)
  deriving Repr, DecidableEq

def CharClass.holds : CharClass → Char → Bool
  | .visible, c => c ≠ '\n'
  | .oneOf chars, c => chars.contains c
  | .noneOf chars, c => !chars.contains c

def CharClass.text : CharClass → String
  | .visible => "."
  | .oneOf chars => "[" ++ String.ofList chars ++ "]"
  | .noneOf chars => "[^" ++ String.ofList chars ++ "]"

inductive Pattern where
  /-- The beginning of the text. -/
  | start
  /-- The end of the text. -/
  | finish
  /-- A character that stands for itself. -/
  | exactly (c : Char)
  | one (k : CharClass)
  | oneOrMore (k : CharClass)
  | zeroOrMore (k : CharClass)
  | sequence (first second : Pattern)
  | optional (p : Pattern)
  /-- A part whose match is kept under a number. -/
  | group (n : Nat) (p : Pattern)
  deriving Repr, DecidableEq

namespace Pattern

def text : Pattern → String
  | start => "^"
  | finish => "$"
  | exactly c => String.singleton c
  | one k => k.text
  | oneOrMore k => k.text ++ "+"
  | zeroOrMore k => k.text ++ "*"
  | sequence p q => p.text ++ q.text
  | optional p => p.text ++ "?"
  | group _ p => "(" ++ p.text ++ ")"

/-- The numbers of the groups of a pattern. -/
def groups : Pattern → List Nat
  | sequence p q => p.groups ++ q.groups
  | optional p => p.groups
  | group n p => n :: p.groups
  | _ => []

/-! ## Matching -/

/-- A position in a text, with the groups that have been matched on the way there. -/
structure Position where
  /-- What stands before it, nearest character first. -/
  before : List Char
  after : List Char
  groups : List (Nat × List Char)
  deriving Repr, DecidableEq

/-- The position so many characters further on. -/
def Position.advance (p : Position) (n : Nat) : Position :=
  { p with before := (p.after.take n).reverse ++ p.before, after := p.after.drop n }

/-- The positions behind `least` characters of a class or more, the farthest first. -/
def Position.advanceOver (p : Position) (k : CharClass) (least : Nat) : List Position :=
  let most := (p.after.takeWhile k.holds).length
  ((List.range (most + 1)).filter (least ≤ ·)).reverse.map p.advance

/-- The positions behind all matches that begin at a position, in order of preference. -/
def run : Pattern → Position → List Position
  | start, p => if p.before.isEmpty then [p] else []
  | finish, p => if p.after.isEmpty then [p] else []
  | exactly c, p => if p.after.head? = some c then [p.advance 1] else []
  | one k, p => if p.after.head?.any k.holds then [p.advance 1] else []
  | oneOrMore k, p => p.advanceOver k 1
  | zeroOrMore k, p => p.advanceOver k 0
  | sequence a b, p => (a.run p).flatMap b.run
  | optional a, p => a.run p ++ [p]
  | group n a, p => (a.run p).map fun q =>
      { q with groups := (n, p.after.take (p.after.length - q.after.length)) :: q.groups }

/-- The first match in a text: what stands before it, what behind it, and its groups. -/
structure Match where
  before : List Char
  after : List Char
  groups : List (Nat × List Char)
  deriving Repr, DecidableEq

/-- The first match that begins at a position or behind it. -/
def findFrom (p : Pattern) (before : List Char) : List Char → Option Match
  | [] => (p.run ⟨before, [], []⟩).head?.map fun q => ⟨before.reverse, q.after, q.groups⟩
  | c :: r =>
    match p.run ⟨before, c :: r, []⟩ with
    | q :: _ => some ⟨before.reverse, q.after, q.groups⟩
    | [] => findFrom p (c :: before) r

def find? (p : Pattern) (s : String) : Option Match := p.findFrom [] s.toList

/-- The text with its first match replaced by another text. -/
def replaceFirst (p : Pattern) (s replacement : String) : String :=
  match p.find? s with
  | some m => String.ofList (m.before ++ replacement.toList ++ m.after)
  | none => s

/-- The text of a group; a group that took no part in the match has none. -/
def Match.group (m : Match) (n : Nat) : String := String.ofList ((m.groups.lookup n).getD [])

end Pattern

end EdgeRouting.Logic
