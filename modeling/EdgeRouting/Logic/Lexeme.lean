import EdgeRouting.Logic.Literal
import EdgeRouting.Logic.Program

/-!
# Strings in written logic

How the edge finds the strings in a text, from left to right: a quotation mark opens a plain string
that ends at the next one, and a brace, a run of letters and a quotation mark open a long string
that ends at the first quotation mark, the same letters and a brace. All else is outside. Beside it
stands what should be found: the constants of a program, in the order in which they are written.
-/

namespace EdgeRouting.Logic

inductive Lexeme where
  | outside (c : Char)
  | plain (s : List Char)
  | long (s : List Char)
  deriving Repr, DecidableEq

/-- The text before the first occurrence of an ending, and the text behind it. -/
def untilEnding (ending : List Char) : List Char → Option (List Char × List Char)
  | [] => if ending.isEmpty then some ([], []) else none
  | c :: r =>
    if ending.isPrefixOf (c :: r) then some ([], (c :: r).drop ending.length)
    else (untilEnding ending r).map fun p => (c :: p.1, p.2)

theorem length_of_untilEnding {ending s body rest : List Char}
    (h : untilEnding ending s = some (body, rest)) : rest.length ≤ s.length := by
  induction s generalizing body rest with
  | nil => by_cases he : ending.isEmpty <;> simp_all [untilEnding]
  | cons c r ih =>
    rw [untilEnding] at h
    split at h
    · simp only [Option.some.injEq, Prod.mk.injEq] at h
      rw [← h.2, List.length_drop]
      omega
    · obtain ⟨⟨b, t⟩, hbt, he⟩ := Option.map_eq_some_iff.1 h
      have := ih hbt
      simp only [Prod.mk.injEq] at he
      rw [← he.2, List.length_cons]
      omega

/-- The letters behind a brace and the text behind the quotation mark after them, if there is one:
the beginning of a long string. -/
def longOpening? (s : List Char) : Option (List Char × List Char) :=
  match s.dropWhile Char.isAlpha with
  | '"' :: r => some (s.takeWhile Char.isAlpha, r)
  | _ => none

theorem length_of_longOpening? {s letters rest : List Char}
    (h : longOpening? s = some (letters, rest)) : rest.length < s.length := by
  unfold longOpening? at h
  split at h
  · next r hr =>
    have := (List.dropWhile_sublist (l := s) Char.isAlpha).length_le
    simp only [Option.some.injEq, Prod.mk.injEq] at h
    rw [hr, List.length_cons, h.2] at this
    omega
  · simp at h

/-- The lexemes of a text, unless a string in it does not end. -/
def lexemes? (s : List Char) : Option (List Lexeme) :=
  match s with
  | [] => some []
  | '"' :: r =>
    match h : untilEnding ['"'] r with
    | none => none
    | some p =>
      have : p.2.length < r.length + 1 := Nat.lt_succ_of_le (length_of_untilEnding h)
      (lexemes? p.2).map (.plain p.1 :: ·)
  | '\x7b' :: r =>
    match ho : longOpening? r with
    | none => (lexemes? r).map (.outside '\x7b' :: ·)
    | some o =>
      match h : untilEnding ('"' :: o.1 ++ ['\x7d']) o.2 with
      | none => none
      | some p =>
        have : p.2.length < r.length + 1 := by
          have := length_of_longOpening? ho
          have := length_of_untilEnding h
          omega
        (lexemes? p.2).map (.long p.1 :: ·)
  | c :: r => (lexemes? r).map (.outside c :: ·)
termination_by s.length

/-- The contents of the strings among lexemes. -/
def stringsIn (l : List Lexeme) : List (List Char) :=
  l.filterMap fun
    | .outside _ => none
    | .plain s => some s
    | .long s => some s

/-- The text outside strings, where one mark stands for each string. -/
def outsideOf (l : List Lexeme) : List (Option Char) :=
  l.map fun
    | .outside c => some c
    | _ => none

/-- Whether braces outside strings are balanced, when so many are open. -/
def bracesBalance (depth : Nat) : List Lexeme → Bool
  | [] => depth = 0
  | .outside '\x7b' :: r => bracesBalance (depth + 1) r
  | .outside '\x7d' :: r => 0 < depth && bracesBalance (depth - 1) r
  | _ :: r => bracesBalance depth r

/-! ## Constants of a program -/

mutual

/-- The string constants of an expression in the order in which they are written. Nothing put
together counts as one empty constant. -/
def Expr.constants : Expr → List String
  | .text s => [s]
  | .integerOf e => e.constants
  | .tableEntry _ key default => [key, default]
  | .subfield source key separator => source.constants ++ [key, separator]
  | .replaceFirst input pattern replacement => input.constants ++ [pattern, replacement]
  | .concat [] => [""]
  | .concat (e :: r) => e.constants ++ constantsOfAll r
  | .compare _ lhs rhs => lhs.constants ++ rhs.constants
  | .isMatch subject pattern _ => subject.constants ++ [pattern]
  | .all items => constantsOfAll items
  | .any items => constantsOfAll items
  | _ => []

def constantsOfAll : List Expr → List String
  | [] => []
  | e :: r => e.constants ++ constantsOfAll r

end

mutual

def Stmt.constants : Stmt → List String
  | .declare _ _ => []
  | .set _ value => value.constants
  | .add _ value => value.constants
  | .choose branches otherwise => branchConstants branches ++ otherwiseConstants otherwise
  | .raw _ => []

def stmtConstants : List Stmt → List String
  | [] => []
  | s :: r => s.constants ++ stmtConstants r

def branchConstants : List (Expr × List Stmt) → List String
  | [] => []
  | (condition, body) :: r => condition.constants ++ stmtConstants body ++ branchConstants r

def otherwiseConstants : Option (List Stmt) → List String
  | none => []
  | some body => stmtConstants body

end

/-! ## Plain programs -/

/-- A name without quotation marks and braces. -/
def isPlainName (name : String) : Bool :=
  name.toList.all fun c => c ≠ '"' && c ≠ '\x7b' && c ≠ '\x7d'

mutual

/-- Whether all names in an expression are plain. -/
def Expr.hasPlainNames : Expr → Bool
  | .localVar name => isPlainName name
  | .header _ name => isPlainName name
  | .backend name => isPlainName name
  | .healthy name => isPlainName name
  | .integerOf e => e.hasPlainNames
  | .tableEntry table _ _ => isPlainName table
  | .subfield source _ _ => source.hasPlainNames
  | .replaceFirst input _ _ => input.hasPlainNames
  | .concat parts => allHavePlainNames parts
  | .compare _ lhs rhs => lhs.hasPlainNames && rhs.hasPlainNames
  | .isMatch subject _ _ => subject.hasPlainNames
  | .all items => allHavePlainNames items
  | .any items => allHavePlainNames items
  | _ => true

def allHavePlainNames : List Expr → Bool
  | [] => true
  | e :: r => e.hasPlainNames && allHavePlainNames r

end

def Place.hasPlainName : Place → Bool
  | .localVar name => isPlainName name
  | .header _ name => isPlainName name
  | _ => true

mutual

/-- Whether all names in a statement are plain, and there is no raw text in it. -/
def Stmt.isPlain : Stmt → Bool
  | .declare name _ => isPlainName name
  | .set place value => place.hasPlainName && value.hasPlainNames
  | .add name value => isPlainName name && value.hasPlainNames
  | .choose branches otherwise => branchesArePlain branches && otherwiseIsPlain otherwise
  | .raw _ => false

def arePlain : List Stmt → Bool
  | [] => true
  | s :: r => s.isPlain && arePlain r

def branchesArePlain : List (Expr × List Stmt) → Bool
  | [] => true
  | (condition, body) :: r => condition.hasPlainNames && arePlain body && branchesArePlain r

def otherwiseIsPlain : Option (List Stmt) → Bool
  | none => true
  | some body => arePlain body

end

end EdgeRouting.Logic
