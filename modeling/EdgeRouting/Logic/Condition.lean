import EdgeRouting.Logic.Render

/-!
# Reading written conditions

A written condition is a row of tokens: parentheses, the two connectives, and the conditions that
are joined, each with its text as one token. In a row, `&&` binds closer than `||`. Beside the row
of tokens that a condition is written as stands a reader that knows the tokens alone, and nothing of
what is joined.
-/

namespace EdgeRouting.Logic

/-- A token of a row in which atoms of some kind are joined. -/
inductive ConditionToken (α : Type) where
  | opening
  | closing
  | and
  | or
  | atom (a : α)
  deriving Repr, DecidableEq

def ConditionToken.text : ConditionToken Expr → String
  | .opening => "("
  | .closing => ")"
  | .and => " && "
  | .or => " || "
  | .atom e => e.render

def ConditionToken.atom? {α : Type} : ConditionToken α → Option α
  | .atom a => some a
  | _ => none

/-! ## Writing -/

mutual

/-- The tokens of a condition inside another one. -/
def Expr.operandTokens : Expr → List (ConditionToken Expr)
  | .all items => .opening :: (joinedTokens .and items ++ [.closing])
  | .any items => .opening :: (joinedTokens .or items ++ [.closing])
  | e => [.atom e]

/-- The tokens of conditions with a connective between them. -/
def joinedTokens (connective : ConditionToken Expr) : List Expr → List (ConditionToken Expr)
  | [] => []
  | [e] => e.operandTokens
  | e :: r => e.operandTokens ++ connective :: joinedTokens connective r

end

/-- The tokens of a condition that stands on its own. -/
def Expr.conditionTokens : Expr → List (ConditionToken Expr)
  | .all items => joinedTokens .and items
  | .any items => joinedTokens .or items
  | e => [.atom e]

def tokensText (l : List (ConditionToken Expr)) : String :=
  String.join (l.map ConditionToken.text)

/-- Whether an expression joins no conditions. -/
def Expr.isAtom : Expr → Bool
  | .all _ => false
  | .any _ => false
  | _ => true

mutual

/-- What a condition joins at any depth, in the order in which it is written. -/
def Expr.atoms : Expr → List Expr
  | .all items => atomsOfAll items
  | .any items => atomsOfAll items
  | e => [e]

def atomsOfAll : List Expr → List Expr
  | [] => []
  | e :: r => e.atoms ++ atomsOfAll r

end

mutual

/-- Whether a condition joins something wherever it joins. -/
def Expr.joinsSome : Expr → Bool
  | .all items => !items.isEmpty && allJoinSome items
  | .any items => !items.isEmpty && allJoinSome items
  | _ => true

def allJoinSome : List Expr → Bool
  | [] => true
  | e :: r => e.joinsSome && allJoinSome r

end

/-! ## Reading -/

/-- A condition as it is read: atoms, joined at two levels. -/
inductive Reading (α : Type) where
  | atom (a : α)
  | and (lhs rhs : Reading α)
  | or (lhs rhs : Reading α)
  deriving Repr, DecidableEq

/-- The truth of a reading when the truth of the atoms is given. -/
def Reading.holds {α : Type} (truth : α → Bool) : Reading α → Bool
  | .atom a => truth a
  | .and lhs rhs => lhs.holds truth && rhs.holds truth
  | .or lhs rhs => lhs.holds truth || rhs.holds truth

section Reads

variable {α : Type}

mutual

/-- A row of tokens is a condition. -/
inductive Reads : List (ConditionToken α) → Reading α → Prop where
  | one {l : List (ConditionToken α)} {r : Reading α} : ReadsConjunction l r → Reads l r
  | or {l m : List (ConditionToken α)} {r s : Reading α} :
    ReadsConjunction l r → Reads m s → Reads (l ++ .or :: m) (.or r s)

/-- A row of tokens is a condition without `||` outside parentheses. -/
inductive ReadsConjunction : List (ConditionToken α) → Reading α → Prop where
  | one {l : List (ConditionToken α)} {r : Reading α} : ReadsOperand l r → ReadsConjunction l r
  | and {l m : List (ConditionToken α)} {r s : Reading α} :
    ReadsOperand l r → ReadsConjunction m s → ReadsConjunction (l ++ .and :: m) (.and r s)

/-- A row of tokens is an atom or stands in parentheses. -/
inductive ReadsOperand : List (ConditionToken α) → Reading α → Prop where
  | atom (a : α) : ReadsOperand [.atom a] (.atom a)
  | grouped {l : List (ConditionToken α)} {r : Reading α} :
    Reads l r → ReadsOperand (.opening :: (l ++ [.closing])) r

end

end Reads

/-! ## Truth -/

mutual

/-- The truth of a condition when the truth of what it joins is given. -/
def Expr.holdsBy (truth : Expr → Bool) : Expr → Bool
  | .all items => allHoldBy truth items
  | .any items => anyHoldsBy truth items
  | e => truth e

def allHoldBy (truth : Expr → Bool) : List Expr → Bool
  | [] => true
  | e :: r => e.holdsBy truth && allHoldBy truth r

def anyHoldsBy (truth : Expr → Bool) : List Expr → Bool
  | [] => false
  | e :: r => e.holdsBy truth || anyHoldsBy truth r

end

end EdgeRouting.Logic
