import EdgeRouting.Logic.Lexeme

/-!
# Replacing the string constants of a program

A program with each of its string constants replaced (`mapTextsStmts`); names, numbers and raw text
stay as they are. Programs that differ only in the contents of their constants are those with the
same blanked form (`blanked`).
-/

namespace EdgeRouting.Logic

mutual

/-- An expression with its string constants replaced. -/
def Expr.mapTexts (f : String → String) : Expr → Expr
  | .text s => .text (f s)
  | .bool b => .bool b
  | .localVar name => .localVar name
  | .header m name => .header m name
  | .builtin b => .builtin b
  | .backend name => .backend name
  | .healthy name => .healthy name
  | .random low high => .random low high
  | .integerOf e => .integerOf (e.mapTexts f)
  | .tableEntry table key default => .tableEntry table (f key) (f default)
  | .subfield source key separator => .subfield (source.mapTexts f) (f key) (f separator)
  | .replaceFirst input pattern replacement =>
    .replaceFirst (input.mapTexts f) (f pattern) (f replacement)
  | .group n => .group n
  | .concat parts => .concat (mapTextsAll f parts)
  | .compare op lhs rhs => .compare op (lhs.mapTexts f) (rhs.mapTexts f)
  | .isMatch subject pattern negated => .isMatch (subject.mapTexts f) (f pattern) negated
  | .all items => .all (mapTextsAll f items)
  | .any items => .any (mapTextsAll f items)

def mapTextsAll (f : String → String) : List Expr → List Expr
  | [] => []
  | e :: r => e.mapTexts f :: mapTextsAll f r

end

mutual

/-- A statement with its string constants replaced. -/
def Stmt.mapTexts (f : String → String) : Stmt → Stmt
  | .declare name type => .declare name type
  | .set place value => .set place (value.mapTexts f)
  | .add name value => .add name (value.mapTexts f)
  | .choose branches otherwise =>
    .choose (mapTextsBranches f branches) (mapTextsOtherwise f otherwise)
  | .raw text => .raw text

def mapTextsStmts (f : String → String) : List Stmt → List Stmt
  | [] => []
  | s :: r => s.mapTexts f :: mapTextsStmts f r

def mapTextsBranches (f : String → String) :
    List (Expr × List Stmt) → List (Expr × List Stmt)
  | [] => []
  | (condition, body) :: r =>
    (condition.mapTexts f, mapTextsStmts f body) :: mapTextsBranches f r

def mapTextsOtherwise (f : String → String) : Option (List Stmt) → Option (List Stmt)
  | none => none
  | some body => some (mapTextsStmts f body)

end

/-- A program with all its string constants emptied. -/
def blanked (p : Program) : Program := mapTextsStmts (fun _ => "") p

/-! ## Nothing replaced -/

mutual

theorem Expr.mapTexts_id : ∀ e : Expr, e.mapTexts id = e
  | .text _ | .bool _ | .localVar _ | .header _ _ | .builtin _ | .backend _ | .healthy _
  | .random _ _ | .tableEntry _ _ _ | .group _ => by simp [Expr.mapTexts]
  | .integerOf e => by simp [Expr.mapTexts, Expr.mapTexts_id e]
  | .subfield e _ _ => by simp [Expr.mapTexts, Expr.mapTexts_id e]
  | .replaceFirst e _ _ => by simp [Expr.mapTexts, Expr.mapTexts_id e]
  | .concat l => by simp [Expr.mapTexts, mapTextsAll_id l]
  | .compare _ e e' => by simp [Expr.mapTexts, Expr.mapTexts_id e, Expr.mapTexts_id e']
  | .isMatch e _ _ => by simp [Expr.mapTexts, Expr.mapTexts_id e]
  | .all l => by simp [Expr.mapTexts, mapTextsAll_id l]
  | .any l => by simp [Expr.mapTexts, mapTextsAll_id l]

theorem mapTextsAll_id : ∀ l : List Expr, mapTextsAll id l = l
  | [] => by simp [mapTextsAll]
  | e :: r => by simp [mapTextsAll, Expr.mapTexts_id e, mapTextsAll_id r]

end

mutual

theorem Stmt.mapTexts_id : ∀ s : Stmt, s.mapTexts id = s
  | .declare _ _ => by simp [Stmt.mapTexts]
  | .set _ value => by simp [Stmt.mapTexts, value.mapTexts_id]
  | .add _ value => by simp [Stmt.mapTexts, value.mapTexts_id]
  | .choose branches otherwise => by
      simp [Stmt.mapTexts, mapTextsBranches_id branches, mapTextsOtherwise_id otherwise]
  | .raw _ => by simp [Stmt.mapTexts]

theorem mapTextsStmts_id : ∀ p : List Stmt, mapTextsStmts id p = p
  | [] => by simp [mapTextsStmts]
  | s :: r => by simp [mapTextsStmts, Stmt.mapTexts_id s, mapTextsStmts_id r]

theorem mapTextsBranches_id : ∀ l : List (Expr × List Stmt), mapTextsBranches id l = l
  | [] => by simp [mapTextsBranches]
  | (condition, body) :: r => by
      simp [mapTextsBranches, condition.mapTexts_id, mapTextsStmts_id body, mapTextsBranches_id r]

theorem mapTextsOtherwise_id : ∀ o : Option (List Stmt), mapTextsOtherwise id o = o
  | none => by simp [mapTextsOtherwise]
  | some body => by simp [mapTextsOtherwise, mapTextsStmts_id body]

end

/-! ## Names -/

section Names

variable (f : String → String)

mutual

theorem Expr.hasPlainNames_mapTexts : ∀ e : Expr, (e.mapTexts f).hasPlainNames = e.hasPlainNames
  | .text _ | .bool _ | .localVar _ | .header _ _ | .builtin _ | .backend _ | .healthy _
  | .random _ _ | .tableEntry _ _ _ | .group _ => by simp [Expr.mapTexts, Expr.hasPlainNames]
  | .integerOf e | .subfield e _ _ | .replaceFirst e _ _ | .isMatch e _ _ => by
      simp [Expr.mapTexts, Expr.hasPlainNames, Expr.hasPlainNames_mapTexts e]
  | .compare _ e e' => by
      simp [Expr.mapTexts, Expr.hasPlainNames, Expr.hasPlainNames_mapTexts e,
        Expr.hasPlainNames_mapTexts e']
  | .concat l | .all l | .any l => by
      simp [Expr.mapTexts, Expr.hasPlainNames, allHavePlainNames_mapTextsAll l]

theorem allHavePlainNames_mapTextsAll :
    ∀ l : List Expr, allHavePlainNames (mapTextsAll f l) = allHavePlainNames l
  | [] => by simp [mapTextsAll]
  | e :: r => by
      simp [mapTextsAll, allHavePlainNames, Expr.hasPlainNames_mapTexts e,
        allHavePlainNames_mapTextsAll r]

end

mutual

theorem Stmt.isPlain_mapTexts : ∀ s : Stmt, (s.mapTexts f).isPlain = s.isPlain
  | .declare _ _ | .raw _ => by simp [Stmt.mapTexts, Stmt.isPlain]
  | .set _ value | .add _ value => by
      simp [Stmt.mapTexts, Stmt.isPlain, value.hasPlainNames_mapTexts]
  | .choose branches otherwise => by
      simp [Stmt.mapTexts, Stmt.isPlain, branchesArePlain_mapTexts branches,
        otherwiseIsPlain_mapTexts otherwise]

theorem arePlain_mapTexts : ∀ p : List Stmt, arePlain (mapTextsStmts f p) = arePlain p
  | [] => by simp [mapTextsStmts]
  | s :: r => by simp [mapTextsStmts, arePlain, Stmt.isPlain_mapTexts s, arePlain_mapTexts r]

theorem branchesArePlain_mapTexts :
    ∀ l : List (Expr × List Stmt), branchesArePlain (mapTextsBranches f l) = branchesArePlain l
  | [] => by simp [mapTextsBranches]
  | (condition, body) :: r => by
      simp [mapTextsBranches, branchesArePlain, condition.hasPlainNames_mapTexts,
        arePlain_mapTexts body, branchesArePlain_mapTexts r]

theorem otherwiseIsPlain_mapTexts :
    ∀ o : Option (List Stmt), otherwiseIsPlain (mapTextsOtherwise f o) = otherwiseIsPlain o
  | none => by simp [mapTextsOtherwise]
  | some body => by simp [mapTextsOtherwise, otherwiseIsPlain, arePlain_mapTexts body]

end

end Names

/-- Programs that differ only in the contents of their constants are both plain or both not. -/
theorem arePlain_of_blanked_eq {p q : Program} (h : blanked q = blanked p) :
    arePlain q = arePlain p := by
  rw [← arePlain_mapTexts (fun _ => "") q, ← arePlain_mapTexts (fun _ => "") p]
  exact congrArg arePlain h

end EdgeRouting.Logic
