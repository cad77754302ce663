import EdgeRouting.Logic.Condition
import EdgeRouting.Logic.Eval

/-!
# Written conditions keep their meaning

A row of tokens can be read in one way only (`Reads.unique`): where an operand ends is decided by
the operand alone, and a conjunction or a condition ends in front of the first token that does not
go on with it. The row that a condition is written as can be read, and the reading holds when the
condition does (`exists_readsOperand`): the parentheses around a condition inside another one keep
what it joins together, and those that a whole condition goes without would be around all of it. A
run that makes a flag of every atom makes one of the condition, by the same truth
(`Expr.isFlag_holdsBy`).
-/

namespace EdgeRouting.Logic

/-! ## One reading -/

section Unique

variable {α : Type}

mutual

/-- Rows that begin the same tokens are the same operand. -/
theorem ReadsOperand.eq_of_append {l l' m m' : List (ConditionToken α)} {r r' : Reading α} :
    ReadsOperand l r → ReadsOperand l' r' → l ++ m = l' ++ m' → l = l' ∧ r = r'
  | .atom a, h', heq => by
      cases h' with
      | atom b =>
          obtain ⟨hatom, -⟩ := List.cons.inj heq
          obtain rfl := ConditionToken.atom.inj hatom
          exact ⟨rfl, rfl⟩
      | grouped _ => cases heq
  | .grouped h, h', heq => by
      cases h' with
      | atom _ => cases heq
      | grouped h' =>
          simp only [List.cons_append, List.append_assoc, List.nil_append, List.cons.injEq,
            true_and] at heq
          obtain ⟨rfl, rfl⟩ := h.eq_of_append h' heq (by simp) (by simp) (by simp) (by simp)
          exact ⟨rfl, rfl⟩

/-- Rows that begin the same tokens and are not gone on with are the same conjunction. -/
theorem ReadsConjunction.eq_of_append {l l' m m' : List (ConditionToken α)} {r r' : Reading α} :
    ReadsConjunction l r → ReadsConjunction l' r' → l ++ m = l' ++ m' →
      m.head? ≠ some .and → m'.head? ≠ some .and → l = l' ∧ r = r'
  | .one h, h', heq, hm, _ => by
      cases h' with
      | one h' => exact h.eq_of_append h' heq
      | and h₁ h₂ =>
          rw [List.append_assoc] at heq
          obtain ⟨rfl, -⟩ := h.eq_of_append h₁ heq
          rw [List.append_cancel_left heq] at hm
          exact absurd rfl hm
  | .and h₁ h₂, h', heq, hm, hm' => by
      cases h' with
      | one h' =>
          rw [List.append_assoc] at heq
          obtain ⟨rfl, -⟩ := h₁.eq_of_append h' heq
          rw [← List.append_cancel_left heq] at hm'
          exact absurd rfl hm'
      | and h₁' h₂' =>
          rw [List.append_assoc, List.append_assoc] at heq
          obtain ⟨rfl, rfl⟩ := h₁.eq_of_append h₁' heq
          have hrest := (List.cons.inj (List.append_cancel_left heq)).2
          obtain ⟨rfl, rfl⟩ := h₂.eq_of_append h₂' hrest hm hm'
          exact ⟨rfl, rfl⟩

/-- Rows that begin the same tokens and are not gone on with are the same condition. -/
theorem Reads.eq_of_append {l l' m m' : List (ConditionToken α)} {r r' : Reading α} :
    Reads l r → Reads l' r' → l ++ m = l' ++ m' → m.head? ≠ some .and → m.head? ≠ some .or →
      m'.head? ≠ some .and → m'.head? ≠ some .or → l = l' ∧ r = r'
  | .one h, h', heq, hm, hm₂, hm', _ => by
      cases h' with
      | one h' => exact h.eq_of_append h' heq hm hm'
      | or h₁ h₂ =>
          rw [List.append_assoc] at heq
          obtain ⟨rfl, -⟩ := h.eq_of_append h₁ heq hm (by simp)
          rw [List.append_cancel_left heq] at hm₂
          exact absurd rfl hm₂
  | .or h₁ h₂, h', heq, hm, hm₂, hm', hm₂' => by
      cases h' with
      | one h' =>
          rw [List.append_assoc] at heq
          obtain ⟨rfl, -⟩ := h₁.eq_of_append h' heq (by simp) hm'
          rw [← List.append_cancel_left heq] at hm₂'
          exact absurd rfl hm₂'
      | or h₁' h₂' =>
          rw [List.append_assoc, List.append_assoc] at heq
          obtain ⟨rfl, rfl⟩ := h₁.eq_of_append h₁' heq (by simp) (by simp)
          have hrest := (List.cons.inj (List.append_cancel_left heq)).2
          obtain ⟨rfl, rfl⟩ := h₂.eq_of_append h₂' hrest hm hm₂ hm' hm₂'
          exact ⟨rfl, rfl⟩

end

/-- A row of tokens is read in one way at most. -/
theorem Reads.unique {l : List (ConditionToken α)} {r r' : Reading α} (h : Reads l r)
    (h' : Reads l r') : r = r' :=
  (h.eq_of_append (m := []) h' rfl (by simp) (by simp) (by simp) (by simp)).2

end Unique

/-! ## Conditions and what they join -/

namespace Expr

/-- What holds of atoms, and of whatever joins conditions of which it holds, holds of all
conditions. -/
@[elab_as_elim]
theorem condition_induction {motive : Expr → Prop}
    (atom : ∀ e : Expr, e.isAtom = true → motive e)
    (all : ∀ items, (∀ e ∈ items, motive e) → motive (.all items))
    (any : ∀ items, (∀ e ∈ items, motive e) → motive (.any items)) : ∀ e, motive e
  | .all items => all items fun e _ => condition_induction atom all any e
  | .any items => any items fun e _ => condition_induction atom all any e
  | .text _ | .bool _ | .localVar _ | .header _ _ | .builtin _ | .backend _ | .healthy _
  | .random _ _ | .integerOf _ | .tableEntry _ _ _ | .subfield _ _ _ | .replaceFirst _ _ _
  | .group _ | .concat _ | .compare _ _ _ | .isMatch _ _ _ => atom _ rfl

variable {e : Expr}

theorem operandTokens_of_isAtom (h : e.isAtom = true) : e.operandTokens = [.atom e] := by
  cases e <;> first | rfl | cases h

theorem conditionTokens_of_isAtom (h : e.isAtom = true) : e.conditionTokens = [.atom e] := by
  cases e <;> first | rfl | cases h

theorem renderCondition_of_isAtom (h : e.isAtom = true) : e.renderCondition = e.render := by
  cases e <;> first | rfl | cases h

theorem atoms_of_isAtom (h : e.isAtom = true) : e.atoms = [e] := by
  cases e <;> first | rfl | cases h

theorem holdsBy_of_isAtom (truth : Expr → Bool) (h : e.isAtom = true) :
    e.holdsBy truth = truth e := by
  cases e <;> first | rfl | cases h

end Expr

theorem mem_of_allJoinSome {l : List Expr} (h : allJoinSome l = true) :
    ∀ e ∈ l, e.joinsSome = true := by
  induction l with
  | nil => simp
  | cons e r ih =>
      obtain ⟨he, hr⟩ := Bool.and_eq_true_iff.1 h
      exact List.forall_mem_cons.2 ⟨he, ih hr⟩

/-! ## The row of a condition -/

section Row

variable {connective : ConditionToken Expr} {l : List Expr}

/-- The atoms of a row, in order. -/
def rowAtoms (l : List (ConditionToken Expr)) : List Expr := l.filterMap ConditionToken.atom?

theorem rowAtoms_append (l m : List (ConditionToken Expr)) :
    rowAtoms (l ++ m) = rowAtoms l ++ rowAtoms m :=
  List.filterMap_append

theorem joinedTokens_cons_cons (connective : ConditionToken Expr) (e e' : Expr) (r : List Expr) :
    joinedTokens connective (e :: e' :: r)
      = e.operandTokens ++ connective :: joinedTokens connective (e' :: r) := rfl

theorem tokensText_append (l m : List (ConditionToken Expr)) :
    tokensText (l ++ m) = tokensText l ++ tokensText m := by
  rw [tokensText, List.map_append, String.join_append]
  rfl

theorem tokensText_cons (t : ConditionToken Expr) (l : List (ConditionToken Expr)) :
    tokensText (t :: l) = t.text ++ tokensText l :=
  String.join_cons

theorem tokensText_joinedTokens (h : ∀ e ∈ l, tokensText e.operandTokens = e.render) :
    tokensText (joinedTokens connective l) = connective.text.intercalate (renderAll l) := by
  induction l with
  | nil => rfl
  | cons e r ih =>
      obtain ⟨he, hr⟩ := List.forall_mem_cons.1 h
      cases r with
      | nil => exact he.trans String.intercalate_singleton.symm
      | cons e' r =>
          rw [joinedTokens_cons_cons, tokensText_append, tokensText_cons, he, ih hr,
            ← String.append_assoc]
          exact String.intercalate_cons_cons.symm

theorem tokensText_operandTokens (e : Expr) : tokensText e.operandTokens = e.render := by
  have hgroup : ∀ l : List (ConditionToken Expr),
      tokensText (.opening :: (l ++ [.closing])) = "(" ++ tokensText l ++ ")" := by
    intro l
    rw [tokensText_cons, tokensText_append, ← String.append_assoc]
    rfl
  induction e using Expr.condition_induction with
  | atom e h =>
      rw [Expr.operandTokens_of_isAtom h, tokensText_cons]
      exact String.append_empty
  | all items ih => exact (hgroup _).trans (by rw [tokensText_joinedTokens ih]; rfl)
  | any items ih => exact (hgroup _).trans (by rw [tokensText_joinedTokens ih]; rfl)

theorem tokensText_conditionTokens (e : Expr) :
    tokensText e.conditionTokens = e.renderCondition := by
  have hjoined : ∀ (connective : ConditionToken Expr) (l : List Expr),
      tokensText (joinedTokens connective l) = connective.text.intercalate (renderAll l) :=
    fun _ _ => tokensText_joinedTokens fun e _ => tokensText_operandTokens e
  induction e using Expr.condition_induction with
  | atom e h =>
      rw [Expr.conditionTokens_of_isAtom h, Expr.renderCondition_of_isAtom h,
        ← Expr.operandTokens_of_isAtom h, tokensText_operandTokens]
  | all items _ => exact hjoined .and items
  | any items _ => exact hjoined .or items

theorem rowAtoms_joinedTokens (hconnective : connective.atom? = none)
    (h : ∀ e ∈ l, rowAtoms e.operandTokens = e.atoms) :
    rowAtoms (joinedTokens connective l) = atomsOfAll l := by
  induction l with
  | nil => rfl
  | cons e r ih =>
      obtain ⟨he, hr⟩ := List.forall_mem_cons.1 h
      cases r with
      | nil => exact he.trans (List.append_nil _).symm
      | cons e' r =>
          have hskip : ∀ m, rowAtoms (connective :: m) = rowAtoms m :=
            fun _ => List.filterMap_cons_none hconnective
          rw [joinedTokens_cons_cons, rowAtoms_append, hskip, he, ih hr]
          rfl

theorem rowAtoms_operandTokens (e : Expr) : rowAtoms e.operandTokens = e.atoms := by
  have hgroup : ∀ l : List (ConditionToken Expr),
      rowAtoms (.opening :: (l ++ [.closing])) = rowAtoms l := by
    intro l
    exact (rowAtoms_append l [.closing]).trans (List.append_nil _)
  induction e using Expr.condition_induction with
  | atom e h =>
      rw [Expr.operandTokens_of_isAtom h, Expr.atoms_of_isAtom h]
      rfl
  | all items ih => exact (hgroup _).trans (rowAtoms_joinedTokens rfl ih)
  | any items ih => exact (hgroup _).trans (rowAtoms_joinedTokens rfl ih)

theorem rowAtoms_conditionTokens (e : Expr) : rowAtoms e.conditionTokens = e.atoms := by
  induction e using Expr.condition_induction with
  | atom e h =>
      rw [Expr.conditionTokens_of_isAtom h, ← Expr.operandTokens_of_isAtom h,
        rowAtoms_operandTokens]
  | all items _ => exact rowAtoms_joinedTokens rfl fun e _ => rowAtoms_operandTokens e
  | any items _ => exact rowAtoms_joinedTokens rfl fun e _ => rowAtoms_operandTokens e

end Row

/-! ## The reading of a condition -/

section Meaning

variable {l : List Expr} {e : Expr}

/-- The reading holds when the condition does, whatever its atoms are. -/
def Reading.Means (r : Reading Expr) (e : Expr) : Prop :=
  ∀ truth, r.holds truth = e.holdsBy truth

theorem exists_readsConjunction (hne : l ≠ [])
    (h : ∀ e ∈ l, ∃ r, ReadsOperand e.operandTokens r ∧ r.Means e) :
    ∃ r, ReadsConjunction (joinedTokens .and l) r ∧ r.Means (.all l) := by
  induction l with
  | nil => exact absurd rfl hne
  | cons e rest ih =>
      obtain ⟨⟨r, hreads, hmeans⟩, hrest⟩ := List.forall_mem_cons.1 h
      cases rest with
      | nil =>
          refine ⟨r, .one hreads, fun truth => ?_⟩
          rw [hmeans]
          exact (Bool.and_true _).symm
      | cons e' rest =>
          obtain ⟨s, hreads', hmeans'⟩ := ih (by simp) hrest
          refine ⟨.and r s, .and hreads hreads', fun truth => ?_⟩
          rw [Reading.holds, hmeans, hmeans']
          rfl

theorem exists_reads_of_any (hne : l ≠ [])
    (h : ∀ e ∈ l, ∃ r, ReadsOperand e.operandTokens r ∧ r.Means e) :
    ∃ r, Reads (joinedTokens .or l) r ∧ r.Means (.any l) := by
  induction l with
  | nil => exact absurd rfl hne
  | cons e rest ih =>
      obtain ⟨⟨r, hreads, hmeans⟩, hrest⟩ := List.forall_mem_cons.1 h
      cases rest with
      | nil =>
          refine ⟨r, .one (.one hreads), fun truth => ?_⟩
          rw [hmeans]
          exact (Bool.or_false _).symm
      | cons e' rest =>
          obtain ⟨s, hreads', hmeans'⟩ := ih (by simp) hrest
          refine ⟨.or r s, .or (.one hreads) hreads', fun truth => ?_⟩
          rw [Reading.holds, hmeans, hmeans']
          rfl

/-- Inside another condition, a condition is an operand. -/
theorem exists_readsOperand (e : Expr) (h : e.joinsSome = true) :
    ∃ r, ReadsOperand e.operandTokens r ∧ r.Means e := by
  induction e using Expr.condition_induction with
  | atom e hatom =>
      rw [Expr.operandTokens_of_isAtom hatom]
      exact ⟨_, .atom e, fun truth => (Expr.holdsBy_of_isAtom truth hatom).symm⟩
  | all items ih =>
      obtain ⟨hne, hitems⟩ := Bool.and_eq_true_iff.1 h
      obtain ⟨r, hreads, hmeans⟩ := exists_readsConjunction (by simpa using hne) fun e he =>
        ih e he (mem_of_allJoinSome hitems e he)
      exact ⟨r, .grouped (.one hreads), hmeans⟩
  | any items ih =>
      obtain ⟨hne, hitems⟩ := Bool.and_eq_true_iff.1 h
      obtain ⟨r, hreads, hmeans⟩ := exists_reads_of_any (by simpa using hne) fun e he =>
        ih e he (mem_of_allJoinSome hitems e he)
      exact ⟨r, .grouped hreads, hmeans⟩

/-- On its own, a condition needs no parentheses. -/
theorem exists_reads (e : Expr) (h : e.joinsSome = true) :
    ∃ r, Reads e.conditionTokens r ∧ r.Means e := by
  have hitem : ∀ l : List Expr, allJoinSome l = true → ∀ e ∈ l,
      ∃ r, ReadsOperand e.operandTokens r ∧ r.Means e :=
    fun l hl e he => exists_readsOperand e (mem_of_allJoinSome hl e he)
  induction e using Expr.condition_induction with
  | atom e hatom =>
      obtain ⟨r, hreads, hmeans⟩ := exists_readsOperand e h
      rw [Expr.conditionTokens_of_isAtom hatom, ← Expr.operandTokens_of_isAtom hatom]
      exact ⟨r, .one (.one hreads), hmeans⟩
  | all items _ =>
      obtain ⟨hne, hitems⟩ := Bool.and_eq_true_iff.1 h
      obtain ⟨r, hreads, hmeans⟩ := exists_readsConjunction (by simpa using hne)
        (hitem items hitems)
      exact ⟨r, .one hreads, hmeans⟩
  | any items _ =>
      obtain ⟨hne, hitems⟩ := Bool.and_eq_true_iff.1 h
      exact exists_reads_of_any (by simpa using hne) (hitem items hitems)

end Meaning

/-! ## The truth of a condition in a run -/

section Run

variable {edge : Edge} {truth : Expr → Bool} {l : List Expr}

/-- In every state, a run makes a flag of an expression, and always the same one. -/
def Expr.IsFlag (edge : Edge) (e : Expr) (b : Bool) : Prop :=
  ∀ s, ∃ s', e.eval edge s = some (.flag b, s')

theorem allHold_eq (h : ∀ e ∈ l, e.IsFlag edge (e.holdsBy truth)) (s : RequestState) :
    ∃ s', allHold edge s l = some (allHoldBy truth l, s') := by
  induction l generalizing s with
  | nil => exact ⟨s, rfl⟩
  | cons e r ih =>
      obtain ⟨he, hr⟩ := List.forall_mem_cons.1 h
      obtain ⟨s', heval⟩ := he s
      rw [allHold, allHoldBy, heval]
      cases e.holdsBy truth with
      | false => exact ⟨s', rfl⟩
      | true => exact ih hr s'

theorem anyHolds_eq (h : ∀ e ∈ l, e.IsFlag edge (e.holdsBy truth)) (s : RequestState) :
    ∃ s', anyHolds edge s l = some (anyHoldsBy truth l, s') := by
  induction l generalizing s with
  | nil => exact ⟨s, rfl⟩
  | cons e r ih =>
      obtain ⟨he, hr⟩ := List.forall_mem_cons.1 h
      obtain ⟨s', heval⟩ := he s
      rw [anyHolds, anyHoldsBy, heval]
      cases e.holdsBy truth with
      | false => exact ih hr s'
      | true => exact ⟨s', rfl⟩

theorem forall_mem_of_atomsOfAll {p : Expr → Prop} (h : ∀ a ∈ atomsOfAll l, p a) :
    ∀ e ∈ l, ∀ a ∈ e.atoms, p a := by
  induction l with
  | nil => simp
  | cons e r ih =>
      obtain ⟨he, hr⟩ := List.forall_mem_append.1 h
      exact List.forall_mem_cons.2 ⟨he, ih hr⟩

/-- A run makes of a condition what it makes of its atoms, so that its truth is that of the
condition under an assignment to the atoms. -/
theorem Expr.isFlag_holdsBy (e : Expr) (h : ∀ a ∈ e.atoms, a.IsFlag edge (truth a)) :
    e.IsFlag edge (e.holdsBy truth) := by
  induction e using Expr.condition_induction with
  | atom e hatom =>
      rw [Expr.holdsBy_of_isAtom truth hatom]
      exact h e (by rw [Expr.atoms_of_isAtom hatom]; exact List.mem_cons_self)
  | all items ih =>
      intro s
      obtain ⟨s', heval⟩ := allHold_eq (fun e he => ih e he (forall_mem_of_atomsOfAll h e he)) s
      exact ⟨s', by rw [Expr.eval, heval]; rfl⟩
  | any items ih =>
      intro s
      obtain ⟨s', heval⟩ := anyHolds_eq (fun e he => ih e he (forall_mem_of_atomsOfAll h e he)) s
      exact ⟨s', by rw [Expr.eval, heval]; rfl⟩

end Run

/-! ## Texts of conditions -/

section Text

variable {e : Expr}

/-- A text is read as a condition: it is a row of tokens, each atom of the condition with its text
as one token, and the row can be read, in one way only, as something that holds when the condition
does. -/
structure ReadsAs (text : String) (row : List (ConditionToken Expr)) (e : Expr) : Prop where
  text : tokensText row = text
  atoms : rowAtoms row = e.atoms
  reads : ∃ r, Reads row r
  means : ∀ r, Reads row r → r.Means e

theorem ReadsAs.of_reads {text : String} {row : List (ConditionToken Expr)} {r : Reading Expr}
    (htext : tokensText row = text) (hatoms : rowAtoms row = e.atoms) (hreads : Reads row r)
    (hmeans : r.Means e) : ReadsAs text row e where
  text := htext
  atoms := hatoms
  reads := ⟨r, hreads⟩
  means := by
    intro r' hr'
    rwa [hr'.unique hreads]

/-- The text of a condition is read as the condition, on its own and as an operand of another one;
and under an assignment that a run makes to the atoms, the run makes the same of the condition. -/
theorem renderCondition_readsAs (h : e.joinsSome = true) :
    ReadsAs e.renderCondition e.conditionTokens e ∧ ReadsAs e.render e.operandTokens e
      ∧ (∃ r, ReadsOperand e.operandTokens r)
      ∧ ∀ edge truth, (∀ a ∈ e.atoms, a.IsFlag edge (truth a)) →
        e.IsFlag edge (e.holdsBy truth) := by
  obtain ⟨r, hreads, hmeans⟩ := exists_reads e h
  obtain ⟨s, hoperand, hmeans'⟩ := exists_readsOperand e h
  exact ⟨.of_reads (tokensText_conditionTokens e) (rowAtoms_conditionTokens e) hreads hmeans,
    .of_reads (tokensText_operandTokens e) (rowAtoms_operandTokens e) (.one (.one hoperand))
      hmeans',
    ⟨s, hoperand⟩, fun _ _ => e.isFlag_holdsBy⟩

/-! ### A disjunction inside a conjunction

Without its parentheses, the row would hold whenever the first backend is healthy. -/

def guardedCondition : Expr :=
  .all [
    .any [.healthy "F_a", .all [.healthy "F_b", .bool true]],
    .isMatch (.localVar "pin") "." true]

theorem guardedCondition_readsAs :
    guardedCondition.joinsSome = true
      ∧ guardedCondition.renderCondition
        = "(backend.F_a.healthy || (backend.F_b.healthy && true)) && var.pin !~ \".\""
      ∧ ReadsAs guardedCondition.renderCondition guardedCondition.conditionTokens guardedCondition
      ∧ ∀ r, Reads guardedCondition.conditionTokens r →
        r.holds (fun a => a.render == "backend.F_a.healthy") = false := by
  obtain ⟨hreads, -, -, -⟩ := renderCondition_readsAs (e := guardedCondition) (by decide)
  refine ⟨by decide, by decide +kernel, hreads, fun r hr => ?_⟩
  rw [hreads.means r hr]
  decide +kernel

end Text

end EdgeRouting.Logic
