import EdgeRouting.Logic.Scope
import Mathlib.Data.List.Nodup

/-!
# Statements in their scopes

How the well-formedness of a program is put together from that of its parts, and what it says of the
declarations in it. A statement adds the locals that it declares to the scope and changes nothing
else in it; the bodies of branches leave the scope as it is, so they declare nothing. Therefore no
local of a well-formed program is declared at two places.
-/

namespace EdgeRouting.Logic

variable {patterns : List Pattern} {sc sc₁ sc₂ sc₃ : Scope} {α : Type}

/-! ## Putting programs together -/

theorem AllFit.append {a b : List Stmt} (ha : AllFit patterns sc₁ a sc₂)
    (hb : AllFit patterns sc₂ b sc₃) : AllFit patterns sc₁ (a ++ b) sc₃ := by
  induction a generalizing sc₁ with
  | nil =>
      cases ha
      exact hb
  | cons st r ih =>
      cases ha with
      | cons hst hr => exact .cons hst (ih hr)

/-- Statements that leave a scope as it is can stand in any order in it. -/
theorem AllFit.of_forall {l : List Stmt} (h : ∀ st ∈ l, Stmt.Fits patterns sc st sc) :
    AllFit patterns sc l sc := by
  induction l with
  | nil => exact .nil
  | cons st r ih =>
      obtain ⟨hst, hr⟩ := List.forall_mem_cons.1 h
      exact .cons hst (ih hr)

theorem AllFit.singleton {st : Stmt} (h : Stmt.Fits patterns sc₁ st sc₂) :
    AllFit patterns sc₁ [st] sc₂ := .cons h .nil

/-- The scope with a local for each item. -/
def Scope.declareAll (sc : Scope) (name : α → String) (type : LocalType) : List α → Scope
  | [] => sc
  | a :: r => (sc.declare (name a) type).declareAll name type r

theorem Scope.mem_locals_declareAll {name : α → String} {type : LocalType} {items : List α}
    {entry : String × LocalType} :
    entry ∈ (sc.declareAll name type items).locals ↔
      entry ∈ sc.locals ∨ ∃ a ∈ items, entry = (name a, type) := by
  induction items generalizing sc with
  | nil => simp [declareAll]
  | cons a r ih =>
      rw [declareAll, ih, declare, List.mem_cons, List.exists_mem_cons_iff, or_assoc,
        or_left_comm]

@[simp] theorem Scope.backends_declareAll (name : α → String) (type : LocalType)
    (items : List α) : (sc.declareAll name type items).backends = sc.backends := by
  induction items generalizing sc with
  | nil => rfl
  | cons a r ih => exact ih

@[simp] theorem Scope.groups_declareAll (name : α → String) (type : LocalType)
    (items : List α) : (sc.declareAll name type items).groups = sc.groups := by
  induction items generalizing sc with
  | nil => rfl
  | cons a r ih => exact ih

theorem allFit_declareAll {name : α → String} {type : LocalType} {items : List α}
    (hnodup : (items.map name).Nodup) (hnew : ∀ a ∈ items, name a ∉ sc.names) :
    AllFit patterns sc (items.map fun a => .declare (name a) type)
      (sc.declareAll name type items) := by
  induction items generalizing sc with
  | nil => exact .nil
  | cons a r ih =>
      rw [List.map_cons, List.nodup_cons] at hnodup
      obtain ⟨hfresh, hnodup⟩ := hnodup
      obtain ⟨hnewa, hnewr⟩ := List.forall_mem_cons.1 hnew
      refine .cons (.declare hnewa) (ih hnodup fun b hb => ?_)
      have hne : name b ≠ name a := fun heq => hfresh (heq ▸ List.mem_map_of_mem hb)
      exact List.not_mem_cons_of_ne_of_not_mem hne (hnewr b hb)

theorem BranchesFit.of_forall {branches : List (Expr × List Stmt)}
    (h : ∀ b ∈ branches, b.1.HasKind sc .flag
      ∧ AllFit patterns (sc.behind patterns b.1) b.2 (sc.behind patterns b.1)) :
    BranchesFit patterns sc branches := by
  induction branches with
  | nil => exact .nil
  | cons b r ih =>
      obtain ⟨⟨hcondition, hbody⟩, hr⟩ := List.forall_mem_cons.1 h
      exact .cons hcondition hbody (ih hr)

/-! ## Declarations -/

mutual

theorem Stmt.Fits.names_eq {sc₁ sc₂ : Scope} {st : Stmt} :
    Stmt.Fits patterns sc₁ st sc₂ → sc₂.names = st.declared.reverse ++ sc₁.names
  | .declare _ | .setInteger _ _ | .setText _ _ | .setHeader _ | .setBackend _
  | .setBackendUrl _ | .setCacheable _ | .add _ _ | .raw _ => rfl
  | .choose hbranches hotherwise => by
      rw [Stmt.declared, hbranches.declaredInBranches_eq, hotherwise.declaredInOtherwise_eq]
      rfl

theorem AllFit.names_eq {sc₁ sc₂ : Scope} {l : List Stmt} :
    AllFit patterns sc₁ l sc₂ → sc₂.names = (declaredIn l).reverse ++ sc₁.names
  | .nil => rfl
  | .cons hst hr => by
      rw [hr.names_eq, hst.names_eq, declaredIn, List.reverse_append, List.append_assoc]

theorem BranchesFit.declaredInBranches_eq {sc : Scope} {branches : List (Expr × List Stmt)} :
    BranchesFit patterns sc branches → declaredInBranches branches = []
  | .nil => rfl
  | .cons _ hbody hr => by
      have hdeclared := List.reverse_eq_nil_iff.1 (List.self_eq_append_left.1 hbody.names_eq)
      rw [declaredInBranches, hdeclared, hr.declaredInBranches_eq]
      rfl

theorem OtherwiseFits.declaredInOtherwise_eq {sc : Scope} {otherwise : Option (List Stmt)} :
    OtherwiseFits patterns sc otherwise → declaredInOtherwise otherwise = []
  | .none => rfl
  | .some hbody => List.reverse_eq_nil_iff.1 (List.self_eq_append_left.1 hbody.names_eq)

end

theorem Stmt.Fits.nodup_names {st : Stmt} (h : Stmt.Fits patterns sc₁ st sc₂)
    (hnodup : sc₁.names.Nodup) : sc₂.names.Nodup := by
  cases h with
  | declare hnew => exact List.nodup_cons.2 ⟨hnew, hnodup⟩
  | _ => exact hnodup

theorem AllFit.nodup_names {l : List Stmt} (h : AllFit patterns sc₁ l sc₂)
    (hnodup : sc₁.names.Nodup) : sc₂.names.Nodup := by
  induction l generalizing sc₁ with
  | nil =>
      cases h
      exact hnodup
  | cons st r ih =>
      cases h with
      | cons hst hr => exact ih hr (hst.nodup_names hnodup)

/-- A well-formed program declares every local once. -/
theorem Program.WellFormed.nodup_declaredIn {backends : List String} {p : Program}
    (h : p.WellFormed patterns backends) : (declaredIn p).Nodup := by
  obtain ⟨sc, hfits⟩ := h
  have hnames : sc.names = (declaredIn p).reverse ++ [] := hfits.names_eq
  rw [List.append_nil] at hnames
  exact List.nodup_reverse.1 (hnames ▸ hfits.nodup_names List.nodup_nil)

end EdgeRouting.Logic
