import EdgeRouting.Proofs.Logic.Scope
import EdgeRouting.Proofs.Outbound.Served
import EdgeRouting.Proofs.Selection.PinnedRun

/-!
# The generated programs are well formed

Both programs declare their locals first and leave the scope as it is from there on, so it is enough
to know what the scope holds behind the declarations. In the program of a selector a local belongs
to the key of a target; no two targets have the same key, and the local of the draw has a name
that no key leads to. In the program of the outbound URLs the groups are those of the path pattern,
which is found among the patterns by its text.
-/

namespace EdgeRouting

open Logic

variable {patterns : List Pattern} {sc : Scope}

/-! ## Selection -/

namespace Selector

variable {p : Selector} {l : List Contender}

/-- The scope behind the declarations of the weights. -/
def weightScope (p : Selector) : Scope :=
  (Scope.initial (p.contenders.map Contender.backend)).declareAll weightLocal .integer p.contenders

/-- The scope behind all declarations. -/
def scope (p : Selector) : Scope := p.weightScope.declare drawLocal .integer

theorem mem_locals_weightScope {entry : String × LocalType} :
    entry ∈ p.weightScope.locals ↔ ∃ c ∈ p.contenders, entry = (weightLocal c, .integer) := by
  rw [weightScope, Scope.mem_locals_declareAll]
  exact or_iff_right List.not_mem_nil

theorem allFit_weightStmts (hkeys : (p.contenders.map Contender.key).Nodup) :
    AllFit patterns (.initial (p.contenders.map Contender.backend)) p.weightStmts
      p.weightScope := by
  have hdeclared : ∀ c ∈ p.contenders, (weightLocal c, .integer) ∈ p.weightScope.locals :=
    fun c hc => mem_locals_weightScope.2 ⟨c, hc, rfl⟩
  have hdeclare : AllFit patterns (.initial (p.contenders.map Contender.backend))
      (p.contenders.map fun c => .declare (weightLocal c) .integer) p.weightScope :=
    allFit_declareAll (nodup_weightLocals hkeys) fun _ _ => List.not_mem_nil
  refine .append (.append hdeclare (.of_forall ?set)) (.of_forall ?add)
  case set =>
    refine List.forall_mem_map.2 fun c hc => ?_
    exact .setInteger (hdeclared c hc) (.integerOf (.tableEntry ..))
  case add =>
    refine forall_mem_sumStmts fun c hc d hd => ?_
    exact .add (hdeclared c hc) (.localVar (hdeclared d hd))

theorem drawLocal_not_mem_names (p : Selector) : drawLocal ∉ p.weightScope.names := by
  intro hmem
  obtain ⟨entry, hentry, hname⟩ := List.mem_map.1 hmem
  obtain ⟨c, -, rfl⟩ := mem_locals_weightScope.1 hentry
  exact drawLocal_ne_weightLocal c hname.symm

/-- A scope has what the choice between contenders refers to. -/
structure Provides (sc : Scope) (l : List Contender) : Prop where
  weights : ∀ c ∈ l, (weightLocal c, LocalType.integer) ∈ sc.locals
  draw : (drawLocal, LocalType.integer) ∈ sc.locals
  backends : ∀ c ∈ l, c.backend ∈ sc.backends
  groups : sc.groups = []

theorem provides_scope (p : Selector) : Provides p.scope p.contenders where
  weights c hc := List.mem_cons_of_mem _ (mem_locals_weightScope.2 ⟨c, hc, rfl⟩)
  draw := List.mem_cons_self
  backends c hc := by
    rw [scope, Scope.declare, weightScope, Scope.backends_declareAll]
    exact List.mem_map_of_mem hc
  groups := Scope.groups_declareAll ..

theorem isPart_of_mem_healthExprs (hbackends : ∀ c ∈ l, c.backend ∈ sc.backends) :
    ∀ e ∈ healthExprs l, e.IsPart sc := by
  induction l with
  | nil => simp [healthExprs]
  | cons a r ih =>
      obtain ⟨ha, hr⟩ := List.forall_mem_cons.1 hbackends
      cases r with
      | nil => exact List.forall_mem_singleton.2 (.flag (.healthy ha))
      | cons b r =>
          exact List.forall_mem_cons.2 ⟨.flag (.healthy ha),
            List.forall_mem_cons.2 ⟨.text (.text _), ih hr⟩⟩

theorem hasKind_tokenExpr (lockHeader : String) : (tokenExpr lockHeader).HasKind sc .text :=
  .subfield _ _ (.header _ _)

theorem hasKind_winCondition (h : Provides sc l) (lockHeader : String) {c : Contender}
    (hc : c ∈ l) : (winCondition lockHeader c).HasKind sc .flag := by
  have hreached : (Expr.compare .atMost (.localVar drawLocal)
      (.localVar (weightLocal c))).HasKind sc .flag :=
    .atMost (.localVar h.draw) (.localVar (h.weights c hc))
  have hhealthy : (Expr.healthy c.backend).HasKind sc .flag := .healthy (h.backends c hc)
  have hfree : (Expr.isMatch (tokenExpr lockHeader) presencePattern.text true).HasKind sc .flag :=
    .isMatch _ _ h.groups (hasKind_tokenExpr _)
  have hpinned : (Expr.compare .equal (tokenExpr lockHeader) (.text c.key)).HasKind sc .flag :=
    .equal (hasKind_tokenExpr _) (.text _)
  refine .any (List.forall_mem_cons.2 ⟨.all ?_, List.forall_mem_singleton.2 hpinned⟩)
  exact List.forall_mem_cons.2 ⟨hreached, List.forall_mem_cons.2 ⟨hhealthy,
    List.forall_mem_singleton.2 hfree⟩⟩

theorem branchesFit_winBranch (h : Provides sc l) (lockHeader : String) :
    BranchesFit patterns sc (l.map (winBranch lockHeader)) := by
  refine .of_forall (List.forall_mem_map.2 fun c hc => ⟨hasKind_winCondition h lockHeader hc, ?_⟩)
  exact .singleton (.setBackend (h.backends c hc))

theorem allFit_fallbackStmts (h : Provides sc p.contenders) :
    AllFit patterns sc p.fallbackStmts sc := by
  refine .cons (.setBackend (h.backends _ (List.head_mem p.nonempty))) ?_
  split
  · exact .nil
  · exact .singleton (.raw _)

theorem wellFormed_program (patterns : List Pattern)
    (hkeys : (p.contenders.map Contender.key).Nodup) :
    p.program.WellFormed patterns (p.contenders.map Contender.backend) := by
  have h := p.provides_scope
  have hdraw : Stmt.Fits patterns p.scope (.setLocal drawLocal (.random 0 (drawRange - 1)))
      p.scope := .setInteger h.draw (.random (by decide))
  have hhealth : Stmt.Fits patterns p.scope
      (.set (.header .request healthHeader) (.concat (healthExprs p.contenders))) p.scope :=
    .setHeader (.concat (isPart_of_mem_healthExprs h.backends))
  have hchoice : Stmt.Fits patterns p.scope
      (.choose (p.contenders.map (winBranch p.lockHeader)) (some p.fallbackStmts)) p.scope :=
    .choose (branchesFit_winBranch h _) (.some (allFit_fallbackStmts h))
  have hdeclare : Stmt.Fits patterns p.weightScope (.declare drawLocal .integer) p.scope :=
    .declare p.drawLocal_not_mem_names
  exact ⟨p.scope, (allFit_weightStmts hkeys).append
    (.cons hdeclare (.cons hdraw (.cons hhealth (.singleton hchoice))))⟩

end Selector

/-! ## Outbound URLs -/

namespace Outbound

/-- The scope behind the declarations. -/
def scope (o : Outbound) : Scope :=
  (Scope.initial (o.routes.map Route.backend)).declareAll Placeholder.name .text
    Placeholder.ofRequest

/-- The locals of all fields of a request are declared. -/
def DeclaresFields (sc : Scope) : Prop :=
  ∀ f ∈ Placeholder.ofRequest, (f.name, LocalType.text) ∈ sc.locals

theorem declaresFields_scope (o : Outbound) : DeclaresFields o.scope :=
  fun f hf => Scope.mem_locals_declareAll.2 (.inr ⟨f, hf, rfl⟩)

theorem groupNumber_mem_groups {g : Placeholder × Nat} (hg : g ∈ groupFields) :
    g.2 ∈ pathPattern.groups := by
  revert g
  decide

theorem allFit_readFields (h : DeclaresFields sc) (hgroups : sc.groups = pathPattern.groups) :
    AllFit patterns sc readFields sc := by
  rw [readFields_eq]
  refine .append (.of_forall (List.forall_mem_map.2 fun g hg => ?group))
    (.of_forall (List.forall_mem_map.2 fun v hv => ?version))
  case group =>
    have hfield := h g.1 (mem_ofRequest_iff.2 (.inl (List.mem_map_of_mem hg)))
    exact .setText hfield (.group (hgroups ▸ groupNumber_mem_groups hg))
  case version =>
    have hfield := h v.1 (mem_ofRequest_iff.2 (.inr (List.mem_map_of_mem hv)))
    exact .setText hfield (.replaceFirst _ _ (.localVar (h .version (by decide))))

theorem isPart_partExpr (h : DeclaresFields sc) (basePath : String) (part : Template.Part) :
    (partExpr basePath part).IsPart sc := by
  cases part with
  | literal s => exact .text (.text s)
  | field f =>
      cases f with
      | basePath => exact .text (.text basePath)
      | _ => exact .localVar (h _ (by decide))

theorem branchesFit_routeBranch (h : DeclaresFields sc) {routes : List Route}
    (hbackends : ∀ r ∈ routes, r.backend ∈ sc.backends) :
    BranchesFit patterns sc (routes.map routeBranch) := by
  refine .of_forall (List.forall_mem_map.2 fun r hr => ⟨?_, .singleton (.setBackendUrl ?_)⟩)
  · exact .equal (.builtin _) (.backend (hbackends r hr))
  · exact .concat (List.forall_mem_map.2 fun part _ => isPart_partExpr h r.basePath part)

theorem wellFormed_program (o : Outbound)
    (hgroups : guardGroups patterns (.isMatch (.builtin .requestUrl) pathPattern.text false)
      = pathPattern.groups) :
    o.program.WellFormed patterns (o.routes.map Route.backend) := by
  have h := o.declaresFields_scope
  have hdeclare : AllFit patterns (.initial (o.routes.map Route.backend))
      (Placeholder.ofRequest.map fun f => .declare f.name .text) o.scope :=
    allFit_declareAll nodup_names fun _ _ => List.not_mem_nil
  have hempty : AllFit patterns o.scope (Placeholder.ofRequest.map fun f => setField f (.text ""))
      o.scope := .of_forall (List.forall_mem_map.2 fun f hf => .setText (h f hf) (.text ""))
  have hread : AllFit patterns
      (o.scope.behind patterns (.isMatch (.builtin .requestUrl) pathPattern.text false)) readFields
      (o.scope.behind patterns (.isMatch (.builtin .requestUrl) pathPattern.text false)) :=
    allFit_readFields h ((List.append_nil _).trans hgroups)
  have hroutes : BranchesFit patterns o.scope (o.routes.map routeBranch) :=
    branchesFit_routeBranch h fun _ hr => List.mem_map_of_mem hr
  refine ⟨o.scope, .append (.append hdeclare hempty)
    (.cons (.choose (.cons ?_ hread .nil) .none) (.singleton (.choose hroutes .none)))⟩
  exact .isMatch _ _ (Scope.groups_declareAll ..) (.builtin _)

end Outbound

/-! ## The logic of a routing set -/

namespace EdgeLogic

/-- The programs that select a backend and set its URL are well formed, they refer to no backend but
those of the targets, and no local is declared at two places in them. -/
theorem wellFormed_programs {targets : List Target} {table : WeightTable} {lockHeader : String}
    {logic : EdgeLogic} (h : EdgeLogic.ofTargets targets table lockHeader = .ok logic) :
    ∀ p ∈ [logic.selector.program, logic.outbound.program],
      p.WellFormed EdgeLogic.patterns (targets.map Target.backendRef) ∧ (declaredIn p).Nodup := by
  obtain ⟨hselector, houtbound, -⟩ := ofTargets_eq_ok h
  have hcontenders : logic.selector.contenders.map Contender.backend
      = targets.map Target.backendRef := by
    rw [(Selector.ofTargets_eq_ok hselector).2.1]
    exact Selector.map_target_contendersFrom (fun _ _ => rfl) _ _ _
  have hroutes : logic.outbound.routes.map Outbound.Route.backend
      = targets.map Target.backendRef := by
    rw [(Outbound.ofTargets_eq_ok houtbound).2, List.map_map]
    rfl
  have hselection : logic.selector.program.WellFormed EdgeLogic.patterns
      (targets.map Target.backendRef) :=
    hcontenders ▸ Selector.wellFormed_program _ (Selector.nodup_keys hselector)
  have hurls : logic.outbound.program.WellFormed EdgeLogic.patterns
      (targets.map Target.backendRef) :=
    hroutes ▸ Outbound.wellFormed_program logic.outbound rfl
  exact List.forall_mem_cons.2 ⟨⟨hselection, hselection.nodup_declaredIn⟩,
    List.forall_mem_singleton.2 ⟨hurls, hurls.nodup_declaredIn⟩⟩

/-! ### Two targets -/

theorem wellFormed_storeAndCache :
    EdgeLogic.ofTargets Outbound.storeAndCache .empty "X-Pin" = .ok storeAndCacheLogic
      ∧ declaredIn storeAndCacheLogic.selector.program
        = ["weight_store", "weight_cache", "draw"]
      ∧ ∀ p ∈ [storeAndCacheLogic.selector.program, storeAndCacheLogic.outbound.program],
        p.WellFormed EdgeLogic.patterns ["F_store", "F_cache"] ∧ (declaredIn p).Nodup :=
  have h : EdgeLogic.ofTargets Outbound.storeAndCache .empty "X-Pin" = .ok storeAndCacheLogic := rfl
  ⟨h, rfl, wellFormed_programs h⟩

end EdgeLogic

end EdgeRouting
