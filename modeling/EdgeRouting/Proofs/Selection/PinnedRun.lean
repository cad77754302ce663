import EdgeRouting.Proofs.Selection.Pairs
import EdgeRouting.Proofs.Settings.Agreement

/-!
# Pinned requests at the edge

A request is pinned when its override header names a target. The program then assigns the backend of
that target, whatever the draw, the health and the table of priorities are. The texts of the table
need not denote words here, so there need not be a selector with the weights in force; it is enough
that every weight local holds some integer when the conditions are reached (`HoldsIntegers`), since
under an override no comparison with the draw decides anything.

The program records the health of the backends in a request header before it reads the override, and
that header is accepted in settings as the one that names overrides. In this case the statements in
front of the record have the same effect with any headers (`IgnoresHeaders`), the record overwrites
the override, and no request is pinned at all. `run_program_pinned` has both cases.
-/

namespace EdgeRouting

open Logic

namespace Selector

variable {edge : Edge} {p : Selector} {s : RequestState}

/-! ## Locals that hold integers -/

/-- Every weight local holds some integer. -/
def HoldsIntegers (locals : String → Option LogicValue) (l : List Contender) : Prop :=
  ∀ c ∈ l, ∃ n, locals (weightLocal c) = some (.integer n)

theorem HoldsIntegers.setLocal {l : List Contender} (h : HoldsIntegers s.locals l) (name : String)
    (n : Int) : HoldsIntegers (s.setLocal name (.integer n)).locals l := by
  intro c hc
  by_cases heq : weightLocal c = name
  · exact ⟨n, by rw [heq, s.setLocal_locals_self]⟩
  · obtain ⟨k, hk⟩ := h c hc
    exact ⟨k, by rw [s.setLocal_locals_of_ne heq, hk]⟩

/-- Additions within a list whose locals hold integers leave integers in all of them. -/
theorem runAll_sumStmts_of_integers (edge : Edge) {l m : List Contender} (hsub : l ⊆ m)
    (h : HoldsIntegers s.locals m) :
    ∃ L, runAll edge s (sumStmts l) = some { s with locals := L }
      ∧ HoldsIntegers L m ∧ L drawLocal = s.locals drawLocal := by
  induction l generalizing s with
  | nil => exact ⟨s.locals, rfl, h, rfl⟩
  | cons a r ih =>
      cases r with
      | nil => exact ⟨s.locals, rfl, h, rfl⟩
      | cons b r =>
          obtain ⟨i, hi⟩ := h a (hsub List.mem_cons_self)
          obtain ⟨j, hj⟩ := h b (hsub (List.mem_cons_of_mem _ List.mem_cons_self))
          have hrun : (Stmt.add (weightLocal b) (.localVar (weightLocal a))).run edge s
              = some (s.setLocal (weightLocal b) (.integer (j + i))) := by
            simp [Stmt.run, Expr.eval, hi, hj]
          obtain ⟨L, hL, hin, hdraw⟩ := ih (fun c hc => hsub (List.mem_cons_of_mem _ hc))
            (h.setLocal (weightLocal b) (j + i))
          refine ⟨L, ?_, hin, ?_⟩
          · rw [sumStmts, runAll_cons_of_eq hrun, hL]
            rfl
          · rw [hdraw, s.setLocal_locals_of_ne (drawLocal_ne_weightLocal b)]

/-- The statements that give the weight locals their sums. -/
def weightStmts (p : Selector) : List Stmt :=
  p.contenders.map (fun c => Stmt.declare (weightLocal c) .integer)
    ++ p.contenders.map (fun c => Stmt.setLocal (weightLocal c) (weightExpr c))
    ++ sumStmts p.contenders

/-- Whatever texts the table holds, the weight locals hold integers in the end. -/
theorem runAll_weightStmts (edge : Edge) (hnd : (p.contenders.map Contender.key).Nodup)
    (hnew : ∀ n, s.locals n = none) :
    ∃ L, runAll edge s p.weightStmts = some { s with locals := L }
      ∧ HoldsIntegers L p.contenders ∧ L drawLocal = none := by
  have hlocals := nodup_weightLocals hnd
  have hdraw : drawLocal ∉ p.contenders.map weightLocal := by
    intro h
    obtain ⟨c, -, hc⟩ := List.mem_map.1 h
    exact drawLocal_ne_weightLocal c hc.symm
  obtain ⟨L₁, hrun₁, hin₁, hout₁⟩ := runAll_declare edge (s := s) .integer hlocals
    (fun c _ => hnew _)
  obtain ⟨L₂, hrun₂, hin₂, hout₂⟩ := runAll_setLocals edge weightLocal weightExpr
    (fun c => .integer (integerOfText
      ((edge.entry priorityTableName c.key).getD (toString c.weight.toInt))))
    (s := { s with locals := L₁ }) hlocals
    (fun c _ L _ => by simp [weightExpr, Expr.eval, LogicValue.asText])
    (fun c hc => ⟨_, hin₁ c hc, rfl⟩)
  have hintegers : HoldsIntegers L₂ p.contenders := fun c hc => ⟨_, hin₂ c hc⟩
  obtain ⟨L₃, hrun₃, hin₃, hdraw₃⟩ := runAll_sumStmts_of_integers edge
    (s := { s with locals := L₂ }) (List.Subset.refl p.contenders) hintegers
  refine ⟨L₃, ?_, hin₃, ?_⟩
  · rw [weightStmts, runAll_append_of_eq (by rw [runAll_append_of_eq hrun₁, hrun₂]), hrun₃]
  · calc L₃ drawLocal = L₂ drawLocal := hdraw₃
      _ = L₁ drawLocal := hout₂ _ hdraw
      _ = s.locals drawLocal := hout₁ _ hdraw
      _ = none := hnew _

/-! ## The choice under an override -/

/-- The contender whose key is the override is chosen, whatever integers the locals hold. -/
theorem run_choose_pinned {draw : Nat} {c : Contender}
    (hready : ReadyToChoose edge s draw (some c.key) p.lockHeader [])
    (hintegers : HoldsIntegers s.locals p.contenders) (hkeys : ∀ d ∈ p.contenders, d.key ≠ "")
    (hnd : (p.contenders.map Contender.key).Nodup) (hc : c ∈ p.contenders) :
    ∃ m, (Stmt.choose (p.contenders.map (winBranch p.lockHeader)) (some p.fallbackStmts)).run edge s
      = some { s with lastMatch := m, backend := c.backend } := by
  have hcond : ∀ d ∈ p.contenders, ∀ m, ∃ m',
      (winBranch p.lockHeader d).1.eval edge { s with lastMatch := m }
        = some (.flag (isPinned (some c.key) d), { s with lastMatch := m' }) := by
    intro d hd m
    obtain ⟨n, hn⟩ := hintegers d hd
    obtain ⟨m', hm'⟩ := eval_winCondition_of_local (hready.withMatch m) hn (hkeys d hd)
    refine ⟨m', hm'.trans ?_⟩
    rw [Option.isNone_some, Bool.and_false, Bool.false_or]
  obtain ⟨m, hm⟩ := runBranches_map (winBranch p.lockHeader) (isPinned (some c.key)) hcond
    s.lastMatch
  have hfind : p.contenders.find? (isPinned (some c.key)) = some c := by
    have hsome : (p.contenders.find? (isPinned (some c.key))).isSome := by
      rw [List.find?_isSome]
      exact ⟨c, hc, by simp [isPinned]⟩
    obtain ⟨d, hd⟩ := Option.isSome_iff_exists.1 hsome
    have hkey : c.key = d.key := by simpa [isPinned] using List.find?_some hd
    rw [hd, List.inj_on_of_nodup_map hnd (List.mem_of_find?_eq_some hd) hc hkey.symm]
  refine ⟨m, ?_⟩
  rw [Stmt.run, hm, hfind]
  rfl

/-! ## An override in the header of the record -/

theorem ignoresHeaders_weightExpr (c : Contender) : (weightExpr c).IgnoresHeaders edge := by
  intro s m header value
  simp [weightExpr, Expr.eval]

theorem forall_mem_sumStmts {P : Stmt → Prop} {l : List Contender}
    (h : ∀ c ∈ l, ∀ d ∈ l, P (.add (weightLocal c) (.localVar (weightLocal d)))) :
    ∀ st ∈ sumStmts l, P st := by
  induction l with
  | nil => simp [sumStmts]
  | cons a r ih =>
      cases r with
      | nil => simp [sumStmts]
      | cons b r =>
          refine List.forall_mem_cons.2 ⟨h b ?_ a List.mem_cons_self, ih fun c hc d hd => ?_⟩
          · exact List.mem_cons_of_mem _ List.mem_cons_self
          · exact h c (List.mem_cons_of_mem _ hc) d (List.mem_cons_of_mem _ hd)

theorem forall_mem_weightStmts_ignoresHeaders (p : Selector) :
    ∀ st ∈ p.weightStmts, st.IgnoresHeaders edge := by
  rw [weightStmts, List.forall_mem_append, List.forall_mem_append, List.forall_mem_map,
    List.forall_mem_map]
  exact ⟨⟨fun c _ => ignoresHeaders_declare _ _,
      fun c _ => ignoresHeaders_setLocal _ (ignoresHeaders_weightExpr c)⟩,
    forall_mem_sumStmts fun _ _ _ _ => ignoresHeaders_add _ (ignoresHeaders_localVar _)⟩

/-- When overrides are named in the header of the record, the program runs the same with any value of
that header. -/
theorem run_program_setHeader
    (hheader : RequestState.headerKey p.lockHeader = RequestState.headerKey healthHeader)
    (value : String) :
    p.program.run edge (s.setHeader .request p.lockHeader value) = p.program.run edge s := by
  have hsplit : p.program = p.weightStmts
      ++ [.declare drawLocal .integer, .setLocal drawLocal (.random 0 (drawRange - 1))]
      ++ .set (.header .request healthHeader) (.concat (healthExprs p.contenders))
        :: [.choose (p.contenders.map (winBranch p.lockHeader)) (some p.fallbackStmts)] := by
    rw [List.append_assoc]
    rfl
  have hbefore : ∀ st ∈ p.weightStmts ++ [.declare drawLocal .integer,
      .setLocal drawLocal (.random 0 (drawRange - 1))], st.IgnoresHeaders edge := by
    rw [List.forall_mem_append, List.forall_mem_cons, List.forall_mem_singleton]
    exact ⟨p.forall_mem_weightStmts_ignoresHeaders, ignoresHeaders_declare _ _,
      ignoresHeaders_setLocal _ (ignoresHeaders_random _ _)⟩
  have hrecord : ∀ s' : RequestState, (Stmt.set (.header .request healthHeader)
      (.concat (healthExprs p.contenders))).run edge (s'.setHeader .request p.lockHeader value)
        = (Stmt.set (.header .request healthHeader) (.concat (healthExprs p.contenders))).run edge
          s' := by
    intro s'
    simp only [Stmt.run, Expr.eval, concatAll_healthExprs, Option.bind_eq_bind, Option.bind_some,
      Place.assign, s'.setHeader_setHeader hheader]
  rw [Program.run, Program.run, hsplit, runAll_append, runAll_append (s := s),
    runAll_setHeader hbefore]
  cases runAll edge s _ with
  | none => rfl
  | some s' =>
      show runAll edge (s'.setHeader .request p.lockHeader value) _ = runAll edge s' _
      rw [runAll, runAll, hrecord s']

/-! ## Pinned runs -/

/-- The override that names a target. -/
def pinOf (t : Target) : String := Selection.overrideKey ++ "=" ++ t.key

section Pins

variable {targets : List Target} {t : Target}

theorem not_mem_key (hnamed : WellNamed targets) (ht : t ∈ targets) {ch : Char}
    (hch : isNameChar ch = false) : ch ∉ t.key.toList := by
  intro h
  rw [hnamed.isNameChar_of_mem_key ht h] at hch
  cases hch

theorem tokenOf_pinOf (hnamed : WellNamed targets) (ht : t ∈ targets) :
    Selection.tokenOf (some (pinOf t)) = some t.key := by
  have hpairs : Selection.ListsPairs Selection.overrideSeparator (pinOf t)
      [(Selection.overrideKey, t.key)] := by
    refine ⟨⟨[(pinOf t).toList], rfl, .cons (.inl ?_) .nil⟩, ?_, ?_⟩
    · simp [pinOf]
    · rw [List.forall_mem_singleton]
      show '=' ∉ Selection.overrideKey.toList
        ∧ Selection.overrideSeparator ∉ Selection.overrideKey.toList
      decide
    · rw [List.forall_mem_singleton]
      exact not_mem_key hnamed ht (by decide)
  rw [Selection.tokenOf_eq_lookup hpairs, List.lookup_cons_self,
    Option.filter_some_pos (by simpa using hnamed.key_ne_empty ht)]

theorem newline_not_mem_pinOf (hnamed : WellNamed targets) (ht : t ∈ targets) :
    '\n' ∉ (pinOf t).toList := by
  rw [pinOf, String.toList_append, List.mem_append, not_or]
  exact ⟨by decide, not_mem_key hnamed ht (by decide)⟩

end Pins

/-- A pinned request gets the backend of its target, unless the record of the health overwrites the
pin. -/
theorem run_program_of_pin {targets : List Target} {table : WeightTable} {lockHeader : String}
    (hp : ofTargets targets table lockHeader = .ok p)
    (hheader : RequestState.headerKey lockHeader ≠ RequestState.headerKey healthHeader) {t : Target}
    (ht : t ∈ targets) (hdraw : 0 ≤ edge.draw ∧ edge.draw < drawRange)
    (hpatterns : edge.patterns = EdgeLogic.patterns) (hnew : ∀ n, s.locals n = none)
    (hlock : s.header? .request lockHeader = some (pinOf t)) :
    ∃ s', p.program.run edge s = some s' ∧ s'.backend = t.backendRef ∧ s'.raw = s.raw := by
  obtain ⟨hnamed, -, -, rfl, -⟩ := ofTargets_eq_ok hp
  obtain ⟨i, hi⟩ := List.getElem?_of_mem ht
  obtain ⟨c, hc, -, hckey, hbackend⟩ := exists_contender_at hp hi
  obtain ⟨L, hweights, hintegers, hdrawNew⟩ := runAll_weightStmts edge (nodup_keys hp) hnew
  let request : RouteRequest :=
    ⟨edge.draw.toNat, p.contenders.map fun c => edge.healthy c.backend, some (pinOf t)⟩
  have hdrawn : edge.draw = request.draw := (Int.toNat_of_nonneg hdraw.1).symm
  have hrange : request.draw < drawRange := by
    have := hdraw.2
    omega
  have hhealth : HealthAgrees edge request.health p.contenders := by
    intro j d hd
    simp [request, healthyAt, hd]
  have htoken : Selection.tokenOf request.lock = some c.key := by
    rw [hckey]
    exact tokenOf_pinOf hnamed ht
  -- The thresholds of no contender are needed, since the override decides.
  have hready : ReadyToChoose edge (recorded { s with locals := L } request p.contenders.length)
      request.draw (Selection.tokenOf request.lock) p.lockHeader [] :=
    readyToChoose_recorded p.contenders.length (by simp [HoldsThresholds]) hheader hlock
      (fun _ h => Option.some.inj h ▸ newline_not_mem_pinOf hnamed ht) hpatterns (by simp)
  rw [htoken] at hready
  have hrecorded : HoldsIntegers (recorded { s with locals := L } request
      p.contenders.length).locals p.contenders :=
    (HoldsIntegers.setLocal (s := { s with locals := L }) hintegers drawLocal 0).setLocal drawLocal
      request.draw
  obtain ⟨m, hchoose⟩ := run_choose_pinned hready hrecorded (key_ne_empty hp) (nodup_keys hp)
    (List.mem_of_getElem? hc)
  have hrun : p.program.run edge s = some { recorded { s with locals := L } request
      p.contenders.length with lastMatch := m, backend := c.backend } := by
    show runAll edge s (p.weightStmts ++ _) = _
    rw [runAll_append_of_eq hweights, runAll_record hdrawn hrange hhealth hdrawNew,
      runAll_cons_of_eq hchoose, runAll]
  exact ⟨_, hrun, hbackend, rfl⟩

/-! ## Accepted settings -/

theorem exists_ofTargets_of_validate {settings : Settings} {warnings : List SettingsWarning}
    (h : settings.validate = .ok warnings) (table : WeightTable) (lockHeader : String) :
    ∃ targets p, buildTargets settings.targets = .ok targets
      ∧ ofTargets targets table lockHeader = .ok p := by
  obtain ⟨targets, logic, hbuilt, hlogic⟩ := Settings.exists_logic_of_validate h table lockHeader
  exact ⟨targets, logic.selector, hbuilt, (EdgeLogic.ofTargets_eq_ok hlogic).1⟩

/-- The logic of accepted settings gives a pinned request the backend of its target, whatever the
draw, the health and the table of priorities are, unless the header that names overrides is the one
that the health is recorded in. In that case the value of the header makes no difference. -/
theorem run_program_pinned {settings : Settings} {warnings : List SettingsWarning}
    (hvalid : settings.validate = .ok warnings) :
    ∃ targets p, buildTargets settings.targets = .ok targets
      ∧ ofTargets targets settings.weights settings.service.lockHeader = .ok p
      ∧ (RequestState.headerKey settings.service.lockHeader ≠ RequestState.headerKey healthHeader →
        ∀ t ∈ targets, ∀ (edge : Edge) (s : RequestState),
          0 ≤ edge.draw ∧ edge.draw < drawRange → edge.patterns = EdgeLogic.patterns →
          (∀ n, s.locals n = none) →
          s.header? .request settings.service.lockHeader = some (pinOf t) →
          ∃ s', p.program.run edge s = some s' ∧ s'.backend = t.backendRef ∧ s'.raw = s.raw)
      ∧ (RequestState.headerKey settings.service.lockHeader = RequestState.headerKey healthHeader →
        ∀ (edge : Edge) (s : RequestState) (value : String),
          p.program.run edge (s.setHeader .request settings.service.lockHeader value)
            = p.program.run edge s) := by
  obtain ⟨targets, p, hbuilt, hp⟩ :=
    exists_ofTargets_of_validate hvalid settings.weights settings.service.lockHeader
  refine ⟨targets, p, hbuilt, hp, ?_, ?_⟩
  · intro hheader t ht edge s hdraw hpatterns hnew hlock
    exact run_program_of_pin hp hheader ht hdraw hpatterns hnew hlock
  · intro hheader edge s value
    obtain ⟨-, -, -, hlockHeader, -⟩ := ofTargets_eq_ok hp
    rw [← hlockHeader] at hheader ⊢
    exact run_program_setHeader hheader value

/-! ### Two headers of overrides

The draw goes to the first target, the second one is unhealthy, and the table of priorities has a
text for it that is no number. A request that is pinned to the second target gets its backend when
overrides are named in a header of their own. When they are named in the header of the record, which
is accepted, the request gets the first backend. -/

def pinSettings (lockHeader : String) : Settings :=
  { Settings.default with
    service := { ServiceSettings.default with apiUrl := "http://10.0.0.1/api", lockHeader }
    targets := [⟨"Blue", "10.0.0.1", "", "/\x7bpackage\x7d", none⟩,
      ⟨"green", "10.0.0.2", "", "/\x7bpackage\x7d", none⟩] }

def pinTargets : List Target :=
  [⟨"Blue", "10.0.0.1", "", ⟨"/\x7bpackage\x7d", [.literal "/", .field .package]⟩, ""⟩,
    ⟨"green", "10.0.0.2", "", ⟨"/\x7bpackage\x7d", [.literal "/", .field .package]⟩, ""⟩]

def pinSelector (lockHeader : String) : Selector :=
  ⟨[⟨"Blue", "blue", "F_Blue", 50, 50⟩, ⟨"green", "green", "F_green", 50, 100⟩], 50, "", lockHeader,
    by simp⟩

def pinEdge : Edge where
  draw := 0
  healthy backend := backend == "F_Blue"
  entry _ key := [("green", "many")].lookup key
  patterns := EdgeLogic.patterns

def pinnedState (lockHeader : String) : RequestState :=
  unpinnedState.setHeader .request lockHeader "env=green"

theorem run_program_pinnedGreen :
    (pinSettings "X-Pin").validate = .ok []
      ∧ ∃ s', (pinSelector "X-Pin").program.run pinEdge (pinnedState "X-Pin") = some s'
        ∧ s'.backend = "F_green" := by
  have hvalid : (pinSettings "X-Pin").validate = .ok [] := by with_unfolding_all rfl
  have hheader : RequestState.headerKey "X-Pin" ≠ RequestState.headerKey healthHeader := by decide
  obtain ⟨targets, p, hbuilt, hp, hpinned, -⟩ := run_program_pinned hvalid
  obtain rfl : pinTargets = targets := by
    have htargets : buildTargets (pinSettings "X-Pin").targets = .ok pinTargets := by
      with_unfolding_all rfl
    exact Except.ok.inj (htargets.symm.trans hbuilt)
  obtain rfl : pinSelector "X-Pin" = p := Except.ok.inj hp
  obtain ⟨s', hrun, hbackend, -⟩ := hpinned hheader pinTargets[1] (by decide) pinEdge
    (pinnedState "X-Pin") (by decide) rfl (fun _ => rfl) (by decide)
  exact ⟨hvalid, s', hrun, hbackend⟩

theorem run_program_overwrittenPin :
    (pinSettings healthHeader).validate = .ok []
      ∧ buildTargets (pinSettings healthHeader).targets = .ok pinTargets
      ∧ ofTargets pinTargets .empty healthHeader = .ok (pinSelector healthHeader)
      ∧ (pinnedState healthHeader).header? .request healthHeader = some (pinOf pinTargets[1])
      ∧ pinTargets[1].backendRef = "F_green"
      ∧ ((pinSelector healthHeader).program.run pinEdge (pinnedState healthHeader)).map
        RequestState.backend = some "F_Blue" := by
  have hvalid : (pinSettings healthHeader).validate = .ok [] := by with_unfolding_all rfl
  have htargets : buildTargets (pinSettings healthHeader).targets = .ok pinTargets := by
    with_unfolding_all rfl
  exact ⟨hvalid, htargets, rfl, by decide, rfl, rfl⟩

end Selector

end EdgeRouting
