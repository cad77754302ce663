import EdgeRouting.EdgeLogic
import EdgeRouting.Proofs.Logic.Run
import EdgeRouting.Proofs.Names
import EdgeRouting.Proofs.Selection.InForce
import EdgeRouting.Proofs.Selection.Override

/-!
# The program of a selector makes its selection

A run of `Selector.program` goes through three stages. First each weight local gets the weight that
is in force, and the additions turn the weights into their sums in order: the invariant after this
stage is that every weight local holds the exact threshold of its contender (`HoldsThresholds`).
Then the draw and the health of all backends are recorded. Last, the chain of conditions is walked
through, and the condition of a contender holds exactly when the contender wins (`wins`), so the
first branch that is taken is that of the first winner.

The program is compiled with the weights of one table while the edge may hold another one, so the
selection that it makes is that of the selector with the weights in force.
-/

namespace EdgeRouting.Selector

open Logic

variable {edge : Edge}

/-! ## Names of locals -/

theorem weightLocal_inj {c d : Contender} (h : weightLocal c = weightLocal d) : c.key = d.key :=
  (String.append_right_inj _).1 h

theorem drawLocal_ne_weightLocal (c : Contender) : drawLocal ≠ weightLocal c := by
  intro h
  have := congrArg String.toList h
  simp [drawLocal, weightLocal, String.toList_append] at this

theorem nodup_weightLocals {l : List Contender} (h : (l.map Contender.key).Nodup) :
    (l.map weightLocal).Nodup := by
  have hkeys := List.pairwise_map.1 h
  exact List.pairwise_map.2 (hkeys.imp fun hne heq => hne (weightLocal_inj heq))

/-! ## Thresholds as sums of locals -/

/-- Every weight local holds the threshold of its contender. -/
def HoldsThresholds (locals : String → Option LogicValue) (l : List Contender) : Prop :=
  ∀ c ∈ l, locals (weightLocal c) = some (.integer c.threshold.toInt)

/-- The additions carry the sums on: when the first local holds its threshold and the others hold
their weights, all of them hold their thresholds in the end. -/
theorem runAll_sumStmts {a : Contender} {r : List Contender} {s : RequestState}
    (hnd : ((a :: r).map weightLocal).Nodup) (hexact : ExactThresholds a.threshold.toInt r)
    (hfirst : s.locals (weightLocal a) = some (.integer a.threshold.toInt))
    (hweights : ∀ c ∈ r, s.locals (weightLocal c) = some (.integer c.weight.toInt)) :
    ∃ L, runAll edge s (sumStmts (a :: r)) = some { s with locals := L }
      ∧ HoldsThresholds L (a :: r)
      ∧ (∀ n, n ∉ (a :: r).map weightLocal → L n = s.locals n) := by
  induction r generalizing a s with
  | nil =>
      refine ⟨s.locals, rfl, ?_, fun _ _ => rfl⟩
      intro c hc
      obtain rfl := List.mem_singleton.1 hc
      exact hfirst
  | cons b r ih =>
      obtain ⟨hsum, hexact⟩ := hexact
      rw [List.map_cons, List.nodup_cons] at hnd
      obtain ⟨hfresh, hnd⟩ := hnd
      have hne : ∀ c ∈ r, weightLocal c ≠ weightLocal b := by
        rw [List.map_cons, List.nodup_cons] at hnd
        exact fun c hc heq => hnd.1 (heq ▸ List.mem_map_of_mem hc)
      have hrun : (Stmt.add (weightLocal b) (.localVar (weightLocal a))).run edge s
          = some (s.setLocal (weightLocal b) (.integer b.threshold.toInt)) := by
        simp [Stmt.run, Expr.eval, hfirst, hweights b List.mem_cons_self, hsum, Int.add_comm]
      obtain ⟨L, hL, hin, hout⟩ :=
        ih (s := s.setLocal (weightLocal b) (.integer b.threshold.toInt)) hnd hexact
          (s.setLocal_locals_self _ _)
          (fun c hc => by
            rw [s.setLocal_locals_of_ne (hne c hc)]
            exact hweights c (List.mem_cons_of_mem _ hc))
      have hab : weightLocal a ≠ weightLocal b :=
        fun heq => hfresh (heq ▸ List.mem_map_of_mem List.mem_cons_self)
      refine ⟨L, ?_, ?_, ?_⟩
      · rw [sumStmts, runAll_cons_of_eq hrun, hL]
        rfl
      · intro c hc
        rcases List.mem_cons.1 hc with rfl | hc
        · rw [hout _ hfresh, s.setLocal_locals_of_ne hab, hfirst]
        · exact hin c hc
      · intro n hn
        rw [List.map_cons, List.mem_cons, not_or] at hn
        have hnb : n ≠ weightLocal b := fun heq => hn.2 (heq ▸ List.mem_cons_self)
        rw [hout n hn.2, s.setLocal_locals_of_ne hnb]

theorem sumStmts_reweigh (weight : Contender → Int64) (acc : Int64) (l : List Contender) :
    sumStmts (reweigh weight acc l) = sumStmts l := by
  induction l generalizing acc with
  | nil => rfl
  | cons a r ih =>
      cases r with
      | nil => rfl
      | cons b r =>
          have hhead : sumStmts (reweigh weight acc (a :: b :: r))
              = .add (weightLocal b) (.localVar (weightLocal a))
                :: sumStmts (reweigh weight (saturatingAdd acc (weight a)) (b :: r)) := rfl
          rw [hhead, ih]
          rfl

/-- The edge table of priorities has this content, of which every text denotes a word. -/
structure HoldsTable (edge : Edge) (content : List (String × String)) : Prop where
  entry : ∀ key, edge.entry priorityTableName key = content.lookup key
  words : ∀ e ∈ content, FitsWord (integerOfText e.2)

theorem eval_weightExpr {content : List (String × String)} (h : HoldsTable edge content)
    (c : Contender) (s : RequestState) :
    (weightExpr c).eval edge s = some (.integer (weightInForce content c).toInt, s) := by
  simp only [weightExpr, Expr.eval, h.entry, Option.bind_eq_bind, Option.bind_some,
    LogicValue.asText, weightInForce]
  cases hlook : content.lookup c.key with
  | none =>
      show some (LogicValue.integer (integerOfText (toString c.weight.toInt)), s) = _
      rw [integerOfText_toString]
      rfl
  | some text =>
      have hmem : (c.key, text) ∈ content := by
        obtain ⟨a, b, hab, -⟩ := List.lookup_eq_some_iff.1 hlook
        rw [hab]
        exact List.mem_append_right _ List.mem_cons_self
      simp [toInt_weightOfText (h.words _ hmem)]

/-- After the first part of the program every weight local holds the threshold that its contender
has with the weights in force. -/
theorem runAll_weights {p : Selector} {content : List (String × String)} {s : RequestState}
    (htable : HoldsTable edge content) (hnd : (p.contenders.map Contender.key).Nodup)
    (hfits : PrefixSumsFit (p.contenders.map (weightInForce content)))
    (hnew : ∀ n, s.locals n = none) :
    ∃ L, runAll edge s (p.contenders.map (fun c => Stmt.declare (weightLocal c) .integer)
        ++ p.contenders.map (fun c => Stmt.setLocal (weightLocal c) (weightExpr c))
        ++ sumStmts p.contenders) = some { s with locals := L }
      ∧ HoldsThresholds L (p.inForce content).contenders ∧ L drawLocal = none := by
  have hlocals := nodup_weightLocals hnd
  have hdraw : drawLocal ∉ p.contenders.map weightLocal := by
    intro h
    obtain ⟨c, -, hc⟩ := List.mem_map.1 h
    exact drawLocal_ne_weightLocal c hc.symm
  obtain ⟨L₁, hrun₁, hin₁, hout₁⟩ := runAll_declare edge (s := s) .integer hlocals
    (fun c _ => hnew _)
  obtain ⟨L₂, hrun₂, hin₂, hout₂⟩ := runAll_setLocals edge weightLocal weightExpr
    (fun c => .integer (weightInForce content c).toInt)
    (s := { s with locals := L₁ }) hlocals
    (fun c _ L _ => eval_weightExpr htable c { s with locals := L })
    (fun c hc => ⟨_, hin₁ c hc, rfl⟩)
  have hnames : (p.inForce content).contenders.map weightLocal = p.contenders.map weightLocal :=
    map_reweigh (fun _ _ _ => rfl) _ _
  have hfitsZero : ∀ n, FitsWord ((0 : Int64).toInt
      + exactSum ((p.contenders.map (weightInForce content)).take n)) := by
    intro n
    rw [Int64.toInt_zero, Int.zero_add]
    exact hfits n
  have hexact : ExactThresholds 0 (p.inForce content).contenders :=
    exactThresholds_reweigh hfitsZero
  have hweights : ∀ c ∈ (p.inForce content).contenders,
      L₂ (weightLocal c) = some (.integer c.weight.toInt) := by
    intro c hc
    obtain ⟨d, hd, hkey, hweight⟩ := exists_of_mem_reweigh hc
    have hlocal : weightLocal c = weightLocal d := congrArg ("weight_" ++ ·) hkey
    rw [hlocal, hin₂ d hd, hweight]
  have hsums : sumStmts p.contenders = sumStmts (p.inForce content).contenders :=
    (sumStmts_reweigh _ _ _).symm
  obtain ⟨a, r, hq⟩ := List.exists_cons_of_ne_nil (p.inForce content).nonempty
  rw [← hnames] at hlocals hdraw
  rw [hsums]
  rw [hq] at hlocals hdraw hexact hweights ⊢
  obtain ⟨hsum, hexact⟩ := hexact
  have hfirst : L₂ (weightLocal a) = some (.integer a.threshold.toInt) := by
    rw [hweights a List.mem_cons_self, hsum, Int.zero_add]
  obtain ⟨L₃, hrun₃, hin₃, hout₃⟩ := runAll_sumStmts
    (s := { s with locals := L₂ }) hlocals hexact hfirst
    (fun c hc => hweights c (List.mem_cons_of_mem _ hc))
  refine ⟨L₃, ?_, hin₃, ?_⟩
  · rw [runAll_append_of_eq (by rw [runAll_append_of_eq hrun₁, hrun₂]), hrun₃]
  · have hdraw' : drawLocal ∉ p.contenders.map weightLocal := by
      rw [← hnames, hq]
      exact hdraw
    calc L₃ drawLocal = L₂ drawLocal := hout₃ _ hdraw
      _ = L₁ drawLocal := hout₂ _ hdraw'
      _ = s.locals drawLocal := hout₁ _ hdraw'
      _ = none := hnew _

/-! ## The health of all backends -/

theorem concatAll_healthExprs (s : RequestState) (l : List Contender) :
    concatAll edge s (healthExprs l)
      = some (" ".intercalate (l.map fun c => (LogicValue.flag (edge.healthy c.backend)).asText),
          s) := by
  induction l with
  | nil => rfl
  | cons a r ih =>
      cases r with
      | nil => simp [healthExprs, concatAll, Expr.eval]
      | cons b r =>
          have hstep : concatAll edge s (healthExprs (a :: b :: r))
              = (concatAll edge s (healthExprs (b :: r))).map fun t =>
                  ((LogicValue.flag (edge.healthy a.backend)).asText ++ (" " ++ t.1), t.2) := by
            simp only [healthExprs, concatAll, Expr.eval, Option.bind_eq_bind, Option.bind_some]
            cases concatAll edge s (healthExprs (b :: r)) <;> rfl
          rw [hstep, ih, List.map_cons, List.map_cons, List.map_cons,
            String.intercalate_cons_cons, Option.map_some, String.append_assoc]

theorem healthExprs_reweigh (weight : Contender → Int64) (acc : Int64) (l : List Contender) :
    healthExprs (reweigh weight acc l) = healthExprs l := by
  induction l generalizing acc with
  | nil => rfl
  | cons a r ih =>
      cases r with
      | nil => rfl
      | cons b r =>
          have hhead : healthExprs (reweigh weight acc (a :: b :: r))
              = .healthy a.backend :: .text " "
                :: healthExprs (reweigh weight (saturatingAdd acc (weight a)) (b :: r)) := rfl
          rw [hhead, ih]
          rfl

/-- The backends are as healthy as the request says of the contenders in their order. -/
def HealthAgrees (edge : Edge) (health : List Bool) (l : List Contender) : Prop :=
  ∀ i c, l[i]? = some c → edge.healthy c.backend = healthyAt health i

theorem HealthAgrees.inForce {health : List Bool} {p : Selector}
    (h : HealthAgrees edge health p.contenders) (content : List (String × String)) :
    HealthAgrees edge health (p.inForce content).contenders := by
  intro i c hc
  have hbackends : (p.inForce content).contenders.map Contender.backend
      = p.contenders.map Contender.backend := map_reweigh (fun _ _ _ => rfl) _ _
  have hi := congrArg (·[i]?) hbackends
  simp only [List.getElem?_map, hc, Option.map_some] at hi
  obtain ⟨d, hd, hbackend⟩ := Option.map_eq_some_iff.1 hi.symm
  rw [← hbackend, h i d hd]

theorem healthSnapshot_eq {health : List Bool} {l : List Contender}
    (h : HealthAgrees edge health l) :
    " ".intercalate (l.map fun c => (LogicValue.flag (edge.healthy c.backend)).asText)
      = healthSnapshot l.length health := by
  unfold healthSnapshot
  congr 1
  refine List.ext_getElem (by simp) ?_
  intro i hi hi'
  have hlt : i < l.length := by simpa using hi
  simp only [List.getElem_map, List.getElem_range]
  rw [h i l[i] (List.getElem?_eq_getElem hlt)]
  rfl

/-! ## The condition of a contender -/

/-- Whether a contender wins, with the health that the edge knows of its backend. -/
def wins (edge : Edge) (draw : Nat) (token : Option String) (c : Contender) : Bool :=
  (draw : Int) ≤ c.threshold.toInt && edge.healthy c.backend && token.isNone
    || isPinned token c

/-- What the chain of conditions relies on in a state: the draw, the thresholds, and the override
that the header names. -/
structure ReadyToChoose (edge : Edge) (s : RequestState) (draw : Nat) (token : Option String)
    (lockHeader : String) (l : List Contender) : Prop where
  drawn : s.locals drawLocal = some (.integer draw)
  thresholds : HoldsThresholds s.locals l
  reads : subfieldText ((s.header? .request lockHeader).getD "") Selection.overrideKey
    (String.singleton Selection.overrideSeparator) = token.getD ""
  sees : presencePattern.find? (token.getD "") = none ↔ token = none
  pattern : edge.pattern? presencePattern.text = some presencePattern
  keys : ∀ c ∈ l, c.key ≠ ""

section Conditions

variable {s : RequestState} {draw : Nat} {token : Option String} {lockHeader : String}
  {l : List Contender} {c : Contender}

theorem ReadyToChoose.withMatch (h : ReadyToChoose edge s draw token lockHeader l)
    (m : Option Pattern.Match) :
    ReadyToChoose edge { s with lastMatch := m } draw token lockHeader l :=
  ⟨h.drawn, h.thresholds, h.reads, h.sees, h.pattern, h.keys⟩

theorem eval_tokenExpr (h : ReadyToChoose edge s draw token lockHeader l) :
    (tokenExpr lockHeader).eval edge s = some (.text (token.getD ""), s) := by
  simp [tokenExpr, Expr.eval, LogicValue.asText, h.reads]

theorem eval_absence (h : ReadyToChoose edge s draw token lockHeader l) :
    ∃ m, (Expr.isMatch (tokenExpr lockHeader) presencePattern.text true).eval edge s
      = some (.flag token.isNone, { s with lastMatch := m }) := by
  have heval := eval_isMatch true (eval_tokenExpr h) h.pattern
  rw [heval, LogicValue.asText]
  cases hfind : presencePattern.find? (token.getD "") with
  | none =>
      have hnone := h.sees.1 hfind
      exact ⟨s.lastMatch, by rw [hnone]; rfl⟩
  | some m =>
      have hsome : token ≠ none := fun hnone => by simp [h.sees.2 hnone] at hfind
      exact ⟨some m, by rw [Option.isNone_eq_false_iff.2 (Option.isSome_iff_ne_none.2 hsome)]; rfl⟩

/-- The first alternative of a condition: the draw, the health and the absence of an override. The
override is looked at only when the other two hold. -/
theorem eval_weighted (h : ReadyToChoose edge s draw token lockHeader l) {n : Int}
    (hlocal : s.locals (weightLocal c) = some (.integer n)) :
    ∃ m, (Expr.all [
        .compare .atMost (.localVar drawLocal) (.localVar (weightLocal c)),
        .healthy c.backend,
        .isMatch (tokenExpr lockHeader) presencePattern.text true]).eval edge s
      = some (.flag ((draw : Int) ≤ n && edge.healthy c.backend && token.isNone),
          { s with lastMatch := m }) := by
  have hcompare : (Expr.compare .atMost (.localVar drawLocal) (.localVar (weightLocal c))).eval
      edge s = some (.flag ((draw : Int) ≤ n), s) := by
    simp [Expr.eval, h.drawn, hlocal, compareValues]
  have hhealthy : (Expr.healthy c.backend).eval edge s
      = some (.flag (edge.healthy c.backend), s) := rfl
  cases hdraw : decide ((draw : Int) ≤ n) with
  | false =>
      rw [hdraw] at hcompare
      exact ⟨s.lastMatch, eval_all_of_eq (allHold_cons_of_false hcompare)⟩
  | true =>
      rw [hdraw] at hcompare
      cases hh : edge.healthy c.backend with
      | false =>
          rw [hh] at hhealthy
          refine ⟨s.lastMatch, eval_all_of_eq ?_⟩
          rw [allHold_cons_of_true hcompare, allHold_cons_of_false hhealthy]
          rfl
      | true =>
          rw [hh] at hhealthy
          obtain ⟨m, hm⟩ := eval_absence h
          refine ⟨m, eval_all_of_eq ?_⟩
          rw [allHold_cons_of_true hcompare, allHold_cons_of_true hhealthy, allHold_singleton hm]
          rfl

/-- The second alternative of a condition: the override is the key of the contender. No key is
empty, so an absent override is none. -/
theorem eval_pinned (h : ReadyToChoose edge s draw token lockHeader l) (hkey : c.key ≠ "") :
    (Expr.compare .equal (tokenExpr lockHeader) (.text c.key)).eval edge s
      = some (.flag (isPinned token c), s) := by
  simp only [Expr.eval, eval_tokenExpr h, Option.bind_eq_bind, Option.bind_some, compareValues,
    LogicValue.asText, isPinned]
  cases token with
  | none => simp [Ne.symm hkey]
  | some t => by_cases ht : t = c.key <;> simp [ht]

/-- The condition of a contender, whatever integer its local holds. -/
theorem eval_winCondition_of_local (h : ReadyToChoose edge s draw token lockHeader l) {n : Int}
    (hlocal : s.locals (weightLocal c) = some (.integer n)) (hkey : c.key ≠ "") :
    ∃ m, (winCondition lockHeader c).eval edge s
      = some (.flag ((draw : Int) ≤ n && edge.healthy c.backend && token.isNone
          || isPinned token c), { s with lastMatch := m }) := by
  obtain ⟨m, hm⟩ := eval_weighted h hlocal
  refine ⟨m, eval_any_of_eq ?_⟩
  cases hw : ((draw : Int) ≤ n && edge.healthy c.backend && token.isNone) with
  | true =>
      rw [hw] at hm
      rw [anyHolds_cons_of_true hm, Bool.true_or]
  | false =>
      rw [hw] at hm
      rw [anyHolds_cons_of_false hm, anyHolds_singleton (eval_pinned (h.withMatch m) hkey),
        Bool.false_or]

theorem eval_winCondition (h : ReadyToChoose edge s draw token lockHeader l) (hc : c ∈ l) :
    ∃ m, (winCondition lockHeader c).eval edge s
      = some (.flag (wins edge draw token c), { s with lastMatch := m }) :=
  eval_winCondition_of_local h (h.thresholds c hc) (h.keys c hc)

/-- The chain of conditions runs the branch of the first contender that wins. -/
theorem runBranches_winBranch (h : ReadyToChoose edge s draw token lockHeader l) :
    ∃ m, runBranches edge s (l.map (winBranch lockHeader))
      = match l.find? (wins edge draw token) with
        | some c => some ({ s with lastMatch := m, backend := c.backend }, true)
        | none => some ({ s with lastMatch := m }, false) := by
  obtain ⟨m, hm⟩ := runBranches_map (winBranch lockHeader)
    (wins edge draw token) (fun c hc m => eval_winCondition (h.withMatch m) hc) s.lastMatch
  refine ⟨m, hm.trans ?_⟩
  cases l.find? (wins edge draw token) with
  | none => rfl
  | some c => rfl

end Conditions

/-! ## The first winner -/

/-- The selection picks the first contender that wins, at its position. -/
theorem firstWinner_eq_find? {request : RouteRequest} (token : Option String) {i : Nat}
    {l : List Contender}
    (hhealth : ∀ j c, l[j]? = some c → edge.healthy c.backend = healthyAt request.health (i + j)) :
    match firstWinner request token i l with
    | some (k, c) => l.find? (wins edge request.draw token) = some c
        ∧ ∃ j, k = i + j ∧ l[j]? = some c
    | none => l.find? (wins edge request.draw token) = none := by
  induction l generalizing i with
  | nil => rfl
  | cons c r ih =>
      have hwins : wins edge request.draw token c
          = (winsDraw request token c i || isPinned token c) := by
        rw [wins, winsDraw, hhealth 0 c rfl]
        rfl
      rw [firstWinner, ← hwins]
      cases hw : wins edge request.draw token c with
      | true =>
          rw [if_pos rfl]
          exact ⟨List.find?_cons_of_pos hw, 0, rfl, rfl⟩
      | false =>
          have hfind : (c :: r).find? (wins edge request.draw token)
              = r.find? (wins edge request.draw token) :=
            List.find?_cons_of_neg (by simp [hw])
          have hrest := ih (i := i + 1) (fun j d hd => by
            have := hhealth (j + 1) d (by simpa using hd)
            rwa [Nat.add_assoc, Nat.add_comm 1 j])
          rw [if_neg Bool.false_ne_true, hfind]
          revert hrest
          cases firstWinner request token (i + 1) r with
          | none => exact id
          | some w =>
              rintro ⟨hsome, j, hk, hj⟩
              exact ⟨hsome, j + 1, by omega, by simpa using hj⟩

/-- The selection is the first contender that wins, or else the fallback to the first one. -/
theorem select_eq {q : Selector} {request : RouteRequest}
    (hhealth : HealthAgrees edge request.health q.contenders) :
    ∃ c, q.contenders[(q.select request).index]? = some c
      ∧ (q.select request).name = c.name
      ∧ match q.contenders.find? (wins edge request.draw (Selection.tokenOf request.lock)) with
        | some d => d = c ∧ (q.select request).fallback = false
        | none => q.contenders.head q.nonempty = c ∧ (q.select request).fallback = true := by
  have hwinner := firstWinner_eq_find? (Selection.tokenOf request.lock) (i := 0)
    (fun j c hc => by rw [Nat.zero_add]; exact hhealth j c hc)
  have hselect : q.select request
      = match firstWinner request (Selection.tokenOf request.lock) 0 q.contenders with
        | some (i, c) => ⟨i, c.name, healthSnapshot q.contenders.length request.health, false⟩
        | none => ⟨0, (q.contenders.head q.nonempty).name,
            healthSnapshot q.contenders.length request.health, true⟩ := rfl
  rw [hselect]
  revert hwinner
  cases firstWinner request (Selection.tokenOf request.lock) 0 q.contenders with
  | none =>
      intro hfind
      refine ⟨q.contenders.head q.nonempty, ?_, rfl, ?_⟩
      · exact List.head?_eq_getElem?.symm.trans (List.head?_eq_some_head q.nonempty)
      · rw [hfind]
        exact ⟨rfl, rfl⟩
  | some w =>
      rintro ⟨hfind, j, hk, hj⟩
      refine ⟨w.2, ?_, rfl, ?_⟩
      · show q.contenders[w.1]? = some w.2
        rw [hk, Nat.zero_add, hj]
      · rw [hfind]
        exact ⟨rfl, rfl⟩

theorem healthSnapshot_of_select (q : Selector) (request : RouteRequest) :
    (q.select request).healthSnapshot = healthSnapshot q.contenders.length request.health := by
  unfold select
  split <;> rfl

/-! ## The whole program -/

/-- The edge as a request finds it: its draw, the health of the backends in the order of the
contenders, and a content of the table of priorities. -/
structure Serves (edge : Edge) (p : Selector) (content : List (String × String))
    (request : RouteRequest) : Prop where
  drawn : edge.draw = request.draw
  health : HealthAgrees edge request.health p.contenders
  table : HoldsTable edge content
  patterns : edge.patterns = EdgeLogic.patterns

/-- The fallback assigns the first backend, and reaches the fallback logic unless that is blank. -/
theorem runAll_fallbackStmts (q : Selector) (s : RequestState) :
    runAll edge s q.fallbackStmts = some { s with
      backend := (q.contenders.head q.nonempty).backend
      raw := s.raw ++ (if Text.isBlankText q.fallbackLogic then [] else [q.fallbackLogic]) } := by
  unfold fallbackStmts
  cases Text.isBlankText q.fallbackLogic with
  | true => simp [runAll, Stmt.run, Expr.eval, Place.assign, LogicValue.asText]
  | false => simp [runAll, Stmt.run, Expr.eval, Place.assign, LogicValue.asText]

/-- The chain of conditions with its fallback assigns the backend of the selection, and reaches the
fallback logic when the selection is a fallback. -/
theorem run_choose {q : Selector} {request : RouteRequest} {s : RequestState}
    (hhealth : HealthAgrees edge request.health q.contenders)
    (hready : ReadyToChoose edge s request.draw (Selection.tokenOf request.lock) q.lockHeader
      q.contenders) :
    ∃ s' c, (Stmt.choose (q.contenders.map (winBranch q.lockHeader)) (some q.fallbackStmts)).run
        edge s = some s'
      ∧ q.contenders[(q.select request).index]? = some c
      ∧ (q.select request).name = c.name ∧ s'.backend = c.backend
      ∧ s'.headers = s.headers
      ∧ s'.raw = s.raw ++ (if (q.select request).fallback && !Text.isBlankText q.fallbackLogic
          then [q.fallbackLogic] else []) := by
  obtain ⟨m, hbranches⟩ := runBranches_winBranch hready
  obtain ⟨c, hindex, hname, hcase⟩ := select_eq hhealth
  rw [Stmt.run, hbranches]
  revert hcase
  cases q.contenders.find? (wins edge request.draw (Selection.tokenOf request.lock)) with
  | some d =>
      rintro ⟨rfl, hfallback⟩
      refine ⟨_, d, rfl, hindex, hname, rfl, rfl, ?_⟩
      simp [hfallback]
  | none =>
      rintro ⟨rfl, hfallback⟩
      refine ⟨_, _, runAll_fallbackStmts q _, hindex, hname, rfl, rfl, ?_⟩
      rw [hfallback]
      cases Text.isBlankText q.fallbackLogic <;> rfl

/-- The state in which the chain of conditions begins, after the draw and the health of the backends
have been recorded. -/
def recorded (s : RequestState) (request : RouteRequest) (count : Nat) : RequestState :=
  ((s.setLocal drawLocal (.integer 0)).setLocal drawLocal (.integer request.draw)).setHeader
    .request healthHeader (healthSnapshot count request.health)

/-- The chain of conditions finds all that it relies on, provided that the record of the health did
not overwrite the header that names the override. -/
theorem readyToChoose_recorded {request : RouteRequest} {s : RequestState} {lockHeader : String}
    {l : List Contender} (count : Nat) (hthresholds : HoldsThresholds s.locals l)
    (hheader : RequestState.headerKey lockHeader ≠ RequestState.headerKey healthHeader)
    (hlock : s.header? .request lockHeader = request.lock)
    (hline : ∀ header, request.lock = some header → '\n' ∉ header.toList)
    (hpatterns : edge.patterns = EdgeLogic.patterns) (hkeys : ∀ c ∈ l, c.key ≠ "") :
    ReadyToChoose edge (recorded s request count) request.draw
      (Selection.tokenOf request.lock) lockHeader l where
  drawn := by simp [recorded]
  thresholds := by
    intro c hc
    have hne := (drawLocal_ne_weightLocal c).symm
    rw [recorded, RequestState.locals_setHeader, RequestState.setLocal_locals_of_ne _ hne,
      RequestState.setLocal_locals_of_ne _ hne, hthresholds c hc]
  reads := by
    have hread : (recorded s request count).header? .request lockHeader = request.lock :=
      (RequestState.header?_setHeader_of_ne _ hheader _).trans hlock
    rw [hread, Selection.subfieldText_lock]
  sees := Selection.find?_presence_eq_none_iff hline
  pattern := by
    rw [Edge.pattern?, hpatterns]
    rfl
  keys := hkeys

/-- The draw and the health of all backends are recorded before the choice is made. -/
theorem runAll_record {request : RouteRequest} {s : RequestState} {l : List Contender}
    (hdrawn : edge.draw = request.draw) (hdraw : request.draw < drawRange)
    (hhealth : HealthAgrees edge request.health l) (hnew : s.locals drawLocal = none)
    (rest : List Stmt) :
    runAll edge s (.declare drawLocal .integer
        :: .setLocal drawLocal (.random 0 (drawRange - 1))
        :: .set (.header .request healthHeader) (.concat (healthExprs l)) :: rest)
      = runAll edge (recorded s request l.length) rest := by
  have hdeclare : (Stmt.declare drawLocal .integer).run edge s
      = some (s.setLocal drawLocal (.integer 0)) := by
    simp [Stmt.run, hnew, LocalType.initial]
  have hrandom : ∀ s' : RequestState, (Expr.random 0 (drawRange - 1)).eval edge s'
      = some (.integer request.draw, s') := by
    intro s'
    have hbounds : (0 : Int) ≤ edge.draw ∧ edge.draw ≤ (drawRange : Int) - 1 := by
      rw [hdrawn]
      omega
    rw [Expr.eval, if_pos hbounds, hdrawn]
  have hset := run_setLocal (hrandom _) (s.setLocal_locals_self drawLocal (.integer 0)) rfl
  have hrecord : (Stmt.set (.header .request healthHeader) (.concat (healthExprs l))).run edge
        ((s.setLocal drawLocal (.integer 0)).setLocal drawLocal (.integer request.draw))
      = some (recorded s request l.length) := by
    rw [Stmt.run, Expr.eval, concatAll_healthExprs, healthSnapshot_eq hhealth]
    rfl
  rw [runAll_cons_of_eq hdeclare, runAll_cons_of_eq hset, runAll_cons_of_eq hrecord]

theorem runAll_choice {q : Selector} {request : RouteRequest} {s : RequestState}
    (hdrawn : edge.draw = request.draw) (hdraw : request.draw < drawRange)
    (hhealth : HealthAgrees edge request.health q.contenders)
    (hready : ReadyToChoose edge (recorded s request q.contenders.length) request.draw
      (Selection.tokenOf request.lock) q.lockHeader q.contenders)
    (hnew : s.locals drawLocal = none) :
    ∃ s' c, runAll edge s [.declare drawLocal .integer,
        .setLocal drawLocal (.random 0 (drawRange - 1)),
        .set (.header .request healthHeader) (.concat (healthExprs q.contenders)),
        .choose (q.contenders.map (winBranch q.lockHeader)) (some q.fallbackStmts)] = some s'
      ∧ q.contenders[(q.select request).index]? = some c
      ∧ (q.select request).name = c.name ∧ s'.backend = c.backend
      ∧ s'.header? .request healthHeader = some (q.select request).healthSnapshot
      ∧ s'.raw = s.raw ++ (if (q.select request).fallback && !Text.isBlankText q.fallbackLogic
          then [q.fallbackLogic] else []) := by
  obtain ⟨s', c, hrun, hindex, hname, hbackend, hheaders, hraw⟩ := run_choose hhealth hready
  refine ⟨s', c, ?_, hindex, hname, hbackend, ?_, hraw⟩
  · rw [runAll_record hdrawn hdraw hhealth hnew, runAll_cons_of_eq hrun, runAll]
  · rw [healthSnapshot_of_select, RequestState.header?, hheaders]
    exact RequestState.header?_setHeader_self _ _ _ _

theorem fallbackStmts_inForce (p : Selector) (content : List (String × String)) :
    (p.inForce content).fallbackStmts = p.fallbackStmts := by
  obtain ⟨c, r, hr⟩ := List.exists_cons_of_ne_nil p.nonempty
  have hhead : ((p.inForce content).contenders.head (p.inForce content).nonempty).backend
      = (p.contenders.head p.nonempty).backend := by
    simp only [inForce, hr, reweigh, List.head_cons]
  unfold fallbackStmts
  rw [hhead]
  rfl

/-- Only the assignments of weights depend on the weights that were compiled. -/
theorem program_eq (p : Selector) (content : List (String × String)) :
    p.program = (p.contenders.map (fun c => Stmt.declare (weightLocal c) .integer)
        ++ p.contenders.map (fun c => Stmt.setLocal (weightLocal c) (weightExpr c))
        ++ sumStmts p.contenders)
      ++ [.declare drawLocal .integer, .setLocal drawLocal (.random 0 (drawRange - 1)),
        .set (.header .request healthHeader)
          (.concat (healthExprs (p.inForce content).contenders)),
        .choose ((p.inForce content).contenders.map (winBranch p.lockHeader))
          (some (p.inForce content).fallbackStmts)] := by
  have hhealth : healthExprs (p.inForce content).contenders = healthExprs p.contenders :=
    healthExprs_reweigh _ _ _
  have hbranches : (p.inForce content).contenders.map (winBranch p.lockHeader)
      = p.contenders.map (winBranch p.lockHeader) := map_reweigh (fun _ _ _ => rfl) _ _
  rw [hhealth, hbranches, fallbackStmts_inForce]
  rfl

theorem exists_target_of_contender {targets : List Target} {weight : Target → Int64}
    {acc : Int64} {i : Nat} {c : Contender} (h : (contendersFrom weight acc targets)[i]? = some c) :
    ∃ t, targets[i]? = some t ∧ c.name = t.name ∧ c.key = t.key ∧ c.backend = t.backendRef := by
  have hmap := map_target_contendersFrom (f := fun c => (c.name, c.key, c.backend))
    (g := fun t => (t.name, t.key, t.backendRef)) (fun _ _ => rfl) weight acc targets
  have hi := congrArg (·[i]?) hmap
  simp only [List.getElem?_map, h, Option.map_some] at hi
  obtain ⟨t, ht, heq⟩ := Option.map_eq_some_iff.1 hi.symm
  simp only [Prod.mk.injEq] at heq
  exact ⟨t, ht, heq.1.symm, heq.2.1.symm, heq.2.2.symm⟩

/-- Running the program of a selector makes the selection of the selector with the weights in force:
it assigns the backend of the target that is selected, writes the health of all targets into the
header, and reaches the fallback logic exactly when the selection is a fallback. When the edge table
agrees with the compiled weights, that selector is the one the program comes from. -/
theorem run_program_select {targets : List Target} {table : WeightTable} {lockHeader : String}
    {p : Selector} (hp : ofTargets targets table lockHeader = .ok p)
    {content : List (String × String)} (hkeys : ∀ e ∈ content, Text.lower e.1 = e.1)
    (hfits : PrefixSumsFit (Shares.ofTargets targets (table.overlaid content)).weights)
    (hheader : RequestState.headerKey lockHeader ≠ RequestState.headerKey healthHeader)
    {request : RouteRequest} (hdraw : request.draw < drawRange)
    (hline : ∀ header, request.lock = some header → '\n' ∉ header.toList)
    (hedge : Serves edge p content request)
    {s : RequestState} (hnew : ∀ n, s.locals n = none)
    (hlock : s.header? .request lockHeader = request.lock) :
    ∃ q, ofTargets targets (table.overlaid content) lockHeader = .ok q
      ∧ ((∀ c ∈ p.contenders, ∀ text, content.lookup c.key = some text →
          integerOfText text = c.weight.toInt) → q = p)
      ∧ ∃ t s', targets[(q.select request).index]? = some t
        ∧ (q.select request).name = t.name
        ∧ p.program.run edge s = some s'
        ∧ s'.backend = t.backendRef
        ∧ s'.header? .request healthHeader = some (q.select request).healthSnapshot
        ∧ s'.raw = s.raw ++ (if (q.select request).fallback && !Text.isBlankText p.fallbackLogic
            then [p.fallbackLogic] else []) := by
  have hq := ofTargets_overlaid hp hkeys
  obtain ⟨hnamed, hcontenders, -, hlockHeader, -⟩ := ofTargets_eq_ok hp
  obtain ⟨-, hreweighed, -, -, -⟩ := ofTargets_eq_ok hq
  have hnd : (p.contenders.map Contender.key).Nodup := by
    rw [hcontenders, map_target_contendersFrom (g := Target.key) fun _ _ => rfl]
    exact hnamed.2
  have hkeysNe : ∀ c ∈ (p.inForce content).contenders, c.key ≠ "" := by
    intro c hc
    rw [hreweighed] at hc
    obtain ⟨i, hi⟩ := List.getElem?_of_mem hc
    obtain ⟨t, ht, -, hkey, -⟩ := exists_target_of_contender hi
    rw [hkey]
    exact hnamed.key_ne_empty (List.mem_of_getElem? ht)
  rw [← map_weightInForce hp hkeys] at hfits
  obtain ⟨L, hweights, hthresholds, hdrawNew⟩ := runAll_weights hedge.table hnd hfits hnew
  have hhealth := hedge.health.inForce content
  subst hlockHeader
  have hready := readyToChoose_recorded (s := { s with locals := L })
    (p.inForce content).contenders.length hthresholds hheader hlock hline hedge.patterns hkeysNe
  obtain ⟨s', c, hchoice, hindex, hname, hbackend, hsnapshot, hraw⟩ :=
    runAll_choice hedge.drawn hdraw hhealth hready hdrawNew
  rw [hreweighed] at hindex
  obtain ⟨t, ht, htname, -, htbackend⟩ := exists_target_of_contender hindex
  refine ⟨p.inForce content, hq, fun hagree => inForce_eq_self hp hagree, t, s', ht,
    hname.trans htname, ?_, hbackend.trans htbackend, hsnapshot, hraw⟩
  rw [Program.run, program_eq p content, runAll_append_of_eq hweights]
  exact hchoice

/-! ### A table that changes the outcome

With the compiled weights 90 and 50 the second target would win a draw of 88. The edge table has
lowered its weight to -5, so that its threshold is 85, and no target wins. -/

def blueGreen : List Target :=
  [⟨"Blue", "blue.example", "", ⟨"", []⟩, "esi;"⟩, ⟨"green", "green.example", "", ⟨"", []⟩, ""⟩]

def blueGreenTable : WeightTable := WeightTable.empty.insert "BLUE" 90

def blueGreenSelector : Selector :=
  ⟨[⟨"Blue", "blue", "F_Blue", 90, 90⟩, ⟨"green", "green", "F_green", 50, 140⟩], 50, "esi;",
    "X-Lock", by simp⟩

def blueGreenEdge : Edge where
  draw := 88
  healthy backend := backend == "F_green"
  entry _ key := [("green", "-5")].lookup key
  patterns := EdgeLogic.patterns

def unpinnedState : RequestState where
  locals _ := none
  headers _ _ := none
  url := "/pkg/act"
  backend := ""
  backendUrl := ""
  cacheable := true
  lastMatch := none
  raw := []

theorem serves_blueGreenEdge :
    Serves blueGreenEdge blueGreenSelector [("green", "-5")] ⟨88, [false, true], none⟩ where
  drawn := rfl
  health := by
    intro i c hc
    match i, hc with
    | 0, hc =>
        obtain rfl := Option.some.inj hc
        rfl
    | 1, hc =>
        obtain rfl := Option.some.inj hc
        rfl
  table := ⟨fun _ => rfl, by decide⟩
  patterns := rfl

theorem prefixSumsFit_blueGreen : PrefixSumsFit
    (Shares.ofTargets blueGreen (blueGreenTable.overlaid [("green", "-5")])).weights := by
  have hweights : (Shares.ofTargets blueGreen
      (blueGreenTable.overlaid [("green", "-5")])).weights = [90, -5] := rfl
  rw [hweights]
  intro n
  match n with
  | 0 => decide
  | 1 => decide
  | m + 2 =>
      rw [List.take_of_length_le (by simp)]
      decide

/-- The program compiled with one table, run under another, falls back. -/
theorem run_program_blueGreen :
    ofTargets blueGreen blueGreenTable "X-Lock" = .ok blueGreenSelector
      ∧ ∃ s', blueGreenSelector.program.run blueGreenEdge unpinnedState = some s'
        ∧ s'.backend = "F_Blue" ∧ s'.header? .request healthHeader = some "0 1"
        ∧ s'.raw = ["esi;"] := by
  have hp : ofTargets blueGreen blueGreenTable "X-Lock" = .ok blueGreenSelector := rfl
  have hkeys : ∀ e ∈ [("green", "-5")], Text.lower e.1 = e.1 := by decide
  have hheader : RequestState.headerKey "X-Lock" ≠ RequestState.headerKey healthHeader := by decide
  have hline : ∀ header, (none : Option String) = some header → '\n' ∉ header.toList := by simp
  obtain ⟨q, hq, -, t, s', ht, -, hrun, hbackend, hhealth, hraw⟩ :=
    run_program_select hp hkeys prefixSumsFit_blueGreen hheader (by decide) hline
      serves_blueGreenEdge (s := unpinnedState) (fun _ => rfl) rfl
  obtain rfl := Except.ok.inj (hq.symm.trans (ofTargets_overlaid hp hkeys))
  obtain rfl := Option.some.inj ht
  exact ⟨hp, s', hrun, hbackend, hhealth, hraw⟩

end EdgeRouting.Selector
