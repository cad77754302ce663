import EdgeRouting.EdgeLogic
import EdgeRouting.Proofs.Logic.Run
import EdgeRouting.Proofs.Names
import EdgeRouting.Proofs.Outbound.PathPattern

/-!
# The program of the outbound URLs makes the same URLs

A run of `Outbound.program` has three stages. First every local of a field is declared and emptied,
which makes them hold the fields of the path that is none. Then the path pattern is matched: where
it matches, the locals get the groups and after them the version behind each divider. The invariant
of both stages is `HoldsPath`, that the locals hold the fields of an inbound path; behind the second
it is the path of the URL. Last, the chain of conditions on the backend assembles the URL of the one
route that has that backend.
-/

namespace EdgeRouting.Outbound

open Logic

variable {edge : Edge}

/-! ## The locals of the fields -/

/-- The local of every field of a request holds what the field is in a path. -/
def HoldsPath (locals : String → Option LogicValue) (path : InboundPath) : Prop :=
  ∀ f ∈ Placeholder.ofRequest, locals f.name = some (.text (path.value f))

theorem nodup_names : (Placeholder.ofRequest.map Placeholder.name).Nodup := by decide

theorem runAll_emptyFields (edge : Edge) {s : RequestState}
    (hnew : ∀ f ∈ Placeholder.ofRequest, s.locals f.name = none) :
    ∃ L, runAll edge s (Placeholder.ofRequest.map (fun f => Stmt.declare f.name .text)
        ++ Placeholder.ofRequest.map (fun f => setField f (.text "")))
        = some { s with locals := L }
      ∧ HoldsPath L InboundPath.empty := by
  obtain ⟨L₁, hrun₁, hin₁, -⟩ := runAll_declare edge (s := s) .text nodup_names hnew
  obtain ⟨L₂, hrun₂, hin₂, -⟩ := runAll_setLocals edge Placeholder.name (fun _ => .text "")
    (fun _ => .text "") (s := { s with locals := L₁ }) nodup_names
    (fun _ _ _ _ => rfl) (fun f hf => ⟨_, hin₁ f hf, rfl⟩)
  refine ⟨L₂, ?_, ?_⟩
  · rw [runAll_append_of_eq hrun₁]
    exact hrun₂
  · intro f hf
    rw [hin₂ f hf]
    cases f <;> rfl

/-! ## The groups of the match -/

/-- The fields that are groups of the match. -/
def groupFields : List (Placeholder × Nat) :=
  [(.package, 1), (.action, 2), (.version, 3), (.rest, 4)]

/-- The fields that are the version behind another divider. -/
def versionFields : List (Placeholder × Char) :=
  [(.underscoreVersion, '_'), (.atVersion, '@'), (.slashVersion, '/')]

theorem readFields_eq : readFields
    = groupFields.map (fun g => Stmt.setLocal g.1.name (.group g.2))
      ++ versionFields.map (fun v => Stmt.setLocal v.1.name
        (.replaceFirst (.localVar Placeholder.version.name) dividerPattern.text
          (String.singleton v.2))) := rfl

theorem mem_ofRequest_iff {f : Placeholder} : f ∈ Placeholder.ofRequest
    ↔ f ∈ groupFields.map Prod.fst ∨ f ∈ versionFields.map Prod.fst := by
  cases f <;> decide

theorem versionName_not_mem_groupNames {v : Placeholder × Char} (hv : v ∈ versionFields) :
    v.1.name ∉ groupFields.map fun g => g.1.name := by
  revert v
  decide

theorem groupName_not_mem_versionNames {g : Placeholder × Nat} (hg : g ∈ groupFields) :
    g.1.name ∉ versionFields.map fun v => v.1.name := by
  revert g
  decide

theorem value_of_mem_groupFields (c : PathCut) {g : Placeholder × Nat} (hg : g ∈ groupFields) :
    (InboundPath.ofCut c).value g.1 = (matchOfCut c).group g.2 := by
  obtain ⟨hpackage, haction, hversion, hrest⟩ := group_matchOfCut c
  simp only [groupFields, List.mem_cons, List.not_mem_nil, or_false] at hg
  rcases hg with rfl | rfl | rfl | rfl
  · exact hpackage.symm
  · exact haction.symm
  · exact hversion.symm
  · exact hrest.symm

theorem value_of_mem_versionFields (c : PathCut) {v : Placeholder × Char}
    (hv : v ∈ versionFields) :
    (InboundPath.ofCut c).value v.1 = String.ofList (PathCut.withDivider v.2 c.version) := by
  simp only [versionFields, List.mem_cons, List.not_mem_nil, or_false] at hv
  rcases hv with rfl | rfl | rfl <;> rfl

/-- Behind a match the locals get the fields of the cut that the match is. The version is in its
local before it is brought behind the other dividers. -/
theorem runAll_readFields {s : RequestState} {c : PathCut} {path : InboundPath}
    (hheld : HoldsPath s.locals path) (hmatch : s.lastMatch = some (matchOfCut c))
    (hversion : PathCut.IsVersion c.version)
    (hdivider : edge.pattern? dividerPattern.text = some dividerPattern) :
    ∃ L, runAll edge s readFields = some { s with locals := L }
      ∧ HoldsPath L (InboundPath.ofCut c) := by
  obtain ⟨L₁, hrun₁, hin₁, hout₁⟩ := runAll_setLocals edge (s := s)
    (fun g : Placeholder × Nat => g.1.name) (fun g => .group g.2)
    (fun g => .text ((InboundPath.ofCut c).value g.1)) (by decide)
    (fun g hg L _ => by rw [Expr.eval, hmatch, value_of_mem_groupFields c hg]; rfl)
    (fun g hg => ⟨_, hheld g.1 (mem_ofRequest_iff.2 (.inl (List.mem_map_of_mem hg))), rfl⟩)
  have hversionLocal : L₁ Placeholder.version.name = some (.text (String.ofList c.version)) :=
    hin₁ (.version, 3) (by decide)
  obtain ⟨L₂, hrun₂, hin₂, hout₂⟩ := runAll_setLocals edge
    (s := { s with locals := L₁ }) (fun v : Placeholder × Char => v.1.name)
    (fun v => .replaceFirst (.localVar Placeholder.version.name) dividerPattern.text
      (String.singleton v.2))
    (fun v => .text ((InboundPath.ofCut c).value v.1)) (by decide)
    (fun v hv L hL => by
      have hreplaced := replaceFirst_dividerPattern hversion v.2
      rw [value_of_mem_versionFields c hv, ← hreplaced]
      exact eval_replaceFirst _ (eval_localVar (s := { s with locals := L })
        ((hL _ (by decide)).trans hversionLocal)) hdivider)
    (fun v hv => ⟨_, (hout₁ _ (versionName_not_mem_groupNames hv)).trans
      (hheld v.1 (mem_ofRequest_iff.2 (.inr (List.mem_map_of_mem hv)))), rfl⟩)
  refine ⟨L₂, ?_, ?_⟩
  · rw [readFields_eq, runAll_append_of_eq hrun₁]
    exact hrun₂
  · intro f hf
    rcases mem_ofRequest_iff.1 hf with hf | hf
    · obtain ⟨g, hg, rfl⟩ := List.mem_map.1 hf
      rw [hout₂ _ (groupName_not_mem_versionNames hg)]
      exact hin₁ g hg
    · obtain ⟨v, hv, rfl⟩ := List.mem_map.1 hf
      exact hin₂ v hv

/-- The texts of the two patterns denote these patterns at the edge. -/
structure KnowsPatterns (edge : Edge) : Prop where
  path : edge.pattern? pathPattern.text = some pathPattern
  divider : edge.pattern? dividerPattern.text = some dividerPattern

theorem knowsPatterns_of_patterns (h : edge.patterns = EdgeLogic.patterns) :
    KnowsPatterns edge := by
  constructor
  · rw [Edge.pattern?, h]
    rfl
  · rw [Edge.pattern?, h]
    rfl

/-- The second stage makes the locals hold the fields of the path of the URL. -/
theorem run_matchPath {s : RequestState} (hknows : KnowsPatterns edge)
    (hheld : HoldsPath s.locals InboundPath.empty) :
    ∃ L m, (Stmt.choose [(.isMatch (.builtin .requestUrl) pathPattern.text false, readFields)]
        none).run edge s = some { s with locals := L, lastMatch := m }
      ∧ HoldsPath L (InboundPath.ofUrl s.url) := by
  have heval := eval_isMatch (s := s) (e := .builtin .requestUrl) (v := .text s.url) false rfl
    hknows.path
  rw [LogicValue.asText, find?_pathPattern] at heval
  unfold InboundPath.ofUrl
  cases hcut : PathCut.ofPath? s.url.toList with
  | none =>
      rw [hcut] at heval
      refine ⟨s.locals, s.lastMatch, ?_, hheld⟩
      rw [Stmt.run, runBranches, heval]
      rfl
  | some c =>
      rw [hcut] at heval
      obtain ⟨L, hrun, hpath⟩ := runAll_readFields
        (s := { s with lastMatch := some (matchOfCut c) }) hheld rfl (isVersion_of_ofPath? hcut)
        hknows.divider
      refine ⟨L, some (matchOfCut c), ?_, hpath⟩
      rw [Stmt.run, runBranches, heval]
      show ((runAll edge { s with lastMatch := some (matchOfCut c) } readFields).bind _).bind _ = _
      rw [hrun]
      rfl

/-! ## The URL of a route -/

theorem eval_partExpr {s : RequestState} {path : InboundPath} (r : Outbound.Route)
    (hheld : HoldsPath s.locals path) (p : Template.Part) :
    (partExpr r.basePath p).eval edge s
      = some (.text (Template.expandParts (r.value path) [p]), s) := by
  cases p with
  | literal t => simp [partExpr, Expr.eval, Template.expandParts]
  | field f =>
      have hvalue : Template.expandParts (r.value path) [.field f] = r.value path f := by
        simp [Template.expandParts]
      rw [hvalue]
      cases f with
      | basePath => rfl
      | _ => exact eval_localVar (hheld _ (by decide))

theorem concatAll_parts {s : RequestState} {path : InboundPath} (r : Outbound.Route)
    (hheld : HoldsPath s.locals path) (parts : List Template.Part) :
    concatAll edge s (parts.map (partExpr r.basePath))
      = some (Template.expandParts (r.value path) parts, s) := by
  induction parts with
  | nil => rfl
  | cons p rest ih =>
      have hexpand : Template.expandParts (r.value path) (p :: rest)
          = Template.expandParts (r.value path) [p] ++ Template.expandParts (r.value path) rest :=
        Template.expandParts_append _ [p] rest
      rw [List.map_cons, concatAll, eval_partExpr r hheld p, hexpand]
      show (concatAll edge s (rest.map (partExpr r.basePath))).bind _ = _
      rw [ih]
      rfl

theorem eval_urlExpr (edge : Edge) {s : RequestState} {path : InboundPath} (r : Outbound.Route)
    (hheld : HoldsPath s.locals path) :
    (urlExpr r).eval edge s = some (.text (r.url path), s) := by
  rw [urlExpr, Expr.eval, concatAll_parts r hheld]
  rfl

/-- The third stage sets the URL of the first route that has the backend of the request. -/
theorem run_routeBranches (edge : Edge) {s : RequestState} {path : InboundPath}
    (routes : List Outbound.Route) (hheld : HoldsPath s.locals path) :
    ∃ m, (Stmt.choose (routes.map routeBranch) none).run edge s = some { s with
      lastMatch := m
      backendUrl := match routes.find? fun r => s.backend = r.backend with
        | some r => r.url path
        | none => s.backendUrl } := by
  obtain ⟨m, hm⟩ := runBranches_map (s := s) routeBranch (fun r => s.backend = r.backend)
    (fun r (_ : r ∈ routes) m => ⟨m, by rfl⟩) s.lastMatch
  refine ⟨m, ?_⟩
  rw [Stmt.run, show runBranches edge s (routes.map routeBranch) = _ from hm]
  cases routes.find? fun r => s.backend = r.backend with
  | none => rfl
  | some r =>
      have hset : runAll edge { s with lastMatch := m } (routeBranch r).2
          = some { s with lastMatch := m, backendUrl := r.url path } := by
        have heval := eval_urlExpr edge (s := { s with lastMatch := m }) r hheld
        rw [routeBranch, runAll, Stmt.run, heval]
        rfl
      simp only [hset]
      rfl

/-! ## The routes of targets -/

theorem ofTargets_eq_ok {targets : List Target} {o : Outbound} (h : ofTargets targets = .ok o) :
    WellNamed targets ∧ o.routes = targets.map Route.ofTarget := by
  unfold ofTargets at h
  split at h
  · cases h
  · cases hnames : verifyNames targets with
    | error e => rw [hnames] at h; cases h
    | ok u =>
        rw [hnames] at h
        obtain rfl := Except.ok.inj h
        exact ⟨verifyNames_eq_ok_iff.1 hnames, rfl⟩

theorem find?_eq_some_of_unique {α : Type} {p : α → Bool} {l : List α} {a : α} (ha : a ∈ l)
    (hp : p a = true) (hunique : ∀ b ∈ l, p b = true → b = a) : l.find? p = some a := by
  cases hfind : l.find? p with
  | none => exact absurd hp (List.find?_eq_none.1 hfind a ha)
  | some b => rw [hunique b (List.mem_of_find?_eq_some hfind) (List.find?_some hfind)]

/-- Every route is found by its name and by its backend. -/
theorem find?_route {targets : List Target} {o : Outbound} (h : ofTargets targets = .ok o)
    {r : Outbound.Route} (hr : r ∈ o.routes) :
    o.route? r.name = some r
      ∧ o.routes.find? (fun r' => r.backend = r'.backend) = some r := by
  obtain ⟨hnamed, hroutes⟩ := ofTargets_eq_ok h
  have hr' := hr
  rw [hroutes] at hr'
  obtain ⟨t, ht, rfl⟩ := List.mem_map.1 hr'
  refine ⟨find?_eq_some_of_unique hr (by simp) ?_, find?_eq_some_of_unique hr (by simp) ?_⟩
  · intro r' hmem hname
    rw [hroutes] at hmem
    obtain ⟨u, hu, rfl⟩ := List.mem_map.1 hmem
    rw [hnamed.eq_of_name_eq hu ht (eq_of_beq hname)]
  · intro r' hmem hbackend
    rw [hroutes] at hmem
    obtain ⟨u, hu, rfl⟩ := List.mem_map.1 hmem
    rw [hnamed.eq_of_backendRef_eq hu ht (of_decide_eq_true hbackend).symm]

/-! ## The whole program -/

/-- The URL that the program sets, and all else that it changes. -/
theorem run_program {o : Outbound} {s : RequestState} (hknows : KnowsPatterns edge)
    (hnew : ∀ f ∈ Placeholder.ofRequest, s.locals f.name = none) :
    ∃ L m, o.program.run edge s = some { s with
      locals := L
      lastMatch := m
      backendUrl := match o.routes.find? fun r => s.backend = r.backend with
        | some r => r.url (InboundPath.ofUrl s.url)
        | none => s.backendUrl } := by
  obtain ⟨L₁, hempty, hheld₁⟩ := runAll_emptyFields edge hnew
  obtain ⟨L₂, m₂, hpath, hheld₂⟩ := run_matchPath (s := { s with locals := L₁ }) hknows hheld₁
  obtain ⟨m₃, hroutes⟩ := run_routeBranches edge o.routes
    (s := { s with locals := L₂, lastMatch := m₂ }) hheld₂
  refine ⟨L₂, m₃, ?_⟩
  rw [Program.run, program, runAll_append_of_eq hempty, runAll_cons_of_eq hpath,
    runAll_cons_of_eq hroutes]
  rfl

/-- The program sets the URL that is made for the name of the route whose backend has been selected,
whatever the form of the inbound URL. With another backend it leaves the URL as it is, and for
another name no URL is made. -/
theorem run_program_url? {targets : List Target} {o : Outbound} (h : ofTargets targets = .ok o)
    {s : RequestState} (hknows : KnowsPatterns edge)
    (hnew : ∀ f ∈ Placeholder.ofRequest, s.locals f.name = none) :
    ∃ L m url, o.program.run edge s
        = some { s with locals := L, lastMatch := m, backendUrl := url }
      ∧ (∀ r ∈ o.routes, s.backend = r.backend → o.url? r.name s.url = some url)
      ∧ ((∀ r ∈ o.routes, s.backend ≠ r.backend) → url = s.backendUrl)
      ∧ ∀ name, (∀ r ∈ o.routes, r.name ≠ name) → o.url? name s.url = none := by
  obtain ⟨L, m, hrun⟩ := run_program (o := o) hknows hnew
  refine ⟨L, m, _, hrun, ?_, ?_, ?_⟩
  · intro r hr hbackend
    obtain ⟨hname, hfind⟩ := find?_route h hr
    rw [url?, hname, hbackend, hfind]
    rfl
  · intro hother
    have hnone : o.routes.find? (fun r => s.backend = r.backend) = none :=
      List.find?_eq_none.2 fun r hr heq => hother r hr (of_decide_eq_true heq)
    rw [hnone]
  · intro name hother
    have hnone : o.route? name = none :=
      List.find?_eq_none.2 fun r hr heq => hother r hr (eq_of_beq heq)
    rw [url?, hnone]
    rfl

/-! ### A version behind another divider -/

def storeAndCache : List Target :=
  [⟨"store", "store.example", "/v2",
      ⟨"", [.field .basePath, .literal "/", .field .package, .field .slashVersion, .field .rest]⟩,
      ""⟩,
    ⟨"cache", "cache.example", "", ⟨"", [.field .rest]⟩, ""⟩]

def storeAndCacheOutbound : Outbound := ⟨storeAndCache.map Route.ofTarget⟩

def patternEdge : Edge where
  draw := 0
  healthy _ := true
  entry _ _ := none
  patterns := EdgeLogic.patterns

def selectedState (backend : String) : RequestState where
  locals _ := none
  headers _ _ := none
  url := "/pkg/act@1.0/index"
  backend := backend
  backendUrl := "/pkg/act@1.0/index"
  cacheable := true
  lastMatch := none
  raw := []

/-- The version of the inbound URL goes behind a slash. -/
theorem run_program_storeAndCache :
    ofTargets storeAndCache = .ok storeAndCacheOutbound
      ∧ ∃ s', storeAndCacheOutbound.program.run patternEdge (selectedState "F_store") = some s'
        ∧ s'.backendUrl = "/v2/pkg/1.0/index" := by
  have h : ofTargets storeAndCache = .ok storeAndCacheOutbound := rfl
  have hknows : KnowsPatterns patternEdge := knowsPatterns_of_patterns rfl
  obtain ⟨L, m, url, hrun, hurl, -⟩ := run_program_url? (s := selectedState "F_store") h hknows
    (fun _ _ => rfl)
  have hstore : storeAndCacheOutbound.url? "store" "/pkg/act@1.0/index"
      = some "/v2/pkg/1.0/index" := by decide
  have hset := hurl (Route.ofTarget storeAndCache[0]) List.mem_cons_self rfl
  exact ⟨h, _, hrun, Option.some.inj (hset.symm.trans hstore)⟩

end EdgeRouting.Outbound
