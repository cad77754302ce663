import EdgeRouting.Proofs.Blueprint.Faults

/-!
# The stages of a routing set

The blueprint of a routing set is layered in three stages (`layers_ofTargets`): what stands on its
own, then the backends, then the logic. All it takes is that no name of a target and no name of a
fragment occurs twice, because then no resource is listed twice. The stages need no other condition.
The dependencies of a stage are in the stages before it, and each resource of a later stage waits
for one of the stage directly before it (`layersFrom_append`).

A name of a target that repeats makes two resources repeat, and the health check is the one that is
found, as health checks come before backends (`IsFirstNamesake.isFirstRepeated`).
-/

namespace EdgeRouting.Blueprint

variable {placed : List ResourceKey} {first rest : List Item}

/-! ## Placing a stretch of items -/

/-- Items that are ready stand in front of items that all have to wait for one of them. An empty
stretch makes no layer. -/
theorem layersFrom_append (hready : ∀ i ∈ first, ∀ d ∈ i.dependsOn, d ∈ placed)
    (hwaits : first ≠ [] → ∀ i ∈ rest, ∃ d ∈ i.dependsOn, d ∉ placed) :
    layersFrom placed (first ++ rest) =
      layersFrom (placed ++ first.map Item.key) rest >>= fun later =>
        .ok ([first].filter (!·.isEmpty) ++ later) := by
  cases hfirst : first with
  | nil =>
      rw [List.map_nil, List.append_nil, List.nil_append]
      cases layersFrom placed rest <;> rfl
  | cons i r =>
      rw [← hfirst]
      have hne : first ≠ [] := by simp [hfirst]
      have hyes : ∀ i ∈ first, isReady placed i = true := by
        intro i hi
        refine List.all_eq_true.2 fun d hd => ?_
        exact List.contains_iff_mem.2 (hready i hi d hd)
      have hno : ∀ i ∈ rest, ¬ isReady placed i = true := by
        intro i hi hall
        obtain ⟨d, hd, hnot⟩ := hwaits hne i hi
        exact hnot (List.contains_iff_mem.1 (List.all_eq_true.1 hall d hd))
      have hreadies : ready placed (first ++ rest) = first := by
        rw [ready, List.filter_append, List.filter_eq_self.2 hyes, List.filter_eq_nil_iff.2 hno,
          List.append_nil]
      have hblocked : blocked placed (first ++ rest) = rest := by
        rw [blocked, List.filter_append, List.filter_eq_nil_iff.2 (by simpa using hyes),
          List.filter_eq_self.2 (by simpa using hno), List.nil_append]
      have hitems : ¬ (first ++ rest).isEmpty = true := by simp [hfirst]
      rw [layersFrom, if_neg hitems, dif_neg (by rw [hreadies]; exact hne), hreadies, hblocked]
      simp [hfirst]

/-! ## The keys of a routing set -/

section Targets

variable (targets : List Target) (fragments : List Fragment) (checkPath : String)

/-- What depends on nothing: the condition, the table and the health checks. -/
def standing : List Item :=
  [⟨.condition .never, []⟩, ⟨.dictionary ⟨Selector.priorityTableName, false⟩, []⟩]
    ++ targets.map fun t => ⟨.healthCheck (.ofTarget t checkPath), []⟩

theorem ofTargets_items : (ofTargets targets fragments checkPath).items =
    standing targets checkPath
      ++ (targets.map backendItem ++ fragments.map (fragmentItem targets)) := by
  simp only [ofTargets, standing, List.append_assoc]

theorem keys_standing : (standing targets checkPath).map Item.key =
    conditionKey :: tableKey :: targets.map fun t => ⟨.healthCheck, t.healthCheckName⟩ := by
  simp only [standing, List.map_append, List.map_map]
  rfl

theorem keys_backends : (targets.map backendItem).map Item.key =
    targets.map fun t => ⟨.backend, t.name⟩ := by
  rw [List.map_map]
  rfl

theorem keys_fragments : (fragments.map (fragmentItem targets)).map Item.key =
    fragments.map fun f => ⟨.snippet, f.name⟩ := by
  rw [List.map_map]
  rfl

variable {targets fragments checkPath}

theorem kind_of_mem_standing {k : ResourceKey} (h : k ∈ (standing targets checkPath).map Item.key) :
    k.kind ≠ .backend ∧ k.kind ≠ .snippet := by
  rw [keys_standing, List.mem_cons, List.mem_cons, List.mem_map] at h
  rcases h with rfl | rfl | ⟨t, -, rfl⟩
  · exact ⟨by decide, by decide⟩
  · exact ⟨by decide, by decide⟩
  · exact ⟨by simp, by simp⟩

theorem healthCheckKey_mem_standing {t : Target} (ht : t ∈ targets) :
    ⟨.healthCheck, t.healthCheckName⟩ ∈ (standing targets checkPath).map Item.key := by
  rw [keys_standing]
  exact List.mem_cons_of_mem _ (List.mem_cons_of_mem _ (List.mem_map.2 ⟨t, ht, rfl⟩))

/-- A kind and names that differ make keys that differ. -/
theorem nodup_keys {α : Type} {l : List α} {name : α → String} (kind : ResourceKind)
    (h : (l.map name).Nodup) : (l.map fun x => (⟨kind, name x⟩ : ResourceKey)).Nodup := by
  have hmap : (l.map fun x => (⟨kind, name x⟩ : ResourceKey)) = (l.map name).map (⟨kind, ·⟩) := by
    rw [List.map_map]
    rfl
  rw [hmap]
  exact h.map fun _ _ heq => (ResourceKey.mk.inj heq).2

theorem healthCheckName_inj {t u : Target} (h : t.healthCheckName = u.healthCheckName) :
    t.name = u.name :=
  (String.append_left_inj _).1 h

theorem nodup_standing (hnames : (targets.map Target.name).Nodup) :
    ((standing targets checkPath).map Item.key).Nodup := by
  have hchecks : (targets.map Target.healthCheckName).Nodup := by
    refine List.pairwise_map.2 ((List.pairwise_map.1 hnames).imp ?_)
    exact fun hne heq => hne (healthCheckName_inj heq)
  rw [keys_standing, List.nodup_cons, List.nodup_cons]
  refine ⟨?_, ?_, nodup_keys .healthCheck hchecks⟩
  · simp [conditionKey, tableKey]
  · simp [tableKey]

theorem listsOnce_ofTargets (hnames : (targets.map Target.name).Nodup)
    (hfragments : (fragments.map Fragment.name).Nodup) :
    (ofTargets targets fragments checkPath).ListsOnce := by
  rw [ListsOnce, ofTargets_items, List.map_append, List.map_append, keys_backends, keys_fragments]
  refine List.nodup_append.2 ⟨nodup_standing hnames, List.nodup_append.2
    ⟨nodup_keys .backend hnames, nodup_keys .snippet hfragments, ?_⟩, ?_⟩
  · intro k hk k' hk' heq
    obtain ⟨t, -, rfl⟩ := List.mem_map.1 hk
    obtain ⟨f, -, rfl⟩ := List.mem_map.1 hk'
    cases (ResourceKey.mk.inj heq).1
  · intro k hk k' hk' heq
    obtain ⟨hbackend, hsnippet⟩ := kind_of_mem_standing hk
    subst heq
    rcases List.mem_append.1 hk' with hk' | hk'
    · obtain ⟨t, -, rfl⟩ := List.mem_map.1 hk'
      exact hbackend rfl
    · obtain ⟨f, -, rfl⟩ := List.mem_map.1 hk'
      exact hsnippet rfl

/-! ## The dependencies of a stage -/

theorem dependsOn_standing : ∀ i ∈ standing targets checkPath, i.dependsOn = [] := by
  intro i hi
  rcases List.mem_append.1 hi with hi | hi
  · simp only [List.mem_cons, List.not_mem_nil, or_false] at hi
    rcases hi with rfl | rfl <;> rfl
  · obtain ⟨t, -, rfl⟩ := List.mem_map.1 hi
    rfl

theorem dependsOn_backends : ∀ i ∈ targets.map backendItem, ∀ d ∈ i.dependsOn,
    d ∈ (standing targets checkPath).map Item.key := by
  intro i hi d hd
  obtain ⟨t, ht, rfl⟩ := List.mem_map.1 hi
  simp only [backendItem, List.mem_cons, List.not_mem_nil, or_false] at hd
  rcases hd with rfl | rfl
  · exact healthCheckKey_mem_standing ht
  · rw [keys_standing]
    exact List.mem_cons_self

theorem dependsOn_fragments : ∀ i ∈ fragments.map (fragmentItem targets), ∀ d ∈ i.dependsOn,
    d ∈ (standing targets checkPath).map Item.key ++ (targets.map backendItem).map Item.key := by
  intro i hi d hd
  obtain ⟨f, -, rfl⟩ := List.mem_map.1 hi
  rcases List.mem_append.1 hd with hd | hd
  · rw [keys_backends]
    exact List.mem_append_right _ hd
  · obtain rfl := List.mem_singleton.1 hd
    rw [keys_standing]
    exact List.mem_append_left _ (List.mem_cons_of_mem _ List.mem_cons_self)

theorem isClosed_ofTargets : (ofTargets targets fragments checkPath).IsClosed := by
  intro i hi d hd
  rw [ofTargets_items] at hi ⊢
  rw [List.map_append, List.map_append]
  rcases List.mem_append.1 hi with hi | hi
  · rw [dependsOn_standing i hi] at hd
    cases hd
  · rcases List.mem_append.1 hi with hi | hi
    · exact List.mem_append_left _ (dependsOn_backends i hi d hd)
    · rw [← List.append_assoc]
      exact List.mem_append_left _ (dependsOn_fragments i hi d hd)

/-- Every backend and every fragment waits for something. -/
theorem waits_of_mem {i : Item}
    (hi : i ∈ targets.map backendItem ++ fragments.map (fragmentItem targets)) :
    ∃ d ∈ i.dependsOn, d ∉ ([] : List ResourceKey) := by
  rcases List.mem_append.1 hi with hi | hi
  · obtain ⟨t, -, rfl⟩ := List.mem_map.1 hi
    exact ⟨_, List.mem_cons_self, List.not_mem_nil⟩
  · obtain ⟨f, -, rfl⟩ := List.mem_map.1 hi
    exact ⟨tableKey, List.mem_append_right _ List.mem_cons_self, List.not_mem_nil⟩

/-- A fragment waits for the backends, if there is any. -/
theorem waits_for_backend (hne : targets.map backendItem ≠ []) :
    ∀ i ∈ fragments.map (fragmentItem targets),
      ∃ d ∈ i.dependsOn, d ∉ (standing targets checkPath).map Item.key := by
  intro i hi
  obtain ⟨f, -, rfl⟩ := List.mem_map.1 hi
  obtain ⟨t, ht⟩ := List.exists_mem_of_ne_nil targets (mt List.map_eq_nil_iff.2 hne)
  refine ⟨⟨.backend, t.name⟩, List.mem_append_left _ (List.mem_map.2 ⟨t, ht, rfl⟩), ?_⟩
  exact fun hmem => (kind_of_mem_standing hmem).1 rfl

/-- The stages in which a routing set is written; without targets there are no backends to be
written. -/
theorem layers_ofTargets (hnames : (targets.map Target.name).Nodup)
    (hfragments : (fragments.map Fragment.name).Nodup) :
    (ofTargets targets fragments checkPath).layers =
      .ok ([standing targets checkPath, targets.map backendItem,
        fragments.map (fragmentItem targets)].filter (!·.isEmpty)) := by
  refine layers_eq_ok_iff_layersFrom.2
    ⟨listsOnce_ofTargets hnames hfragments, isClosed_ofTargets, ?_⟩
  have hstanding : ∀ i ∈ standing targets checkPath, ∀ d ∈ i.dependsOn, d ∈ ([] : List _) := by
    intro i hi d hd
    rw [dependsOn_standing i hi] at hd
    exact hd
  rw [ofTargets_items, layersFrom_append hstanding fun _ i hi => waits_of_mem hi, List.nil_append,
    layersFrom_append dependsOn_backends waits_for_backend,
    ← List.append_nil (fragments.map (fragmentItem targets)),
    layersFrom_append dependsOn_fragments (by simp), layersFrom]
  simp only [List.isEmpty_nil, if_true, List.append_nil]
  show Except.ok _ = _
  simp only [List.filter_cons]
  split <;> split <;> split <;> rfl

/-! ## Names that repeat -/

/-- The first target in the order of the list with a name that a target before it has. -/
def IsFirstNamesake (targets : List Target) (t : Target) : Prop :=
  ∃ before after, targets = before ++ t :: after ∧ (before.map Target.name).Nodup
    ∧ t.name ∈ before.map Target.name

theorem exists_isFirstNamesake (h : ¬ (targets.map Target.name).Nodup) :
    ∃ t, IsFirstNamesake targets t := by
  induction targets using List.reverseRecOn with
  | nil => exact absurd List.nodup_nil h
  | append_singleton l t ih =>
      by_cases hl : (l.map Target.name).Nodup
      · refine ⟨t, l, [], rfl, hl, by_contra fun hnew => h ?_⟩
        rw [List.map_append, List.map_singleton]
        exact hl.append (List.nodup_singleton _) (List.disjoint_singleton.2 hnew)
      · obtain ⟨u, before, after, rfl, hrest⟩ := ih hl
        exact ⟨u, before, after ++ [t], by simp, hrest⟩

theorem standing_append_cons (before : List Target) (t : Target) (after : List Target) :
    standing (before ++ t :: after) checkPath = standing before checkPath
      ++ ⟨.healthCheck (.ofTarget t checkPath), []⟩
        :: after.map fun u => ⟨.healthCheck (.ofTarget u checkPath), []⟩ := by
  rw [standing, standing, List.map_append, List.map_cons, List.append_assoc]

/-- Its health check is the first resource that is listed twice: nothing before it is, and its
backend comes later. -/
theorem IsFirstNamesake.isFirstRepeated {t : Target} (h : IsFirstNamesake targets t) :
    (ofTargets targets fragments checkPath).IsFirstRepeated ⟨.healthCheck, t.healthCheckName⟩ := by
  obtain ⟨before, after, rfl, hnodup, hname⟩ := h
  obtain ⟨u, hu, heq⟩ := List.mem_map.1 hname
  have hcheck : t.healthCheckName = u.healthCheckName := by
    rw [Target.healthCheckName, ← heq, ← Target.healthCheckName]
  have hlisted : ⟨.healthCheck, t.healthCheckName⟩ ∈ (standing before checkPath).map Item.key := by
    rw [hcheck]
    exact healthCheckKey_mem_standing hu
  rw [IsFirstRepeated, ofTargets_items, standing_append_cons, List.append_assoc, List.map_append]
  exact ⟨_, _, rfl, nodup_standing hnodup, hlisted⟩

/-! ## All blueprints of routing sets -/

/-- Where there is any logic only the stage of the backends can be missing. -/
theorem layers_ofTargets_of_ne_nil (hne : fragments ≠ [])
    (hfragments : (fragments.map Fragment.name).Nodup) (hnames : (targets.map Target.name).Nodup) :
    (ofTargets targets fragments checkPath).layers = .ok
      ([standing targets checkPath] ++ (if targets = [] then [] else [targets.map backendItem])
        ++ [fragments.map (fragmentItem targets)]) := by
  have hstanding : (standing targets checkPath).isEmpty = false := rfl
  have hlogic : (fragments.map (fragmentItem targets)).isEmpty = false := by simpa using hne
  rw [layers_ofTargets hnames hfragments]
  cases targets with
  | nil => simp [hstanding, hlogic]
  | cons t r => simp [hstanding, hlogic]

/-- A backend waits for the health check and the condition that it refers to. -/
theorem dependsOn_of_backend {i : Item} {s : Backend}
    (hi : i ∈ (ofTargets targets fragments checkPath).items) (hs : i.resource = .backend s) :
    i.dependsOn = [⟨.healthCheck, s.healthcheck⟩, ⟨.condition, s.requestCondition⟩] := by
  rw [ofTargets_items] at hi
  rcases List.mem_append.1 hi with hi | hi
  · have hkind := (kind_of_mem_standing (List.mem_map.2 ⟨i, hi, rfl⟩)).1
    rw [Item.key, hs] at hkind
    exact absurd rfl hkind
  · rcases List.mem_append.1 hi with hi | hi
    · obtain ⟨t, -, rfl⟩ := List.mem_map.1 hi
      cases hs
      rfl
    · obtain ⟨f, -, rfl⟩ := List.mem_map.1 hi
      cases hs

/-- With fragments of different names there are layers if and only if no name of a target repeats,
and then they are the stages. If one does, the health check of the first target with the name of an
earlier one is listed twice. -/
theorem layers_ofTargets_iff (hne : fragments ≠ [])
    (hfragments : (fragments.map Fragment.name).Nodup) (targets : List Target)
    (checkPath : String) :
    ((∃ layers, (ofTargets targets fragments checkPath).layers = .ok layers)
        ↔ (targets.map Target.name).Nodup)
      ∧ ((targets.map Target.name).Nodup →
        (ofTargets targets fragments checkPath).layers = .ok
          ([standing targets checkPath] ++ (if targets = [] then [] else [targets.map backendItem])
            ++ [fragments.map (fragmentItem targets)]))
      ∧ (¬ (targets.map Target.name).Nodup → ∃ t, IsFirstNamesake targets t
        ∧ (ofTargets targets fragments checkPath).layers
          = .error (.duplicate ⟨.healthCheck, t.healthCheckName⟩))
      ∧ ∀ i ∈ (ofTargets targets fragments checkPath).items, ∀ s, i.resource = .backend s →
        i.dependsOn = [⟨.healthCheck, s.healthcheck⟩, ⟨.condition, s.requestCondition⟩] := by
  have hrepeated : ¬ (targets.map Target.name).Nodup → ∃ t, IsFirstNamesake targets t
      ∧ (ofTargets targets fragments checkPath).layers
        = .error (.duplicate ⟨.healthCheck, t.healthCheckName⟩) := by
    intro hnames
    obtain ⟨t, ht⟩ := exists_isFirstNamesake hnames
    exact ⟨t, ht, ht.isFirstRepeated.layers_eq⟩
  refine ⟨⟨fun ⟨layers, hlayers⟩ => ?_, fun hnames => ?_⟩, ?_, hrepeated, ?_⟩
  · by_contra hnames
    obtain ⟨t, -, herror⟩ := hrepeated hnames
    rw [hlayers] at herror
    cases herror
  · exact ⟨_, layers_ofTargets_of_ne_nil hne hfragments hnames⟩
  · exact layers_ofTargets_of_ne_nil hne hfragments
  · exact fun i hi s hs => dependsOn_of_backend hi hs

/-! ### A name in two spellings, and one that repeats -/

def shops : List Target :=
  [⟨"Shop", "a.example", "", ⟨"", []⟩, ""⟩, ⟨"shop", "b.example", "", ⟨"", []⟩, ""⟩,
    ⟨"Shop", "c.example", "", ⟨"", []⟩, ""⟩]

def shopFragments : List Fragment :=
  ["backend", "missurl", "passurl", "logurl", "stashsurrogates", "restoresurrogates"].map
    fun name => ⟨name, .recv, ""⟩

theorem layers_shops :
    (ofTargets (shops.take 2) shopFragments "/").layers
        = .ok [standing (shops.take 2) "/", (shops.take 2).map backendItem,
          shopFragments.map (fragmentItem (shops.take 2))]
      ∧ (ofTargets shops shopFragments "/").layers
        = .error (.duplicate ⟨.healthCheck, "ShopCheck"⟩) := by
  have hfragments : (shopFragments.map Fragment.name).Nodup := by decide
  have htwo : ((shops.take 2).map Target.name).Nodup := by decide
  have hthree : ¬ (shops.map Target.name).Nodup := by decide
  have hne : shopFragments ≠ [] := by simp [shopFragments]
  obtain ⟨t, ⟨before, after, htargets, -, hname⟩, hlayers⟩ :=
    (layers_ofTargets_iff hne hfragments shops "/").2.2.1 hthree
  refine ⟨(layers_ofTargets_iff hne hfragments (shops.take 2) "/").2.1 htwo, ?_⟩
  rw [hlayers]
  match before, htargets with
  | [], _ => cases hname
  | [a], htargets =>
      cases htargets
      exact absurd hname (by decide)
  | [a, b], htargets =>
      cases htargets
      rfl
  | a :: b :: c :: r, htargets => simp [shops] at htargets

end Targets

end EdgeRouting.Blueprint
