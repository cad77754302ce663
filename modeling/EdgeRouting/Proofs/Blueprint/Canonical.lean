import Mathlib.Data.Set.Finite.Basic
import Mathlib.Order.WellFounded
import EdgeRouting.Proofs.Blueprint.Layers

/-!
# The canonical layering

A blueprint has layers exactly when it can be written at all: every resource is listed once, every
dependency is listed, and no resource needs itself (`layers_eq_ok_iff`). The placement only stops
early when none of the remaining items is ready, and then they lead into a circle (`reachesCycle`), so
in an acyclic blueprint that cannot happen.

The layers are then the only ones of their kind. An item stands in the layer whose number is the
length of its longest chain of dependencies: not further up, since every step of a chain leads to an
earlier layer (`le_of_hasChain`), and not further down, since an item that was held back waits for
something in the layer directly before its own (`awaits_of_layersFrom`).
-/

namespace EdgeRouting.Blueprint

variable {b : Blueprint} {placed keys : List ResourceKey} {items : List Item}
  {layers : List (List Item)}

/-! ## Checks before the placement -/

theorem firstRepeated_eq_none_of_nodup {seen : List ResourceKey} (hnodup : keys.Nodup)
    (hseen : ∀ k ∈ keys, k ∉ seen) : firstRepeated seen keys = none := by
  induction keys generalizing seen with
  | nil => rfl
  | cons k r ih =>
      obtain ⟨hk, hr⟩ := List.nodup_cons.1 hnodup
      rw [firstRepeated, if_neg (hseen k List.mem_cons_self)]
      refine ih hr fun k' hk' hmem => ?_
      rcases List.mem_cons.1 hmem with rfl | hmem
      · exact hk hk'
      · exact hseen k' (List.mem_cons_of_mem _ hk') hmem

theorem firstRepeated_keys_eq_none_iff :
    firstRepeated [] (b.items.map Item.key) = none ↔ b.ListsOnce :=
  ⟨fun h => (firstRepeated_eq_none h).1,
    fun h => firstRepeated_eq_none_of_nodup h fun _ _ => List.not_mem_nil⟩

theorem firstMissing_eq_none_iff :
    firstMissing keys items = none ↔ ∀ i ∈ items, ∀ d ∈ i.dependsOn, d ∈ keys := by
  induction items with
  | nil => simp [firstMissing]
  | cons i r ih =>
      rw [firstMissing, List.forall_mem_cons, ← ih]
      cases h : i.dependsOn.find? fun d => !keys.contains d with
      | some d =>
          have hmissing := List.find?_some h
          have hmem := List.mem_of_find?_eq_some h
          simp only [reduceCtorEq, false_iff, not_and]
          intro hall
          simp [hall d hmem] at hmissing
      | none =>
          have hall := List.find?_eq_none.1 h
          simp only [iff_and_self]
          intro _ d hd
          simpa using hall d hd

/-! ## Progress -/

theorem Needs.trans {k d e : ResourceKey} (h : b.Needs k d) (h' : b.Needs d e) : b.Needs k e := by
  induction h with
  | direct hdep => exact .later hdep h'
  | later hdep _ ih => exact .later hdep (ih h')

theorem ReachesCycle.of_dependsOn {k d : ResourceKey} (h : b.DependsOn k d)
    (hd : b.ReachesCycle d) : b.ReachesCycle k := by
  rcases hd with hcycle | ⟨e, hneeds, hcycle⟩
  · exact .inr ⟨d, .direct h, hcycle⟩
  · exact .inr ⟨e, .later h hneeds, hcycle⟩

theorem mem_ready_iff {i : Item} :
    i ∈ ready placed items ↔ i ∈ items ∧ ∀ d ∈ i.dependsOn, d ∈ placed := by
  simp [ready, isReady]

theorem mem_blocked_iff {i : Item} :
    i ∈ blocked placed items ↔ i ∈ items ∧ ∃ d ∈ i.dependsOn, d ∉ placed := by
  simp [blocked, isReady]

/-- What remains to be placed: items of the blueprint that depend on nothing but placed items and
each other. -/
structure Remaining (b : Blueprint) (placed : List ResourceKey) (items : List Item) : Prop where
  listed : ∀ i ∈ items, i ∈ b.items
  closed : ∀ i ∈ items, ∀ d ∈ i.dependsOn, d ∈ placed ∨ d ∈ items.map Item.key

/-- When none of the remaining items is ready, each of them waits for another one of them. There are
finitely many, so wherever one begins one is led into a circle. -/
theorem Remaining.reachesCycle (h : Remaining b placed items) (hstuck : ready placed items = []) :
    ∀ i ∈ items, b.ReachesCycle i.key := by
  let r (d k : { k // k ∈ items.map Item.key ∧ ¬ b.ReachesCycle k }) : Prop := b.Needs k.1 d.1
  have : Finite { k // k ∈ items.map Item.key ∧ ¬ b.ReachesCycle k } :=
    ((items.map Item.key).finite_toSet).subset fun _ hk => hk.1
  have : IsTrans _ r := ⟨fun _ _ _ hd hk => Needs.trans hk hd⟩
  have : Std.Irrefl r := ⟨fun k hk => k.2.2 (.inl hk)⟩
  have hwf : WellFounded r := Finite.wellFounded_of_trans_of_irrefl r
  intro i hi
  by_contra hnot
  obtain ⟨⟨k, hk, hfree⟩, -, hmin⟩ :=
    hwf.has_min Set.univ ⟨⟨i.key, List.mem_map_of_mem hi, hnot⟩, trivial⟩
  obtain ⟨j, hj, rfl⟩ := List.mem_map.1 hk
  have hblocked : ¬ ∀ d ∈ j.dependsOn, d ∈ placed := fun hall =>
    List.ne_nil_of_mem (mem_ready_iff.2 ⟨hj, hall⟩) hstuck
  push Not at hblocked
  obtain ⟨d, hd, hwaits⟩ := hblocked
  have hdep : b.DependsOn j.key d := ⟨j, h.listed j hj, rfl, hd⟩
  have hmem := (h.closed j hj d hd).resolve_left hwaits
  exact hmin ⟨d, hmem, fun hcycle => hfree (.of_dependsOn hdep hcycle)⟩ trivial (.direct hdep)

theorem Remaining.exists_ready (h : Remaining b placed items) (hacyclic : b.Acyclic)
    (hne : items ≠ []) : ready placed items ≠ [] := by
  intro hstuck
  obtain ⟨i, hi⟩ := List.exists_mem_of_ne_nil _ hne
  rcases h.reachesCycle hstuck i hi with hcycle | ⟨d, -, hcycle⟩
  · exact hacyclic i.key hcycle
  · exact hacyclic d hcycle

/-- A blocked item waits for what has just become ready or for what is blocked as well. -/
theorem Remaining.blocked (h : Remaining b placed items) :
    Remaining b (placed ++ (ready placed items).map Item.key) (Blueprint.blocked placed items) where
  listed i hi := h.listed i (mem_blocked_iff.1 hi).1
  closed i hi d hd := by
    rcases h.closed i (mem_blocked_iff.1 hi).1 d hd with hplaced | hmem
    · exact .inl (List.mem_append_left _ hplaced)
    · obtain ⟨j, hj, rfl⟩ := List.mem_map.1 hmem
      by_cases hall : ∀ e ∈ j.dependsOn, e ∈ placed
      · exact .inl (List.mem_append_right _ (List.mem_map_of_mem (mem_ready_iff.2 ⟨hj, hall⟩)))
      · push Not at hall
        exact .inr (List.mem_map_of_mem (mem_blocked_iff.2 ⟨hj, hall⟩))

theorem Remaining.exists_layersFrom (h : Remaining b placed items) (hacyclic : b.Acyclic) :
    ∃ layers, layersFrom placed items = .ok layers := by
  fun_induction layersFrom placed items with
  | case1 placed items hempty => exact ⟨[], rfl⟩
  | case2 placed items hne hready =>
      exact absurd hready (h.exists_ready hacyclic fun hnil => hne (List.isEmpty_iff.2 hnil))
  | case3 placed items hne hready ih =>
      obtain ⟨later, hlater⟩ := ih h.blocked
      exact ⟨ready placed items :: later, by rw [hlater]; rfl⟩

theorem remaining_items (h : b.IsClosed) : Remaining b [] b.items where
  listed _ hi := hi
  closed i hi d hd := .inr (h i hi d hd)

/-! ## When there are layers -/

theorem layers_eq_ok_iff_layersFrom :
    b.layers = .ok layers ↔ b.ListsOnce ∧ b.IsClosed ∧ layersFrom [] b.items = .ok layers := by
  rw [← firstRepeated_keys_eq_none_iff, IsClosed, ← firstMissing_eq_none_iff, Blueprint.layers]
  cases firstRepeated [] (b.items.map Item.key) with
  | some k => simp
  | none => cases firstMissing (b.items.map Item.key) b.items <;> simp

/-- A resource that needed itself would stand in a layer before its own. -/
theorem Layering.acyclic (h : Layering b layers) : b.Acyclic := by
  intro k hneeds
  obtain ⟨i, hi, hik⟩ : ∃ i ∈ b.items, i.key = k := by
    cases hneeds with
    | direct hdep => exact hdep.imp fun _ hi => ⟨hi.1, hi.2.1⟩
    | later hdep _ => exact hdep.imp fun _ hi => ⟨hi.1, hi.2.1⟩
  obtain ⟨layer, hlayer, hmem⟩ := List.mem_flatten.1 (h.perm.mem_iff.2 hi)
  obtain ⟨before, after, hlayers⟩ := List.append_of_mem hlayer
  exact h.not_mem_earlier hlayers (hik ▸ List.mem_map_of_mem hmem)
    (h.needs_earlier hneeds hlayers hmem hik)

theorem layers_eq_ok_iff :
    (∃ layers, b.layers = .ok layers) ↔ b.ListsOnce ∧ b.IsClosed ∧ b.Acyclic := by
  constructor
  · rintro ⟨layers, h⟩
    obtain ⟨honce, hclosed, -⟩ := layers_eq_ok_iff_layersFrom.1 h
    exact ⟨honce, hclosed, (layering_of_layers h).acyclic⟩
  · rintro ⟨honce, hclosed, hacyclic⟩
    obtain ⟨layers, h⟩ := (remaining_items hclosed).exists_layersFrom hacyclic
    exact ⟨layers, layers_eq_ok_iff_layersFrom.2 ⟨honce, hclosed, h⟩⟩

/-! ## Where an item stands -/

theorem nonempty_of_layersFrom (h : layersFrom placed items = .ok layers) :
    ∀ layer ∈ layers, layer ≠ [] := by
  induction layers generalizing placed items with
  | nil => simp
  | cons layer later ih =>
      rcases layersFrom_cons h with ⟨-, hlayers⟩ | ⟨later', hready, hlayers, hlater⟩
      · cases hlayers
      · obtain ⟨rfl, rfl⟩ := List.cons.inj hlayers
        exact List.forall_mem_cons.2 ⟨hready, ih hlater⟩

theorem sublist_of_layersFrom (h : layersFrom placed items = .ok layers) :
    ∀ layer ∈ layers, layer.Sublist items := by
  induction layers generalizing placed items with
  | nil => simp
  | cons layer later ih =>
      rcases layersFrom_cons h with ⟨-, hlayers⟩ | ⟨later', -, hlayers, hlater⟩
      · cases hlayers
      · obtain ⟨rfl, rfl⟩ := List.cons.inj hlayers
        refine List.forall_mem_cons.2 ⟨List.filter_sublist, fun layer hlayer => ?_⟩
        exact (ih hlater layer hlayer).trans List.filter_sublist

/-- An item was held back for something that stands in the layer directly before its own. -/
theorem awaits_of_layersFrom {before after : List (List Item)} {previous layer : List Item}
    (h : layersFrom placed items = .ok (before ++ previous :: layer :: after)) :
    ∀ i ∈ layer, ∃ d ∈ i.dependsOn, d ∈ previous.map Item.key := by
  induction before generalizing placed items with
  | nil =>
      rcases layersFrom_cons h with ⟨-, hlayers⟩ | ⟨later, -, hlayers, hlater⟩
      · cases hlayers
      · obtain ⟨rfl, rfl⟩ := List.cons.inj hlayers
        rcases layersFrom_cons hlater with ⟨-, hlayers'⟩ | ⟨later', -, hlayers', -⟩
        · cases hlayers'
        · obtain ⟨rfl, -⟩ := List.cons.inj hlayers'
          intro i hi
          obtain ⟨hblocked, hall⟩ := mem_ready_iff.1 hi
          obtain ⟨d, hd, hnot⟩ := (mem_blocked_iff.1 hblocked).2
          exact ⟨d, hd, (List.mem_append.1 (hall d hd)).resolve_left hnot⟩
  | cons first before ih =>
      rcases layersFrom_cons h with ⟨-, hlayers⟩ | ⟨later, -, hlayers, hlater⟩
      · cases hlayers
      · obtain ⟨rfl, rfl⟩ := List.cons.inj hlayers
        exact ih hlater

/-- The layers in which every item stands as early as it can. The number of a layer is the number
of layers before it. -/
structure Canonical (b : Blueprint) (layers : List (List Item)) : Prop extends
    Layering b layers where
  nonempty : ∀ layer ∈ layers, layer ≠ []
  /-- The items of a layer keep the order of the blueprint. -/
  order : ∀ layer ∈ layers, layer.Sublist b.items
  /-- An item does not fit into the layer directly before its own. -/
  awaits : ∀ {before previous layer after}, layers = before ++ previous :: layer :: after →
    ∀ i ∈ layer, ∃ d ∈ i.dependsOn, d ∈ previous.map Item.key
  depth : ∀ {before layer after}, layers = before ++ layer :: after →
    ∀ i ∈ layer, b.IsDepth i.key before.length

/-- Each step of a chain leads to an earlier layer, so there are as many layers before an item. -/
theorem Layering.le_of_hasChain (h : Layering b layers) {k : ResourceKey} {n : Nat}
    (hchain : b.HasChain k n) {before after : List (List Item)} {layer : List Item}
    (hlayers : layers = before ++ layer :: after) {i : Item} (hi : i ∈ layer) (hk : i.key = k) :
    n ≤ before.length := by
  induction hchain generalizing before layer after i with
  | nil k => exact Nat.zero_le _
  | cons hdep _ ih =>
      obtain ⟨before', layer', between, rfl, hsplit, hmem⟩ :=
        Layering.exists_layer_before hlayers (h.dependsOn_earlier hdep hlayers hi hk)
      obtain ⟨j, hj, hjk⟩ := List.mem_map.1 hmem
      have hle := ih hsplit hj hjk
      rw [List.length_append, List.length_cons]
      omega

/-- From an item a chain leads through all layers before its own. -/
theorem hasChain_of_awaits (hmem : ∀ layer ∈ layers, ∀ i ∈ layer, i ∈ b.items)
    (hawaits : ∀ {before previous layer after}, layers = before ++ previous :: layer :: after →
      ∀ i ∈ layer, ∃ d ∈ i.dependsOn, d ∈ previous.map Item.key)
    {before after : List (List Item)} {layer : List Item}
    (hlayers : layers = before ++ layer :: after) {i : Item} (hi : i ∈ layer) :
    b.HasChain i.key before.length := by
  induction before using List.reverseRecOn generalizing layer after i with
  | nil => exact .nil _
  | append_singleton before previous ih =>
      have hsplit : layers = before ++ previous :: layer :: after := by
        rw [hlayers, List.append_assoc]
        rfl
      obtain ⟨d, hd, hmem'⟩ := hawaits hsplit i hi
      obtain ⟨j, hj, rfl⟩ := List.mem_map.1 hmem'
      have hlisted : i ∈ b.items := hmem layer (by rw [hlayers]; simp) i hi
      rw [List.length_append]
      exact .cons ⟨i, hlisted, rfl, hd⟩ (ih hsplit hj)

theorem canonical_of_layers (h : b.layers = .ok layers) : Canonical b layers := by
  have hlayering := layering_of_layers h
  have hfrom := (layers_eq_ok_iff_layersFrom.1 h).2.2
  have hsublist := sublist_of_layersFrom hfrom
  have hawaits : ∀ {before previous layer after}, layers = before ++ previous :: layer :: after →
      ∀ i ∈ layer, ∃ d ∈ i.dependsOn, d ∈ previous.map Item.key := by
    rintro before previous layer after rfl
    exact awaits_of_layersFrom hfrom
  refine { hlayering with
    nonempty := nonempty_of_layersFrom hfrom, order := hsublist, awaits := hawaits, depth := ?_ }
  intro before layer after hlayers i hi
  refine ⟨hasChain_of_awaits (fun layer hlayer i hi => (hsublist layer hlayer).mem hi) hawaits
    hlayers hi, fun n hchain => hlayering.le_of_hasChain hchain hlayers hi rfl⟩

/-- A blueprint has layers exactly when every resource is listed once, every dependency is listed
and none runs in a circle; they are then the canonical ones. -/
theorem layers_canonical (b : Blueprint) :
    ((∃ layers, b.layers = .ok layers) ↔ b.ListsOnce ∧ b.IsClosed ∧ b.Acyclic)
      ∧ ∀ layers, b.layers = .ok layers → Canonical b layers :=
  ⟨layers_eq_ok_iff, fun _ => canonical_of_layers⟩

/-! ### Two ways to the same resource

The last table needs the condition along two chains of the same length. It is listed first, and the
two tables between keep the order in which they are listed. -/

def tableItem (name : String) (dependsOn : List ResourceKey) : Item :=
  ⟨.dictionary ⟨name, false⟩, dependsOn⟩

def conditionItem : Item := ⟨.condition .never, []⟩

def rightItem : Item := tableItem "right" [conditionKey]

def leftItem : Item := tableItem "left" [conditionKey]

def lastItem : Item := tableItem "last" [leftItem.key, rightItem.key]

def diamond : Blueprint := ⟨[lastItem, rightItem, leftItem, conditionItem]⟩

def diamondLayers : List (List Item) := [[conditionItem], [rightItem, leftItem], [lastItem]]

theorem isDepth_diamond :
    diamond.layers = .ok diamondLayers ∧ diamond.IsDepth lastItem.key 2 := by
  have hlayers : diamond.layers = .ok diamondLayers := by decide +kernel
  have hcanonical := (layers_canonical diamond).2 diamondLayers hlayers
  have hsplit : diamondLayers = [[conditionItem], [rightItem, leftItem]] ++ [lastItem] :: [] := rfl
  exact ⟨hlayers, hcanonical.depth hsplit lastItem (by simp)⟩

end EdgeRouting.Blueprint
