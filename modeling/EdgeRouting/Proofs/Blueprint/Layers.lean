import Mathlib.Data.List.Nodup
import EdgeRouting.Blueprint.Dependency

/-!
# Layers respect dependencies

What `Blueprint.layers` promises of the layers it gives. They hold the items of the blueprint, each
once (`Layering.perm`, `Layering.nodup`), and all that an item depends on stands in the layers
before its own (`Layering.earlier`). By induction along a chain of dependencies the same holds of
all that it needs, however far away (`Layering.needs_earlier`).
-/

namespace EdgeRouting.Blueprint

/-! ## One pass of the placement -/

theorem firstRepeated_eq_none {seen keys : List ResourceKey} (h : firstRepeated seen keys = none) :
    keys.Nodup ∧ ∀ k ∈ keys, k ∉ seen := by
  induction keys generalizing seen with
  | nil => exact ⟨List.nodup_nil, by simp⟩
  | cons k r ih =>
      rw [firstRepeated] at h
      split at h
      · cases h
      · next hk =>
        obtain ⟨hnd, hseen⟩ := ih h
        refine ⟨List.nodup_cons.2 ⟨fun hmem => hseen k hmem List.mem_cons_self, hnd⟩, ?_⟩
        intro k' hk'
        rcases List.mem_cons.1 hk' with rfl | hk'
        · exact hk
        · exact fun hmem => hseen k' hk' (List.mem_cons_of_mem _ hmem)

theorem layersFrom_cons {placed : List ResourceKey} {items : List Item}
    {layers : List (List Item)} (h : layersFrom placed items = .ok layers) :
    (items = [] ∧ layers = []) ∨ ∃ later, ready placed items ≠ [] ∧ layers = ready placed items :: later
      ∧ layersFrom (placed ++ (ready placed items).map Item.key) (blocked placed items)
        = .ok later := by
  rw [layersFrom] at h
  split at h
  · next hempty =>
    exact .inl ⟨List.isEmpty_iff.1 hempty, (Except.ok.inj h).symm⟩
  · split at h
    · cases h
    · next hready =>
      cases hlater : layersFrom (placed ++ (ready placed items).map Item.key)
        (blocked placed items) with
      | error f =>
          rw [hlater] at h
          cases h
      | ok later =>
          rw [hlater] at h
          exact .inr ⟨later, hready, (Except.ok.inj h).symm, rfl⟩

theorem mem_ready {placed : List ResourceKey} {items : List Item} {i : Item}
    (h : i ∈ ready placed items) : ∀ d ∈ i.dependsOn, d ∈ placed := by
  intro d hd
  have hready := List.all_eq_true.1 (List.mem_filter.1 h).2 d hd
  exact List.contains_iff_mem.1 hready

/-- Every item is placed in some layer, and none twice. -/
theorem perm_of_layersFrom {placed : List ResourceKey} {items : List Item}
    {layers : List (List Item)} (h : layersFrom placed items = .ok layers) :
    layers.flatten.Perm items := by
  induction layers generalizing placed items with
  | nil =>
      rcases layersFrom_cons h with ⟨rfl, -⟩ | ⟨later, -, hlayers, -⟩
      · exact .refl _
      · cases hlayers
  | cons layer later ih =>
      rcases layersFrom_cons h with ⟨-, hlayers⟩ | ⟨later', -, hlayers, hlater⟩
      · cases hlayers
      · obtain ⟨rfl, rfl⟩ := List.cons.inj hlayers
        rw [List.flatten_cons]
        exact ((ih hlater).append_left _).trans (List.filter_append_perm _ _)

/-- All that an item depends on has been placed before its layer. -/
theorem earlier_of_layersFrom {placed : List ResourceKey} {items : List Item}
    {before after : List (List Item)} {layer : List Item}
    (h : layersFrom placed items = .ok (before ++ layer :: after)) :
    ∀ i ∈ layer, ∀ d ∈ i.dependsOn, d ∈ placed ++ before.flatten.map Item.key := by
  induction before generalizing placed items with
  | nil =>
      rcases layersFrom_cons h with ⟨-, hlayers⟩ | ⟨later, -, hlayers, -⟩
      · cases hlayers
      · obtain ⟨rfl, -⟩ := List.cons.inj hlayers
        intro i hi d hd
        exact List.mem_append_left _ (mem_ready hi d hd)
  | cons first before ih =>
      rcases layersFrom_cons h with ⟨-, hlayers⟩ | ⟨later, -, hlayers, hlater⟩
      · cases hlayers
      · obtain ⟨rfl, rfl⟩ := List.cons.inj hlayers
        intro i hi d hd
        have hplaced := ih hlater i hi d hd
        rwa [List.append_assoc, ← List.map_append, ← List.flatten_cons] at hplaced

/-! ## The layers of a blueprint -/

/-- Layers that hold the items of a blueprint in an order in which they can be written. -/
structure Layering (b : Blueprint) (layers : List (List Item)) : Prop where
  perm : layers.flatten.Perm b.items
  nodup : (layers.flatten.map Item.key).Nodup
  earlier : ∀ {before layer after}, layers = before ++ layer :: after →
    ∀ i ∈ layer, ∀ d ∈ i.dependsOn, d ∈ before.flatten.map Item.key

theorem layering_of_layers {b : Blueprint} {layers : List (List Item)}
    (h : b.layers = .ok layers) : Layering b layers := by
  rw [Blueprint.layers] at h
  split at h
  · cases h
  · next hrepeated =>
    split at h
    · cases h
    · have hperm := perm_of_layersFrom h
      refine ⟨hperm, ?_, ?_⟩
      · exact (hperm.map Item.key).nodup_iff.2 (firstRepeated_eq_none hrepeated).1
      · rintro before layer after rfl i hi d hd
        simpa using earlier_of_layersFrom h i hi d hd

namespace Layering

variable {b : Blueprint} {layers before after : List (List Item)} {layer : List Item} {i : Item}
  {k d : ResourceKey}

theorem eq_of_key_eq (h : Layering b layers) {j : Item} (hi : i ∈ layers.flatten)
    (hj : j ∈ b.items) (heq : i.key = j.key) : i = j :=
  List.inj_on_of_nodup_map h.nodup hi (h.perm.mem_iff.2 hj) heq

theorem dependsOn_earlier (h : Layering b layers) (hdep : b.DependsOn k d)
    (hlayers : layers = before ++ layer :: after) (hi : i ∈ layer) (hk : i.key = k) :
    d ∈ before.flatten.map Item.key := by
  obtain ⟨j, hj, hjk, hd⟩ := hdep
  have hmem : i ∈ layers.flatten := by
    rw [hlayers]
    exact List.mem_flatten.2 ⟨layer, by simp, hi⟩
  obtain rfl := h.eq_of_key_eq hmem hj (hk.trans hjk.symm)
  exact h.earlier hlayers i hi d hd

/-- What stands before a layer stands in a layer of its own. -/
theorem exists_layer_before (hlayers : layers = before ++ layer :: after)
    (hk : k ∈ before.flatten.map Item.key) :
    ∃ before' layer' between, before = before' ++ layer' :: between
      ∧ layers = before' ++ layer' :: (between ++ layer :: after) ∧ k ∈ layer'.map Item.key := by
  obtain ⟨j, hj, rfl⟩ := List.mem_map.1 hk
  obtain ⟨layer', hlayer', hj'⟩ := List.mem_flatten.1 hj
  obtain ⟨before', between, rfl⟩ := List.append_of_mem hlayer'
  refine ⟨before', layer', between, rfl, ?_, List.mem_map_of_mem hj'⟩
  rw [hlayers, List.append_assoc]
  rfl

/-- All that an item needs stands in the layers before its own. -/
theorem needs_earlier (h : Layering b layers) (hneeds : b.Needs k d)
    (hlayers : layers = before ++ layer :: after) (hi : i ∈ layer) (hk : i.key = k) :
    d ∈ before.flatten.map Item.key := by
  induction hneeds generalizing before layer after i with
  | direct hdep => exact h.dependsOn_earlier hdep hlayers hi hk
  | later hdep _ ih =>
      -- What the dependency needs stands before the layer of the dependency, which is even earlier.
      obtain ⟨before', layer', between, rfl, hsplit, hmem⟩ :=
        exists_layer_before hlayers (h.dependsOn_earlier hdep hlayers hi hk)
      obtain ⟨j, hj, hjk⟩ := List.mem_map.1 hmem
      rw [List.flatten_append, List.map_append]
      exact List.mem_append_left _ (ih hsplit hj hjk)

theorem not_mem_later (h : Layering b layers) (hlayers : layers = before ++ layer :: after)
    (hk : k ∈ layer.map Item.key) : k ∉ after.flatten.map Item.key := by
  have hnodup := h.nodup
  rw [hlayers, List.flatten_append, List.flatten_cons, List.map_append, List.map_append,
    List.nodup_append, List.nodup_append] at hnodup
  obtain ⟨-, ⟨-, -, hdisjoint⟩, -⟩ := hnodup
  exact fun hk' => hdisjoint k hk k hk' rfl

theorem not_mem_earlier (h : Layering b layers) (hlayers : layers = before ++ layer :: after)
    (hk : k ∈ layer.map Item.key) : k ∉ before.flatten.map Item.key := by
  intro hearlier
  obtain ⟨before', layer', between, -, hsplit, hmem⟩ := exists_layer_before hlayers hearlier
  refine h.not_mem_later hsplit hmem ?_
  rw [List.flatten_append, List.flatten_cons, List.map_append, List.map_append]
  exact List.mem_append_right _ (List.mem_append_left _ hk)

theorem layer_unique (h : Layering b layers) {before' after' : List (List Item)}
    {layer' : List Item} (hlayers : layers = before ++ layer :: after)
    (hlayers' : layers = before' ++ layer' :: after') (hk : k ∈ layer.map Item.key)
    (hk' : k ∈ layer'.map Item.key) : layer = layer' ∧ after = after' := by
  have hmem : ∀ {first last : List (List Item)} {l : List Item}, k ∈ l.map Item.key →
      k ∈ (first ++ l :: last).flatten.map Item.key := by
    intro first last l hl
    rw [List.flatten_append, List.flatten_cons, List.map_append, List.map_append]
    exact List.mem_append_right _ (List.mem_append_left _ hl)
  rcases List.append_eq_append_iff.1 (hlayers.symm.trans hlayers') with
    ⟨between, -, hrest⟩ | ⟨between, -, hrest⟩
  · cases between with
    | nil => exact List.cons.inj hrest
    | cons first rest =>
        obtain ⟨-, rfl⟩ := List.cons.inj hrest
        exact absurd (hmem hk') (h.not_mem_later hlayers hk)
  · cases between with
    | nil =>
        obtain ⟨rfl, rfl⟩ := List.cons.inj hrest
        exact ⟨rfl, rfl⟩
    | cons first rest =>
        obtain ⟨-, rfl⟩ := List.cons.inj hrest
        exact absurd (hmem hk) (h.not_mem_later hlayers' hk')

end Layering

end EdgeRouting.Blueprint
