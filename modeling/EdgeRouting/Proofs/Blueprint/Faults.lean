import EdgeRouting.Proofs.Blueprint.Canonical

/-!
# The fault of a blueprint

Three things can keep a blueprint from having layers, and they can hold at once. They are looked for
in a fixed order: resources that are listed twice, dependencies that are not listed, and circles.
The first two checks go through a list and stop at the first item they object to.

A circle is only noticed when the placement is stuck. Its invariant is `Placement`: what has been
placed can be written, and what has not been placed remains in the order of the blueprint. Nothing
that can be written leads into a circle (`CanBeWritten.not_reachesCycle`), while everything that
remains does (`Remaining.reachesCycle`); so the items that remain are exactly those that lead into
one, however many layers have been placed before (`layers_fault`).
-/

namespace EdgeRouting.Blueprint

variable {b : Blueprint} {placed keys seen : List ResourceKey} {items : List Item}
  {k d : ResourceKey}

/-! ## The two checks -/

theorem firstRepeated_eq_some (h : firstRepeated seen keys = some k) :
    ∃ before after, keys = before ++ k :: after ∧ before.Nodup ∧ (∀ x ∈ before, x ∉ seen)
      ∧ (k ∈ seen ∨ k ∈ before) := by
  induction keys generalizing seen with
  | nil => cases h
  | cons a r ih =>
      rw [firstRepeated] at h
      split at h
      · next hseen =>
        obtain rfl := Option.some.inj h
        exact ⟨[], r, rfl, List.nodup_nil, by simp, .inl hseen⟩
      · next hnew =>
        obtain ⟨before, after, rfl, hnodup, hfresh, hk⟩ := ih h
        refine ⟨a :: before, after, rfl, List.nodup_cons.2 ⟨fun ha => ?_, hnodup⟩,
          List.forall_mem_cons.2 ⟨hnew, fun x hx hmem => ?_⟩, ?_⟩
        · exact hfresh a ha List.mem_cons_self
        · exact hfresh x hx (List.mem_cons_of_mem _ hmem)
        · rcases hk with hk | hk
          · rcases List.mem_cons.1 hk with rfl | hk
            · exact .inr List.mem_cons_self
            · exact .inl hk
          · exact .inr (List.mem_cons_of_mem _ hk)

theorem firstRepeated_append_cons {before after : List ResourceKey} (hnodup : before.Nodup)
    (hfresh : ∀ x ∈ before, x ∉ seen) (hk : k ∈ seen ∨ k ∈ before) :
    firstRepeated seen (before ++ k :: after) = some k := by
  induction before generalizing seen with
  | nil => rw [List.nil_append, firstRepeated, if_pos (hk.resolve_right List.not_mem_nil)]
  | cons a r ih =>
      obtain ⟨ha, hr⟩ := List.nodup_cons.1 hnodup
      obtain ⟨hnew, hrest⟩ := List.forall_mem_cons.1 hfresh
      rw [List.cons_append, firstRepeated, if_neg hnew]
      refine ih hr (fun x hx hmem => ?_) ?_
      · rcases List.mem_cons.1 hmem with rfl | hmem
        · exact ha hx
        · exact hrest x hx hmem
      · rcases hk with hk | hk
        · exact .inl (List.mem_cons_of_mem _ hk)
        · rcases List.mem_cons.1 hk with rfl | hk
          · exact .inl List.mem_cons_self
          · exact .inr hk

theorem firstMissing_eq_some (h : firstMissing keys items = some (k, d)) :
    ∃ before i after listed rest, items = before ++ i :: after ∧ i.key = k
      ∧ i.dependsOn = listed ++ d :: rest ∧ (∀ j ∈ before, ∀ e ∈ j.dependsOn, e ∈ keys)
      ∧ (∀ e ∈ listed, e ∈ keys) ∧ d ∉ keys := by
  induction items with
  | nil => cases h
  | cons i r ih =>
      rw [firstMissing] at h
      split at h
      · next d' hfind =>
        obtain ⟨rfl, rfl⟩ := Prod.mk.inj (Option.some.inj h)
        obtain ⟨hmissing, listed, rest, hdeps, hlisted⟩ := List.find?_eq_some_iff_append.1 hfind
        exact ⟨[], i, r, listed, rest, rfl, rfl, hdeps, by simp,
          fun e he => by simpa using hlisted e he, by simpa using hmissing⟩
      · next hfind =>
        obtain ⟨before, j, after, listed, rest, rfl, hrest⟩ := ih h
        refine ⟨i :: before, j, after, listed, rest, rfl, hrest.1, hrest.2.1,
          List.forall_mem_cons.2 ⟨fun e he => ?_, hrest.2.2.1⟩, hrest.2.2.2⟩
        simpa using List.find?_eq_none.1 hfind e he

theorem layers_of_not_listsOnce (h : ¬ b.ListsOnce) :
    ∃ k, b.IsFirstRepeated k ∧ b.layers = .error (.duplicate k) := by
  cases hfirst : firstRepeated [] (b.items.map Item.key) with
  | none => exact absurd (firstRepeated_keys_eq_none_iff.1 hfirst) h
  | some k =>
      obtain ⟨before, after, hkeys, hnodup, -, hk⟩ := firstRepeated_eq_some hfirst
      refine ⟨k, ⟨before, after, hkeys, hnodup, hk.resolve_left List.not_mem_nil⟩, ?_⟩
      rw [Blueprint.layers]
      simp only [hfirst]

theorem IsFirstRepeated.layers_eq (h : b.IsFirstRepeated k) :
    b.layers = .error (.duplicate k) := by
  obtain ⟨before, after, hkeys, hnodup, hk⟩ := h
  have hfirst : firstRepeated [] (before ++ k :: after) = some k :=
    firstRepeated_append_cons hnodup (fun _ _ => List.not_mem_nil) (.inr hk)
  rw [Blueprint.layers]
  simp only [hkeys, hfirst]

theorem layers_of_not_isClosed (honce : b.ListsOnce) (h : ¬ b.IsClosed) :
    ∃ k d, b.IsFirstMissing k d ∧ b.layers = .error (.missingDependency k d) := by
  cases hmissing : firstMissing (b.items.map Item.key) b.items with
  | none => exact absurd (firstMissing_eq_none_iff.1 hmissing) h
  | some p =>
      obtain ⟨k, d⟩ := p
      refine ⟨k, d, firstMissing_eq_some hmissing, ?_⟩
      rw [Blueprint.layers]
      simp only [firstRepeated_keys_eq_none_iff.2 honce, hmissing]

/-! ## What can be written -/

theorem ReachesCycle.exists_dependsOn (h : b.ReachesCycle k) :
    ∃ d, b.DependsOn k d ∧ b.ReachesCycle d := by
  rcases h with hcycle | ⟨e, hneeds, hcycle⟩
  · cases hcycle with
    | direct hdep => exact ⟨k, hdep, .inl (.direct hdep)⟩
    | later hdep hback => exact ⟨_, hdep, .inl (hback.trans (.direct hdep))⟩
  · cases hneeds with
    | direct hdep => exact ⟨e, hdep, .inl hcycle⟩
    | later hdep hneeds => exact ⟨_, hdep, .inr ⟨e, hneeds, hcycle⟩⟩

theorem CanBeWritten.not_reachesCycle (h : b.CanBeWritten k) : ¬ b.ReachesCycle k := by
  induction h with
  | intro _ _ ih =>
      intro hcycle
      obtain ⟨d, hdep, hd⟩ := hcycle.exists_dependsOn
      exact ih d hdep hd

/-- What leads somewhere is listed. -/
theorem ReachesCycle.mem_keys (h : b.ReachesCycle k) : k ∈ b.items.map Item.key := by
  obtain ⟨d, ⟨i, hi, rfl, -⟩, -⟩ := h.exists_dependsOn
  exact List.mem_map_of_mem hi

/-! ## The placement -/

/-- How far a placement has come. -/
structure Placement (b : Blueprint) (placed : List ResourceKey) (items : List Item) : Prop
    extends Remaining b placed items where
  order : items.Sublist b.items
  written : ∀ k ∈ placed, b.CanBeWritten k
  covers : ∀ i ∈ b.items, i.key ∈ placed ∨ i ∈ items

theorem placement_items (h : b.IsClosed) : Placement b [] b.items where
  toRemaining := remaining_items h
  order := List.Sublist.refl _
  written _ hk := absurd hk List.not_mem_nil
  covers _ hi := .inr hi

/-- The placement of a layer. What an item of it depends on has been placed, and there is no other
item with its key that could depend on anything else. -/
theorem Placement.next (h : Placement b placed items) (honce : b.ListsOnce) :
    Placement b (placed ++ (ready placed items).map Item.key) (Blueprint.blocked placed items) where
  toRemaining := h.toRemaining.blocked
  order := List.filter_sublist.trans h.order
  written k hk := by
    rcases List.mem_append.1 hk with hk | hk
    · exact h.written k hk
    · obtain ⟨i, hi, rfl⟩ := List.mem_map.1 hk
      obtain ⟨hmem, hplaced⟩ := mem_ready_iff.1 hi
      refine .intro (List.mem_map_of_mem (h.listed i hmem)) ?_
      rintro d ⟨j, hj, hkey, hd⟩
      obtain rfl := List.inj_on_of_nodup_map honce hj (h.listed i hmem) hkey
      exact h.written d (hplaced d hd)
  covers i hi := by
    rcases h.covers i hi with hplaced | hmem
    · exact .inl (List.mem_append_left _ hplaced)
    · by_cases hready : ∀ d ∈ i.dependsOn, d ∈ placed
      · have := mem_ready_iff.2 ⟨hmem, hready⟩
        exact .inl (List.mem_append_right _ (List.mem_map_of_mem this))
      · push Not at hready
        exact .inr (mem_blocked_iff.2 ⟨hmem, hready⟩)

/-- A placement that fails has come to a point where items remain and none of them is ready. -/
theorem Placement.exists_stuck {f : Fault} (h : Placement b placed items) (honce : b.ListsOnce)
    (hfault : layersFrom placed items = .error f) :
    ∃ placed' rest, Placement b placed' rest ∧ ready placed' rest = []
      ∧ f = .cycle (rest.map Item.key) := by
  fun_induction layersFrom placed items with
  | case1 placed items hempty => cases hfault
  | case2 placed items hne hstuck =>
      have hrest : Blueprint.blocked placed items = items := by
        refine List.filter_eq_self.2 fun i hi => ?_
        have hnot : i ∉ ready placed items := by simp [hstuck]
        simpa [ready, hi] using hnot
      refine ⟨placed, items, h, hstuck, ?_⟩
      rw [← Except.error.inj hfault, hrest]
  | case3 placed items hne hready ih =>
      refine ih (h.next honce) ?_
      cases hlater : layersFrom (placed ++ (ready placed items).map Item.key)
        (Blueprint.blocked placed items) with
      | ok later =>
          rw [hlater] at hfault
          cases hfault
      | error f' =>
          rw [hlater] at hfault
          exact hfault

/-- What remains when a placement is stuck is what leads into a circle. -/
theorem Placement.mem_iff_reachesCycle (h : Placement b placed items)
    (hstuck : ready placed items = []) : k ∈ items.map Item.key ↔ b.ReachesCycle k := by
  constructor
  · intro hk
    obtain ⟨i, hi, rfl⟩ := List.mem_map.1 hk
    exact h.reachesCycle hstuck i hi
  · intro hcycle
    obtain ⟨i, hi, rfl⟩ := List.mem_map.1 hcycle.mem_keys
    rcases h.covers i hi with hplaced | hmem
    · exact absurd hcycle (h.written _ hplaced).not_reachesCycle
    · exact List.mem_map_of_mem hmem

theorem Placement.canBeWritten (h : Placement b placed items) (hk : k ∈ b.items.map Item.key)
    (hnot : k ∉ items.map Item.key) : b.CanBeWritten k := by
  obtain ⟨i, hi, rfl⟩ := List.mem_map.1 hk
  rcases h.covers i hi with hplaced | hmem
  · exact h.written _ hplaced
  · exact absurd (List.mem_map_of_mem hmem) hnot

theorem layers_of_not_acyclic (honce : b.ListsOnce) (hclosed : b.IsClosed) (h : ¬ b.Acyclic) :
    ∃ members, b.layers = .error (.cycle members) ∧ members.Sublist (b.items.map Item.key)
      ∧ members.Nodup ∧ (∀ k, k ∈ members ↔ b.ReachesCycle k)
      ∧ ∀ k ∈ b.items.map Item.key, k ∉ members → b.CanBeWritten k := by
  have hlayers : b.layers = layersFrom [] b.items := by
    rw [Blueprint.layers]
    simp only [firstRepeated_keys_eq_none_iff.2 honce, firstMissing_eq_none_iff.2 hclosed]
  cases hfrom : layersFrom [] b.items with
  | ok layers => exact absurd (layers_eq_ok_iff.1 ⟨layers, hlayers.trans hfrom⟩).2.2 h
  | error f =>
      obtain ⟨placed, rest, hplacement, hstuck, rfl⟩ :=
        (placement_items hclosed).exists_stuck honce hfrom
      have horder := hplacement.order.map Item.key
      exact ⟨rest.map Item.key, hlayers.trans hfrom, horder, honce.sublist horder,
        fun _ => hplacement.mem_iff_reachesCycle hstuck, fun _ => hplacement.canBeWritten⟩

/-- Of the faults of a blueprint the first kind that there is gets reported. A repeated resource is
the first one that has been listed before, whatever else is wrong; a missing dependency is the first
one of the first item that has any. Otherwise those resources are reported, once each and in the
order of the blueprint, from which dependencies lead into a circle, and all others can be written. -/
theorem layers_fault (b : Blueprint) :
    (¬ b.ListsOnce → ∃ k, b.IsFirstRepeated k ∧ b.layers = .error (.duplicate k))
      ∧ (b.ListsOnce → ¬ b.IsClosed →
        ∃ k d, b.IsFirstMissing k d ∧ b.layers = .error (.missingDependency k d))
      ∧ (b.ListsOnce → b.IsClosed → ¬ b.Acyclic →
        ∃ members, b.layers = .error (.cycle members) ∧ members.Sublist (b.items.map Item.key)
          ∧ members.Nodup ∧ (∀ k, k ∈ members ↔ b.ReachesCycle k)
          ∧ ∀ k ∈ b.items.map Item.key, k ∉ members → b.CanBeWritten k) :=
  ⟨layers_of_not_listsOnce, layers_of_not_isClosed, layers_of_not_acyclic⟩

/-! ### A knot behind a layer

Two tables need each other, and a third one that nothing needs leads to them. It is reported with
them; the table that only needs the condition is not. A missing dependency hides the knot, and a
repeated item hides both. -/

def knot : Blueprint :=
  ⟨[tableItem "third" [⟨.dictionary, "first"⟩],
    tableItem "first" [conditionKey, ⟨.dictionary, "second"⟩], conditionItem,
    tableItem "free" [conditionKey], tableItem "second" [⟨.dictionary, "first"⟩]]⟩

def strayKnot : Blueprint := knot.add (.dictionary ⟨"stray", false⟩) [conditionKey, ⟨.backend, "x"⟩]

def repeatedKnot : Blueprint :=
  (strayKnot.add (.dictionary ⟨"free", false⟩) []).add (.dictionary ⟨"third", false⟩) []

theorem fault_knot :
    repeatedKnot.IsFirstRepeated ⟨.dictionary, "free"⟩
      ∧ strayKnot.IsFirstMissing ⟨.dictionary, "stray"⟩ ⟨.backend, "x"⟩
      ∧ knot.layers = .error (.cycle
        [⟨.dictionary, "third"⟩, ⟨.dictionary, "first"⟩, ⟨.dictionary, "second"⟩])
      ∧ knot.ReachesCycle ⟨.dictionary, "third"⟩ ∧ knot.CanBeWritten ⟨.dictionary, "free"⟩ := by
  have hrepeated : repeatedKnot.layers = .error (.duplicate ⟨.dictionary, "free"⟩) := by
    decide +kernel
  have hmissing : strayKnot.layers
      = .error (.missingDependency ⟨.dictionary, "stray"⟩ ⟨.backend, "x"⟩) := by decide +kernel
  have hcycle : knot.layers = .error (.cycle
      [⟨.dictionary, "third"⟩, ⟨.dictionary, "first"⟩, ⟨.dictionary, "second"⟩]) := by
    decide +kernel
  have honce : knot.ListsOnce ∧ strayKnot.ListsOnce ∧ ¬ repeatedKnot.ListsOnce := by
    unfold ListsOnce
    decide
  have hclosed : knot.IsClosed ∧ ¬ strayKnot.IsClosed := by
    unfold IsClosed
    decide
  have hknot : ¬ knot.Acyclic := by
    have hback : knot.DependsOn ⟨.dictionary, "second"⟩ ⟨.dictionary, "first"⟩ := by
      unfold DependsOn
      decide
    have hforth : knot.DependsOn ⟨.dictionary, "first"⟩ ⟨.dictionary, "second"⟩ := by
      unfold DependsOn
      decide
    exact fun hacyclic => hacyclic _ (.later hforth (.direct hback))
  obtain ⟨k, hfirst, hk⟩ := (layers_fault repeatedKnot).1 honce.2.2
  obtain ⟨k', d, hstray, hk'⟩ := (layers_fault strayKnot).2.1 honce.2.1 hclosed.2
  obtain ⟨members, hlayers, -, -, hreaches, hothers⟩ :=
    (layers_fault knot).2.2 honce.1 hclosed.1 hknot
  obtain rfl := Fault.duplicate.inj (Except.error.inj (hrepeated.symm.trans hk))
  obtain ⟨rfl, rfl⟩ := Fault.missingDependency.inj (Except.error.inj (hmissing.symm.trans hk'))
  obtain rfl := Fault.cycle.inj (Except.error.inj (hcycle.symm.trans hlayers))
  exact ⟨hfirst, hstray, hcycle, (hreaches _).1 (by simp), hothers _ (by decide) (by decide)⟩

end EdgeRouting.Blueprint
