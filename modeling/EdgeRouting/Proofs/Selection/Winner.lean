import EdgeRouting.Proofs.Selection.Override
import EdgeRouting.Selection.Selector

/-!
# The first winner

A selection is a search for the first contender that wins. The lemmas here say in terms of positions
what it finds: the position of the first winner (`IsFirstWinner`) if any contender wins, and the
fallback otherwise (`select_cases`). A contender can win for two reasons, and the override decides
which one counts: without an override the draw and the health (`winsAt_iff_of_no_token`), with one
the key alone (`winsAt_iff_of_token`).

Failover is the first use of this. Of two searches through one list the second accepts less, so it
cannot stop earlier, and it stops at the same place unless that place is one of those that it no
longer accepts (`select_failover`).
-/

namespace EdgeRouting.Selector

variable {p : Selector} {request : RouteRequest} {i j : Nat}

/-- The contender at this position wins. -/
def WinsAt (p : Selector) (request : RouteRequest) (i : Nat) : Prop :=
  ∃ c, p.contenders[i]? = some c ∧ (winsDraw request (Selection.tokenOf request.lock) c i
    || isPinned (Selection.tokenOf request.lock) c) = true

/-- The contender at this position wins, and none before it. -/
structure IsFirstWinner (p : Selector) (request : RouteRequest) (i : Nat) : Prop where
  wins : p.WinsAt request i
  first : ∀ j < i, ¬ p.WinsAt request j

theorem IsFirstWinner.unique (hi : p.IsFirstWinner request i) (hj : p.IsFirstWinner request j) :
    i = j :=
  Nat.le_antisymm (Nat.not_lt.1 fun h => hi.first j h hj.wins)
    (Nat.not_lt.1 fun h => hj.first i h hi.wins)

/-! ## What a selection finds -/

theorem getElem?_zero_contenders (p : Selector) :
    p.contenders[0]? = some (p.contenders.head p.nonempty) :=
  List.head?_eq_getElem?.symm.trans (List.head?_eq_some_head p.nonempty)

theorem firstWinner_eq_find?_zipIdx (token : Option String) (i : Nat) (l : List Contender) :
    firstWinner request token i l
      = ((l.zipIdx i).find? fun e => winsDraw request token e.1 e.2 || isPinned token e.1).map
          Prod.swap := by
  induction l generalizing i with
  | nil => rfl
  | cons c r ih =>
      rw [firstWinner, List.zipIdx_cons, List.find?_cons, ih]
      cases winsDraw request token c i || isPinned token c <;> rfl

theorem select_of_firstWinner_eq_some {c : Contender}
    (h : firstWinner request (Selection.tokenOf request.lock) 0 p.contenders = some (i, c)) :
    p.select request
      = ⟨i, c.name, healthSnapshot p.contenders.length request.health, false⟩ := by
  rw [Selection.tokenOf] at h
  rw [select, h]

theorem select_of_firstWinner_eq_none
    (h : firstWinner request (Selection.tokenOf request.lock) 0 p.contenders = none) :
    p.select request = ⟨0, (p.contenders.head p.nonempty).name,
      healthSnapshot p.contenders.length request.health, true⟩ := by
  rw [Selection.tokenOf] at h
  rw [select, h]

/-- A selection is that of the first winner, or the fallback when nobody wins. -/
theorem select_cases (p : Selector) (request : RouteRequest) :
    (∃ i c, p.IsFirstWinner request i ∧ p.contenders[i]? = some c
        ∧ p.select request
          = ⟨i, c.name, healthSnapshot p.contenders.length request.health, false⟩)
      ∨ (∀ i, ¬ p.WinsAt request i)
        ∧ p.select request = ⟨0, (p.contenders.head p.nonempty).name,
          healthSnapshot p.contenders.length request.health, true⟩ := by
  have hsearch : firstWinner request (Selection.tokenOf request.lock) 0 p.contenders = _ :=
    firstWinner_eq_find?_zipIdx (Selection.tokenOf request.lock) 0 p.contenders
  cases hfind : p.contenders.zipIdx.find? fun e =>
      winsDraw request (Selection.tokenOf request.lock) e.1 e.2
        || isPinned (Selection.tokenOf request.lock) e.1 with
  | none =>
      rw [hfind] at hsearch
      refine .inr ⟨?_, select_of_firstWinner_eq_none hsearch⟩
      rintro i ⟨c, hc, hwins⟩
      have hmem : (c, i) ∈ p.contenders.zipIdx := List.mem_zipIdx_iff_getElem?.2 hc
      exact List.find?_eq_none.1 hfind (c, i) hmem hwins
  | some e =>
      obtain ⟨c, i⟩ := e
      rw [hfind] at hsearch
      obtain ⟨hwins, k, hk, hat, hbefore⟩ := List.find?_eq_some_iff_getElem.1 hfind
      have hc : p.contenders[i]? = some c :=
        List.mem_zipIdx_iff_getElem?.1 (List.mem_of_find?_eq_some hfind)
      rw [List.getElem_zipIdx, Prod.mk.injEq, Nat.zero_add] at hat
      obtain ⟨-, rfl⟩ := hat
      refine .inl ⟨k, c, ⟨⟨c, hc, hwins⟩, ?_⟩, hc, select_of_firstWinner_eq_some hsearch⟩
      rintro j hj ⟨d, hd, hdwins⟩
      have hnot := hbefore j hj
      rw [List.getElem_zipIdx, Nat.zero_add] at hnot
      obtain ⟨hlt, rfl⟩ := List.getElem?_eq_some_iff.1 hd
      simp [hdwins] at hnot

theorem select_of_isFirstWinner {c : Contender} (h : p.IsFirstWinner request i)
    (hc : p.contenders[i]? = some c) :
    p.select request
      = ⟨i, c.name, healthSnapshot p.contenders.length request.health, false⟩ := by
  rcases p.select_cases request with ⟨k, d, hk, hd, hselect⟩ | ⟨hnone, -⟩
  · obtain rfl := h.unique hk
    obtain rfl := Option.some.inj (hc.symm.trans hd)
    exact hselect
  · exact absurd h.wins (hnone i)

theorem select_of_forall_not_winsAt (h : ∀ i, ¬ p.WinsAt request i) :
    p.select request = ⟨0, (p.contenders.head p.nonempty).name,
      healthSnapshot p.contenders.length request.health, true⟩ := by
  rcases p.select_cases request with ⟨k, -, hk, -⟩ | ⟨-, hselect⟩
  · exact absurd hk.wins (h k)
  · exact hselect

theorem isFirstWinner_index (h : (p.select request).fallback = false) :
    p.IsFirstWinner request (p.select request).index := by
  rcases p.select_cases request with ⟨i, c, hi, -, hselect⟩ | ⟨-, hselect⟩
  · rw [hselect]
    exact hi
  · rw [hselect] at h
    cases h

theorem isFirstWinner_iff : p.IsFirstWinner request i
    ↔ (p.select request).fallback = false ∧ (p.select request).index = i := by
  constructor
  · intro h
    obtain ⟨c, hc, -⟩ := h.wins
    rw [select_of_isFirstWinner h hc]
    exact ⟨rfl, rfl⟩
  · rintro ⟨hfallback, rfl⟩
    exact isFirstWinner_index hfallback

theorem fallback_eq_true_iff : (p.select request).fallback = true ↔ ∀ i, ¬ p.WinsAt request i := by
  constructor
  · intro h
    rcases p.select_cases request with ⟨i, c, -, -, hselect⟩ | ⟨hnone, -⟩
    · rw [hselect] at h
      cases h
    · exact hnone
  · intro h
    rw [select_of_forall_not_winsAt h]

/-- Whoever is selected stands at the position that is given, the fallback included. -/
theorem exists_contender_of_select (p : Selector) (request : RouteRequest) :
    ∃ c, p.contenders[(p.select request).index]? = some c ∧ c.name = (p.select request).name := by
  rcases p.select_cases request with ⟨i, c, -, hc, hselect⟩ | ⟨-, hselect⟩
  · rw [hselect]
    exact ⟨c, hc, rfl⟩
  · rw [hselect]
    exact ⟨p.contenders.head p.nonempty, getElem?_zero_contenders p, rfl⟩

/-! ## The two ways to win -/

theorem winsAt_iff_of_no_token (h : Selection.tokenOf request.lock = none) :
    p.WinsAt request i ↔ ∃ c, p.contenders[i]? = some c
      ∧ (request.draw : Int) ≤ c.threshold.toInt ∧ healthyAt request.health i = true := by
  simp [WinsAt, winsDraw, isPinned, h]

theorem winsAt_iff_of_token {token : String} (h : Selection.tokenOf request.lock = some token) :
    p.WinsAt request i ↔ ∃ c, p.contenders[i]? = some c ∧ c.key = token := by
  simp [WinsAt, winsDraw, isPinned, h, @eq_comm _ token]

/-! ## Failover -/

section Failover

variable {draw : Nat} {health health' : List Bool} {lock : Option String} {failed : Nat → Prop}

/-- The second health is the first one with the targets of a set marked as unhealthy; beyond the
targets it can say anything. -/
def MarksDown (p : Selector) (failed : Nat → Prop) (health health' : List Bool) : Prop :=
  ∀ i < p.contenders.length,
    healthyAt health' i = true ↔ healthyAt health i = true ∧ ¬ failed i

theorem winsAt_marked (hmarks : p.MarksDown failed health health')
    (hlock : Selection.tokenOf lock = none) :
    p.WinsAt ⟨draw, health', lock⟩ i ↔ p.WinsAt ⟨draw, health, lock⟩ i ∧ ¬ failed i := by
  rw [winsAt_iff_of_no_token hlock, winsAt_iff_of_no_token hlock]
  constructor
  · rintro ⟨c, hc, hdraw, hhealth⟩
    obtain ⟨hbefore, hnot⟩ := (hmarks i (List.getElem?_eq_some_iff.1 hc).1).1 hhealth
    exact ⟨⟨c, hc, hdraw, hbefore⟩, hnot⟩
  · rintro ⟨⟨c, hc, hdraw, hhealth⟩, hnot⟩
    exact ⟨c, hc, hdraw, (hmarks i (List.getElem?_eq_some_iff.1 hc).1).2 ⟨hhealth, hnot⟩⟩

/-- When some targets fail, requests that a draw gave to other targets stay where they are, and those
of the failed targets go on to later targets that have not failed, or to the fallback. What was a
fallback before stays one. -/
theorem select_failover (hmarks : p.MarksDown failed health health')
    (hlock : Selection.tokenOf lock = none) (draw : Nat) :
    let before := p.select ⟨draw, health, lock⟩
    let after := p.select ⟨draw, health', lock⟩
    (before.fallback = false → ¬ failed before.index →
        after.index = before.index ∧ after.name = before.name ∧ after.fallback = false)
      ∧ (before.fallback = false → failed before.index →
        after.fallback = true
          ∨ after.fallback = false ∧ before.index < after.index ∧ ¬ failed after.index)
      ∧ (before.fallback = true → after.fallback = true) := by
  intro before after
  have hmarked : ∀ i, p.WinsAt ⟨draw, health', lock⟩ i
      ↔ p.WinsAt ⟨draw, health, lock⟩ i ∧ ¬ failed i := fun _ => winsAt_marked hmarks hlock
  refine ⟨fun hfallback hnot => ?_, fun hfallback hfailed => ?_, fun hfallback => ?_⟩
  · have hfirst := isFirstWinner_index hfallback
    have hafter : p.IsFirstWinner ⟨draw, health', lock⟩ before.index :=
      ⟨(hmarked _).2 ⟨hfirst.wins, hnot⟩, fun j hj hwins => hfirst.first j hj ((hmarked j).1 hwins).1⟩
    obtain ⟨c, hc, -⟩ := hfirst.wins
    have hbeforeEq : before = _ := select_of_isFirstWinner hfirst hc
    have hafterEq : after = _ := select_of_isFirstWinner hafter hc
    rw [hafterEq, hbeforeEq]
    exact ⟨rfl, rfl, rfl⟩
  · have hfirst := isFirstWinner_index hfallback
    cases hcase : after.fallback with
    | true => exact .inl rfl
    | false =>
        have hwins := (hmarked _).1 (isFirstWinner_index hcase).wins
        have hle : before.index ≤ after.index := Nat.not_lt.1 fun hlt => hfirst.first _ hlt hwins.1
        have hne : before.index ≠ after.index := fun heq => hwins.2 (heq ▸ hfailed)
        exact .inr ⟨rfl, Nat.lt_of_le_of_ne hle hne, hwins.2⟩
  · rw [fallback_eq_true_iff] at hfallback ⊢
    exact fun i hwins => hfallback i ((hmarked i).1 hwins).1

end Failover

/-! ### A target with a negative weight

The second threshold is below the first one, so a draw that the failed first target gives up passes
the second one by. -/

def trio : List Target :=
  [⟨"Blue", "blue.example", "", ⟨"", []⟩, ""⟩, ⟨"green", "green.example", "", ⟨"", []⟩, ""⟩,
    ⟨"Old", "old.example", "", ⟨"", []⟩, ""⟩]

def unevenTable : WeightTable :=
  ((WeightTable.empty.insert "Blue" 30).insert "green" (-10)).insert "old" 70

def unevenSelector : Selector :=
  ⟨[⟨"Blue", "blue", "F_Blue", 30, 30⟩, ⟨"green", "green", "F_green", -10, 20⟩,
      ⟨"Old", "old", "F_Old", 70, 90⟩], 33, "", "X-Pin", by simp⟩

theorem select_uneven :
    ofTargets trio unevenTable "X-Pin" = .ok unevenSelector
      ∧ (unevenSelector.select ⟨25, [true, true, true], some "x=1"⟩).index = 0
      ∧ 0 < (unevenSelector.select ⟨25, [false, true, true, true], some "x=1"⟩).index := by
  have hmarks : unevenSelector.MarksDown (· = 0) [true, true, true] [false, true, true, true] := by
    unfold MarksDown
    decide
  have hlock : Selection.tokenOf (some "x=1") = none := by decide
  obtain ⟨-, hmoves, -⟩ := select_failover hmarks hlock 25
  rcases hmoves (by decide) (by decide) with hfallback | ⟨-, hlater, -⟩
  · exact absurd hfallback (by decide)
  · exact ⟨rfl, by decide, hlater⟩

end EdgeRouting.Selector
