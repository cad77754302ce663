import EdgeRouting.Logic.Pattern

/-!
# What patterns match

Spec lemmas for `Pattern.run` and `Pattern.find?`. A pattern of one character class finds the first
character of the class. A pattern that has to begin at the start of the text is tried there only.

The other patterns are sequences, and of such a sequence only the first match counts. What it leaves
over is `outcome`. A greedy repetition comes with all its shorter choices, so the outcome of a
sequence that begins with one is in general a search through them; `outcome_repeated` says when the
longest choice settles it, which is when its failure makes all of them fail.
-/

namespace EdgeRouting.Logic.Pattern

/-! ## The parts of a pattern -/

theorem run_start (p : Position) : start.run p = if p.before.isEmpty then [p] else [] := rfl

theorem run_finish (p : Position) : finish.run p = if p.after.isEmpty then [p] else [] := rfl

theorem run_exactly (c : Char) (p : Position) :
    (exactly c).run p = if p.after.head? = some c then [p.advance 1] else [] := rfl

theorem run_one (k : CharClass) (p : Position) :
    (one k).run p = if p.after.head?.any k.holds then [p.advance 1] else [] := rfl

theorem run_sequence (a b : Pattern) (p : Position) :
    (sequence a b).run p = (a.run p).flatMap b.run := rfl

theorem run_group (n : Nat) (a : Pattern) (p : Position) :
    (group n a).run p = (a.run p).map fun q =>
      { q with groups := (n, p.after.take (p.after.length - q.after.length)) :: q.groups } := rfl

/-! ## One character -/

theorem run_one_cons_of_holds {k : CharClass} {c : Char} (h : k.holds c = true)
    (before r : List Char) : (one k).run ⟨before, c :: r, []⟩ = [⟨c :: before, r, []⟩] := by
  simp [run_one, h, Position.advance]

theorem run_one_cons_of_not_holds {k : CharClass} {c : Char} (h : k.holds c = false)
    (before r : List Char) : (one k).run ⟨before, c :: r, []⟩ = [] := by
  simp [run_one, h]

theorem findFrom_one_cons {k : CharClass} {c : Char} (h : k.holds c = true)
    (before r : List Char) :
    (one k).findFrom before (c :: r) = some ⟨before.reverse, r, []⟩ := by
  rw [findFrom, run_one_cons_of_holds h]

theorem findFrom_one_eq_none_iff (k : CharClass) (before s : List Char) :
    (one k).findFrom before s = none ↔ ∀ c ∈ s, k.holds c = false := by
  induction s generalizing before with
  | nil => simp [findFrom, run_one]
  | cons c r ih =>
      cases h : k.holds c with
      | true =>
          rw [findFrom_one_cons h]
          simp [h]
      | false =>
          rw [findFrom, run_one_cons_of_not_holds h]
          simp [h, ih]

theorem find?_visible_eq_none_iff (s : String) :
    (one .visible).find? s = none ↔ ∀ c ∈ s.toList, c = '\n' := by
  rw [find?, findFrom_one_eq_none_iff]
  simp [CharClass.holds]

/-! ## Patterns from the start of the text -/

theorem findFrom_start_eq_none {q : Pattern} {before : List Char} (h : before ≠ [])
    (s : List Char) : (sequence start q).findFrom before s = none := by
  have hrun : ∀ after, (sequence start q).run ⟨before, after, []⟩ = [] := by
    intro after
    simp [run_sequence, run_start, h]
  induction s generalizing before with
  | nil => simp [findFrom, hrun]
  | cons c r ih =>
      rw [findFrom, hrun]
      exact ih (List.cons_ne_nil _ _) fun after => by
        simp [run_sequence, run_start]

/-- A pattern that begins with the start of the text is matched there or not at all. -/
theorem find?_start (q : Pattern) (s : String) :
    (sequence start q).find? s
      = (q.run ⟨[], s.toList, []⟩).head?.map fun r => ⟨[], r.after, r.groups⟩ := by
  have hrun : ∀ after, (sequence start q).run ⟨[], after, []⟩ = q.run ⟨[], after, []⟩ := by
    intro after
    simp [run_sequence, run_start]
  unfold find?
  cases s.toList with
  | nil =>
      rw [findFrom, hrun]
      rfl
  | cons c r =>
      rw [findFrom, hrun]
      cases q.run ⟨[], c :: r, []⟩ with
      | nil => exact findFrom_start_eq_none (List.cons_ne_nil _ _) r
      | cons x l => rfl

/-! ## Outcomes of sequences -/

/-- What the first match at a position leaves over, and the groups after it. -/
def outcome (q : Pattern) (p : Position) : Option (List Char × List (Nat × List Char)) :=
  (q.run p).head?.map fun r => (r.after, r.groups)

theorem outcome_eq_none_iff {q : Pattern} {p : Position} : q.outcome p = none ↔ q.run p = [] := by
  simp [outcome]

theorem outcome_finish (p : Position) :
    finish.outcome p = if p.after = [] then some ([], p.groups) else none := by
  by_cases h : p.after = []
  · simp [outcome, run_finish, h]
  · simp [outcome, run_finish, h]

section Sequences

variable {a q : Pattern} {p x : Position} {l : List Position}

theorem outcome_sequence_of_nil (h : a.run p = []) : (sequence a q).outcome p = none := by
  simp [outcome, run_sequence, h]

/-- The first choice settles a sequence when its failure makes all others fail. -/
theorem outcome_sequence_of_cons (h : a.run p = x :: l)
    (hfirst : q.outcome x = none → ∀ y ∈ l, q.outcome y = none) :
    (sequence a q).outcome p = q.outcome x := by
  have hrun : (sequence a q).run p = q.run x ++ l.flatMap q.run := by
    simp [run_sequence, h]
  unfold outcome
  rw [hrun]
  cases hx : q.run x with
  | cons y r => rfl
  | nil =>
      have hnone := hfirst (outcome_eq_none_iff.2 hx)
      rw [List.nil_append, List.flatMap_eq_nil_iff.2 fun y hy => outcome_eq_none_iff.1 (hnone y hy)]

theorem outcome_exactly_of_head {c : Char} {r : List Char} (h : p.after = c :: r) :
    (sequence (exactly c) q).outcome p = q.outcome (p.advance 1) := by
  have hrun : (exactly c).run p = [p.advance 1] := by simp [run_exactly, h]
  exact outcome_sequence_of_cons hrun fun _ y hy => by cases hy

theorem outcome_exactly_of_head_ne {c : Char} (h : p.after.head? ≠ some c) :
    (sequence (exactly c) q).outcome p = none :=
  outcome_sequence_of_nil (by simp [run_exactly, h])

end Sequences

/-! ## Repetitions -/

/-- The position behind the next characters, which are kept under a number. -/
def Position.keep (p : Position) (n i : Nat) : Position :=
  { p.advance i with groups := (n, p.after.take i) :: p.groups }

@[simp] theorem Position.after_advance (p : Position) (i : Nat) :
    (p.advance i).after = p.after.drop i := rfl

@[simp] theorem Position.after_keep (p : Position) (n i : Nat) :
    (p.keep n i).after = p.after.drop i := rfl

@[simp] theorem Position.groups_keep (p : Position) (n i : Nat) :
    (p.keep n i).groups = (n, p.after.take i) :: p.groups := rfl

/-- The number of characters that a repetition takes at most. -/
def Position.reach (p : Position) (k : CharClass) : Nat := (p.after.takeWhile k.holds).length

section Repetitions

variable {k : CharClass} {q : Pattern} {p : Position} {n least : Nat}

theorem Position.take_reach (p : Position) (k : CharClass) :
    p.after.take (p.reach k) = p.after.takeWhile k.holds :=
  List.prefix_iff_eq_take.1 (List.takeWhile_prefix k.holds) |>.symm

theorem Position.drop_reach (p : Position) (k : CharClass) :
    p.after.drop (p.reach k) = p.after.dropWhile k.holds := by
  have h := (List.take_append_drop (p.reach k) p.after).trans
    (List.takeWhile_append_dropWhile (p := k.holds)).symm
  rw [p.take_reach] at h
  exact List.append_cancel_left h

/-- Behind fewer characters than a repetition takes stands another one of the class. -/
theorem Position.drop_eq_cons_of_lt_reach {i : Nat} (h : i < p.reach k) :
    ∃ c r, p.after.drop i = c :: r ∧ k.holds c = true
      ∧ p.after.dropWhile k.holds <:+ r := by
  have hlen : p.reach k ≤ p.after.length := (List.takeWhile_prefix k.holds).length_le
  refine ⟨p.after[i], p.after.drop (i + 1), List.drop_eq_getElem_cons (by omega), ?_, ?_⟩
  · have hmem : p.after[i] ∈ p.after.takeWhile k.holds := by
      rw [← p.take_reach]
      exact List.mem_take_iff_getElem.2 ⟨i, by omega, rfl⟩
    exact List.all_eq_true.1 List.all_takeWhile _ hmem
  · rw [← p.drop_reach]
    exact List.drop_suffix_drop_left _ h

theorem advanceOver_of_lt (h : p.reach k < least) : p.advanceOver k least = [] := by
  simp only [Position.advanceOver, List.map_eq_nil_iff, List.reverse_eq_nil_iff,
    List.filter_eq_nil_iff, List.mem_range, decide_eq_true_eq]
  intro i hi
  exact fun hle => Nat.not_lt.2 (Nat.le_of_lt_succ hi) (Nat.lt_of_lt_of_le h hle)

/-- The first choice of a repetition is the longest one. -/
theorem advanceOver_of_le (h : least ≤ p.reach k) :
    ∃ l, p.advanceOver k least = p.advance (p.reach k) :: l
      ∧ ∀ y ∈ l, ∃ i, i < p.reach k ∧ y = p.advance i := by
  refine ⟨((List.range (p.reach k)).filter (least ≤ ·)).reverse.map p.advance, ?_, ?_⟩
  · have hlast : List.filter (fun i => decide (least ≤ i)) [p.reach k] = [p.reach k] := by
      simp [h]
    show (((List.range (p.reach k + 1)).filter (least ≤ ·)).reverse.map p.advance) = _
    rw [List.range_succ, List.filter_append, hlast, List.reverse_append]
    rfl
  · intro y hy
    obtain ⟨i, hi, rfl⟩ := List.mem_map.1 hy
    rw [List.mem_reverse, List.mem_filter, List.mem_range] at hi
    exact ⟨i, hi.1, rfl⟩

theorem run_group_of_run_eq {r : Pattern} (h : r.run p = p.advanceOver k least) :
    (group n r).run p = (p.advanceOver k least).map fun x =>
      { x with groups := (n, p.after.take (p.after.length - x.after.length)) :: x.groups } := by
  rw [run_group, h]

theorem take_length_sub {taken left l : List Char} (h : taken ++ left = l) :
    l.take (l.length - left.length) = taken := by
  rw [← h, List.length_append, Nat.add_sub_cancel, List.take_left]

theorem Position.keep_eq (p : Position) (n i : Nat) :
    { p.advance i with groups := (n, p.after.take (p.after.length - (p.advance i).after.length))
        :: (p.advance i).groups } = p.keep n i := by
  have htake : p.after.take (p.after.length - (p.after.drop i).length) = p.after.take i :=
    take_length_sub (List.take_append_drop i p.after)
  simp only [Position.keep, Position.advance, htake]

/-- The longest choice settles a sequence that begins with a kept repetition, when its failure makes
all shorter ones fail. -/
theorem outcome_repeated {r : Pattern} (hr : r.run p = p.advanceOver k least)
    (h : least ≤ p.reach k)
    (hshorter : q.outcome (p.keep n (p.reach k)) = none →
      ∀ i, i < p.reach k → q.outcome (p.keep n i) = none) :
    (sequence (group n r) q).outcome p = q.outcome (p.keep n (p.reach k)) := by
  obtain ⟨l, hl, hmem⟩ := advanceOver_of_le h
  have hrun := run_group_of_run_eq (n := n) hr
  rw [hl, List.map_cons, Position.keep_eq] at hrun
  refine outcome_sequence_of_cons hrun ?_
  intro hnone y hy
  obtain ⟨x, hx, rfl⟩ := List.mem_map.1 hy
  obtain ⟨i, hi, rfl⟩ := hmem x hx
  rw [Position.keep_eq]
  exact hshorter hnone i hi

theorem outcome_zeroOrMore
    (hshorter : q.outcome (p.keep n (p.reach k)) = none →
      ∀ i, i < p.reach k → q.outcome (p.keep n i) = none) :
    (sequence (group n (zeroOrMore k)) q).outcome p = q.outcome (p.keep n (p.reach k)) :=
  outcome_repeated rfl (Nat.zero_le _) hshorter

theorem outcome_oneOrMore
    (hshorter : q.outcome (p.keep n (p.reach k)) = none →
      ∀ i, i < p.reach k → q.outcome (p.keep n i) = none) :
    (sequence (group n (oneOrMore k)) q).outcome p
      = if (p.after.takeWhile k.holds).isEmpty then none
        else q.outcome (p.keep n (p.reach k)) := by
  have hrun : (oneOrMore k).run p = p.advanceOver k 1 := rfl
  by_cases hempty : (p.after.takeWhile k.holds).isEmpty = true
  · have hlt : p.reach k < 1 := by
      rw [Position.reach, List.isEmpty_iff.1 hempty]
      exact Nat.zero_lt_one
    rw [if_pos hempty]
    refine outcome_sequence_of_nil ?_
    rw [run_group_of_run_eq hrun, advanceOver_of_lt hlt]
    rfl
  · have hle : 1 ≤ p.reach k :=
      List.length_pos_iff.2 fun hnil => hempty (List.isEmpty_iff.2 hnil)
    rw [if_neg hempty, outcome_repeated hrun hle hshorter]

end Repetitions

end EdgeRouting.Logic.Pattern
