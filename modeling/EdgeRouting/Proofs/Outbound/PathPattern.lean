import Mathlib.Data.List.TakeWhile
import EdgeRouting.Outbound.Logic
import EdgeRouting.Path.Grammar
import EdgeRouting.Proofs.Logic.Match

/-!
# The path pattern cuts paths

`find?_pathPattern` says that a match of the path pattern is the cut of `PathCut.ofPath?`: there is
one exactly when there is the other, and the groups are the pieces. The pattern is taken apart from
its end. The rest fails exactly on a line break, so where it fails it fails behind every shorter
version and every shorter action as well, because those only leave more over. A shorter package
fails for another reason: the character behind it is not the slash that has to come there.
-/

namespace EdgeRouting.Outbound

open Logic Pattern

/-! ## The parts of the pattern -/

def nameClass : CharClass := .noneOf ['/', '@', '_']

def restPattern : Pattern := .sequence (.group 4 (.zeroOrMore .visible)) .finish

def versionPart : Pattern :=
  .group 3 (.sequence (.one (.oneOf ['@', '_'])) (.oneOrMore nameClass))

def versionPattern : Pattern := .sequence (.optional versionPart) restPattern

def actionPattern : Pattern := .sequence (.group 2 (.oneOrMore nameClass)) versionPattern

def packagePattern : Pattern :=
  .sequence (.group 1 (.oneOrMore (.noneOf ['/']))) (.sequence (.exactly '/') actionPattern)

theorem pathPattern_eq :
    pathPattern = .sequence .start (.sequence (.exactly '/') packagePattern) := rfl

theorem holds_nameClass : nameClass.holds = PathCut.isNameChar := by
  funext c
  simp [nameClass, CharClass.holds, PathCut.isNameChar, PathCut.isDivider]

theorem holds_packageClass : (CharClass.noneOf ['/']).holds = PathCut.isPackageChar := by
  funext c
  simp [CharClass.holds, PathCut.isPackageChar]

theorem holds_dividerClass : (CharClass.oneOf ['@', '_']).holds = PathCut.isDivider := by
  funext c
  simp [CharClass.holds, PathCut.isDivider]

/-! ## The rest -/

theorem outcome_restPattern_of_mem {p : Position} (h : '\n' ∈ p.after) :
    restPattern.outcome p = none := by
  have hnone : ∀ i, i ≤ p.reach .visible → finish.outcome (p.keep 4 i) = none := by
    intro i hi
    rw [outcome_finish, if_neg]
    intro hnil
    rw [Position.after_keep, List.drop_eq_nil_iff] at hnil
    have hall : p.after.takeWhile CharClass.visible.holds = p.after := by
      rw [← p.take_reach, List.take_of_length_le (Nat.le_trans hnil hi)]
    have hline := List.all_eq_true.1 (List.all_takeWhile (p := CharClass.visible.holds)) '\n'
      (hall.symm ▸ h)
    exact absurd hline (by decide)
  rw [restPattern, outcome_zeroOrMore fun _ i hi => hnone i (Nat.le_of_lt hi)]
  exact hnone _ (Nat.le_refl _)

theorem outcome_restPattern_of_not_mem {p : Position} (h : '\n' ∉ p.after) :
    restPattern.outcome p = some ([], (4, p.after) :: p.groups) := by
  have hvisible : ∀ c ∈ p.after, CharClass.visible.holds c = true := by
    intro c hc
    simp only [CharClass.holds, ne_eq, decide_eq_true_eq]
    exact fun hline => h (hline ▸ hc)
  have hall : p.after.takeWhile CharClass.visible.holds = p.after :=
    List.takeWhile_eq_self_iff.2 hvisible
  have hnil : p.after.dropWhile CharClass.visible.holds = [] :=
    List.dropWhile_eq_nil_iff.2 hvisible
  have hshorter : ∀ i, i < p.reach .visible → finish.outcome (p.keep 4 i) = none := by
    intro i hi
    obtain ⟨c, r, hdrop, -⟩ := p.drop_eq_cons_of_lt_reach hi
    rw [outcome_finish, if_neg]
    rw [Position.after_keep, hdrop]
    exact List.cons_ne_nil _ _
  rw [restPattern, outcome_zeroOrMore fun _ => hshorter, outcome_finish, Position.after_keep,
    Position.drop_reach, if_pos hnil, Position.groups_keep, Position.take_reach, hall]

/-! ## The version -/

/-- The group of a version, which takes part in a match only where there is a version. -/
def versionGroups (version : List Char) : List (Nat × List Char) :=
  if version.isEmpty then [] else [(3, version)]

/-- What the pattern behind the action makes of what is over there. -/
def versionOutcome (s : List Char) (groups : List (Nat × List Char)) :
    Option (List Char × List (Nat × List Char)) :=
  if '\n' ∈ (PathCut.cutVersion s).2 then none
  else some ([], (4, (PathCut.cutVersion s).2) ::
    (versionGroups (PathCut.cutVersion s).1 ++ groups))

theorem run_optional (q : Pattern) (p : Position) : (optional q).run p = q.run p ++ [p] := rfl

/-- A version that is cut off is a divider and all characters of a name behind it. -/
theorem cutVersion_cases (s : List Char) :
    (∃ d r, s = d :: r ∧ PathCut.isDivider d = true ∧ r.takeWhile PathCut.isNameChar ≠ []
      ∧ PathCut.cutVersion s
        = (d :: r.takeWhile PathCut.isNameChar, r.dropWhile PathCut.isNameChar))
    ∨ PathCut.cutVersion s = ([], s)
      ∧ ∀ d r, s = d :: r → PathCut.isDivider d = true → r.takeWhile PathCut.isNameChar = [] := by
  cases s with
  | nil => exact .inr ⟨rfl, fun _ _ h => by cases h⟩
  | cons d r =>
      by_cases h : PathCut.isDivider d = true ∧ r.takeWhile PathCut.isNameChar ≠ []
      · exact .inl ⟨d, r, rfl, h.1, h.2, by simp [PathCut.cutVersion, h.1, h.2]⟩
      · refine .inr ⟨?_, ?_⟩
        · rw [PathCut.cutVersion, if_neg]
          intro hcut
          rw [Bool.and_eq_true, Bool.not_eq_true', List.isEmpty_eq_false_iff] at hcut
          exact h hcut
        · rintro d' r' heq hd
          obtain ⟨rfl, rfl⟩ := List.cons.inj heq
          exact Decidable.by_contra fun hr => h ⟨hd, hr⟩

theorem run_versionPart_of_divider {p : Position} {d : Char} {r : List Char}
    (hp : p.after = d :: r) (hd : PathCut.isDivider d = true) :
    versionPart.run p = ((p.advance 1).advanceOver nameClass 1).map fun x =>
      { x with groups := (3, p.after.take (p.after.length - x.after.length)) :: x.groups } := by
  have hone : (one (.oneOf ['@', '_'])).run p = [p.advance 1] := by
    simp [run_one, hp, holds_dividerClass, hd]
  rw [versionPart, run_group, run_sequence, hone, List.flatMap_singleton]
  rfl

/-- No version: what comes next is no divider, or no name stands behind it. -/
theorem run_versionPart_of_absent {p : Position}
    (h : ∀ d r, p.after = d :: r → PathCut.isDivider d = true →
      r.takeWhile PathCut.isNameChar = []) : versionPart.run p = [] := by
  cases hp : p.after with
  | nil => simp [versionPart, run_group, run_sequence, run_one, hp]
  | cons d r =>
      cases hd : PathCut.isDivider d with
      | false =>
          simp [versionPart, run_group, run_sequence, run_one, hp, holds_dividerClass, hd]
      | true =>
          have hreach : (p.advance 1).reach nameClass < 1 := by
            rw [Position.reach, holds_nameClass, Position.after_advance, hp, List.drop_one,
              List.tail_cons, h d r hp hd]
            exact Nat.zero_lt_one
          rw [run_versionPart_of_divider hp hd, advanceOver_of_lt hreach]
          rfl

/-- A version: the longest one comes first, and all shorter ones leave more over. -/
theorem run_versionPart_of_present {p : Position} {d : Char} {r : List Char}
    (hp : p.after = d :: r) (hd : PathCut.isDivider d = true)
    (hr : r.takeWhile PathCut.isNameChar ≠ []) :
    ∃ x l, versionPart.run p = x :: l ∧ x.after = r.dropWhile PathCut.isNameChar
      ∧ x.groups = (3, d :: r.takeWhile PathCut.isNameChar) :: p.groups
      ∧ ∀ y ∈ l, r.dropWhile PathCut.isNameChar <:+ y.after := by
  have hafter : (p.advance 1).after = r := by
    rw [Position.after_advance, hp]
    rfl
  have hreach : 1 ≤ (p.advance 1).reach nameClass := by
    rw [Position.reach, holds_nameClass, hafter]
    exact List.length_pos_iff.2 hr
  have hrest : ((p.advance 1).advance ((p.advance 1).reach nameClass)).after
      = r.dropWhile PathCut.isNameChar := by
    rw [Position.after_advance, Position.drop_reach, hafter, holds_nameClass]
  have hversion : (d :: r).take ((d :: r).length - (r.dropWhile PathCut.isNameChar).length)
      = d :: r.takeWhile PathCut.isNameChar :=
    take_length_sub (by rw [List.cons_append, List.takeWhile_append_dropWhile])
  obtain ⟨l, hl, hmem⟩ := advanceOver_of_le hreach
  have hrun := run_versionPart_of_divider hp hd
  rw [hl, List.map_cons] at hrun
  refine ⟨_, _, hrun, hrest, ?_, ?_⟩
  · simp only [hrest, hp, hversion]
    rfl
  · intro y hy
    obtain ⟨x, hx, rfl⟩ := List.mem_map.1 hy
    obtain ⟨i, hi, rfl⟩ := hmem x hx
    rw [← hrest]
    exact List.drop_suffix_drop_left _ (Nat.le_of_lt hi)

theorem outcome_versionPattern (p : Position) :
    versionPattern.outcome p = versionOutcome p.after p.groups := by
  unfold versionOutcome
  rcases cutVersion_cases p.after with ⟨d, r, hp, hd, hr, hcut⟩ | ⟨hcut, habsent⟩
  · obtain ⟨x, l, hrun, hafter, hgroups, hmore⟩ := run_versionPart_of_present hp hd hr
    have hsuffix : r.dropWhile PathCut.isNameChar <:+ p.after := by
      rw [hp]
      exact (List.dropWhile_suffix _).trans (List.suffix_cons _ _)
    have hrun' : (optional versionPart).run p = x :: (l ++ [p]) := by
      rw [run_optional, hrun, List.cons_append]
    rw [hcut, versionPattern, outcome_sequence_of_cons hrun']
    · by_cases hline : '\n' ∈ r.dropWhile PathCut.isNameChar
      · rw [if_pos hline, outcome_restPattern_of_mem (hafter ▸ hline)]
      · rw [if_neg hline, outcome_restPattern_of_not_mem (hafter ▸ hline), hafter, hgroups]
        rfl
    · intro hnone y hy
      have hline : '\n' ∈ r.dropWhile PathCut.isNameChar := by
        refine Decidable.by_contra fun hline => ?_
        rw [outcome_restPattern_of_not_mem (hafter ▸ hline)] at hnone
        cases hnone
      rcases List.mem_append.1 hy with hy | hy
      · exact outcome_restPattern_of_mem ((hmore y hy).mem hline)
      · obtain rfl := List.mem_singleton.1 hy
        exact outcome_restPattern_of_mem (hsuffix.mem hline)
  · have hrun : (optional versionPart).run p = [p] := by
      rw [run_optional, run_versionPart_of_absent habsent, List.nil_append]
    rw [hcut, versionPattern, outcome_sequence_of_cons hrun (fun _ y hy => by cases hy)]
    by_cases hline : '\n' ∈ p.after
    · rw [if_pos hline, outcome_restPattern_of_mem hline]
    · rw [if_neg hline, outcome_restPattern_of_not_mem hline]
      rfl

/-! ## The action and the package -/

theorem cutVersion_of_isNameChar {c : Char} (h : PathCut.isNameChar c = true) (r : List Char) :
    PathCut.cutVersion (c :: r) = ([], c :: r) := by
  rw [PathCut.isNameChar, Bool.and_eq_true, Bool.not_eq_true'] at h
  simp [PathCut.cutVersion, h.2]

/-- A shorter action leaves the line break over as well. -/
theorem outcome_actionPattern (p : Position) :
    actionPattern.outcome p
      = if (p.after.takeWhile PathCut.isNameChar).isEmpty then none
        else versionOutcome (p.after.dropWhile PathCut.isNameChar)
          ((2, p.after.takeWhile PathCut.isNameChar) :: p.groups) := by
  have hlongest : versionPattern.outcome (p.keep 2 (p.reach nameClass))
      = versionOutcome (p.after.dropWhile PathCut.isNameChar)
        ((2, p.after.takeWhile PathCut.isNameChar) :: p.groups) := by
    rw [outcome_versionPattern, Position.after_keep, Position.groups_keep, Position.drop_reach,
      Position.take_reach, holds_nameClass]
  rw [actionPattern, outcome_oneOrMore, hlongest, holds_nameClass]
  intro hnone i hi
  obtain ⟨c, r, hdrop, hc, hsuffix⟩ := p.drop_eq_cons_of_lt_reach hi
  rw [holds_nameClass] at hc hsuffix
  rw [hlongest, versionOutcome, ite_eq_left_iff] at hnone
  have hline : '\n' ∈ (PathCut.cutVersion (p.after.dropWhile PathCut.isNameChar)).2 :=
    Decidable.by_contra fun hline => by cases hnone hline
  have hrest : '\n' ∈ p.after.dropWhile PathCut.isNameChar := by
    rw [← PathCut.cutVersion_append (p.after.dropWhile PathCut.isNameChar)]
    exact List.mem_append_right _ hline
  rw [outcome_versionPattern, Position.after_keep, hdrop, versionOutcome,
    cutVersion_of_isNameChar hc, if_pos (List.mem_cons_of_mem _ (hsuffix.mem hrest))]

def cutGroups (c : PathCut) (groups : List (Nat × List Char)) : List (Nat × List Char) :=
  (4, c.rest) :: (versionGroups c.version ++ (2, c.action) :: (1, c.package) :: groups)

theorem outcome_slash_of_lt_reach {p : Position} {i : Nat} (h : i < p.reach (.noneOf ['/'])) :
    (sequence (exactly '/') actionPattern).outcome (p.keep 1 i) = none := by
  obtain ⟨c, r, hdrop, hc, -⟩ := p.drop_eq_cons_of_lt_reach h
  refine outcome_exactly_of_head_ne ?_
  rw [Position.after_keep, hdrop, List.head?_cons]
  intro hslash
  obtain rfl := Option.some.inj hslash
  exact absurd hc (by decide)

theorem outcome_packagePattern (p : Position) :
    packagePattern.outcome p
      = (PathCut.ofPackage? p.after).map fun c => ([], cutGroups c p.groups) := by
  have hafter : (p.keep 1 (p.reach (.noneOf ['/']))).after
      = p.after.dropWhile PathCut.isPackageChar := by
    rw [Position.after_keep, Position.drop_reach, holds_packageClass]
  have hgroups : (p.keep 1 (p.reach (.noneOf ['/']))).groups
      = (1, p.after.takeWhile PathCut.isPackageChar) :: p.groups := by
    rw [Position.groups_keep, Position.take_reach, holds_packageClass]
  rw [packagePattern, outcome_oneOrMore fun _ i hi => outcome_slash_of_lt_reach hi,
    holds_packageClass]
  unfold PathCut.ofPackage?
  cases hdrop : p.after.dropWhile PathCut.isPackageChar with
  | nil =>
      have hend : (p.keep 1 (p.reach (.noneOf ['/']))).after.head? ≠ some '/' := by
        rw [hafter, hdrop]
        exact fun h => by cases h
      rw [outcome_exactly_of_head_ne hend, ite_self]
      rfl
  | cons d t =>
      obtain rfl := PathCut.not_isPackageChar_head hdrop
      have hbehind : ((p.keep 1 (p.reach (.noneOf ['/']))).advance 1).after = t := by
        rw [Position.after_advance, hafter, hdrop]
        rfl
      have hkept : ((p.keep 1 (p.reach (.noneOf ['/']))).advance 1).groups
          = (1, p.after.takeWhile PathCut.isPackageChar) :: p.groups := hgroups
      rw [outcome_exactly_of_head (hafter.trans hdrop), outcome_actionPattern, hbehind, hkept]
      by_cases hempty : (p.after.takeWhile PathCut.isPackageChar).isEmpty = true
      · simp [hempty]
      · by_cases haction : (t.takeWhile PathCut.isNameChar).isEmpty = true
        · simp [haction]
        · by_cases hline : '\n' ∈ (PathCut.cutVersion (t.dropWhile PathCut.isNameChar)).2
          · simp [haction, versionOutcome, hline]
          · simp [haction, hempty, versionOutcome, hline, cutGroups]

/-! ## Cuts and matches -/

/-- The match that a cut is. -/
def matchOfCut (c : PathCut) : Match := ⟨[], [], cutGroups c []⟩

/-- The path pattern matches the paths that can be cut, and its groups are the pieces. -/
theorem find?_pathPattern (url : String) :
    pathPattern.find? url = (PathCut.ofPath? url.toList).map matchOfCut := by
  have houtcome : pathPattern.find? url
      = ((sequence (exactly '/') packagePattern).outcome ⟨[], url.toList, []⟩).map
          fun o => ⟨[], o.1, o.2⟩ := by
    rw [pathPattern_eq, find?_start, outcome, Option.map_map]
    rfl
  rw [houtcome]
  by_cases hslash : url.toList.head? = some '/'
  · obtain ⟨r, hr⟩ := List.head?_eq_some_iff.1 hslash
    rw [outcome_exactly_of_head (p := ⟨[], url.toList, []⟩) hr, outcome_packagePattern, hr,
      Option.map_map]
    rfl
  · rw [outcome_exactly_of_head_ne (p := ⟨[], url.toList, []⟩) hslash]
    have hnone : PathCut.ofPath? url.toList = none := by
      unfold PathCut.ofPath?
      split
      · next s hs => exact absurd (by rw [hs]; rfl) hslash
      · rfl
    rw [hnone]
    rfl

/-- A group that takes no part in the match has an empty text, as an absent version has. -/
theorem group_matchOfCut (c : PathCut) :
    (matchOfCut c).group 1 = String.ofList c.package
      ∧ (matchOfCut c).group 2 = String.ofList c.action
      ∧ (matchOfCut c).group 3 = String.ofList c.version
      ∧ (matchOfCut c).group 4 = String.ofList c.rest := by
  by_cases hv : c.version = []
  · simp [matchOfCut, Match.group, cutGroups, versionGroups, hv, List.lookup_cons]
  · simp [matchOfCut, Match.group, cutGroups, versionGroups, hv, List.lookup_cons]

/-! ## The version behind another divider -/

theorem isVersion_cutVersion (s : List Char) : PathCut.IsVersion (PathCut.cutVersion s).1 := by
  rcases cutVersion_cases s with ⟨d, r, -, hd, hr, hcut⟩ | ⟨hcut, -⟩
  · rw [hcut]
    exact ⟨hd, hr, List.all_eq_true.1 List.all_takeWhile⟩
  · rw [hcut]
    exact trivial

theorem isVersion_of_ofPath? {url : List Char} {c : PathCut} (h : PathCut.ofPath? url = some c) :
    PathCut.IsVersion c.version := by
  unfold PathCut.ofPath? at h
  split at h
  · simp only [PathCut.ofPackage?] at h
    split at h
    · cases h
    · split at h
      · cases h
      · obtain rfl := Option.some.inj h
        exact isVersion_cutVersion _
  · cases h

/-- The replacement of the first divider changes the divider in front of a version. -/
theorem replaceFirst_dividerPattern {version : List Char} (h : PathCut.IsVersion version)
    (d : Char) :
    dividerPattern.replaceFirst (String.ofList version) (String.singleton d)
      = String.ofList (PathCut.withDivider d version) := by
  unfold replaceFirst find?
  rw [String.toList_ofList]
  cases version with
  | nil => rfl
  | cons c r =>
      have hc : (CharClass.oneOf ['@', '_']).holds c = true := by
        rw [holds_dividerClass]
        exact h.1
      rw [dividerPattern, findFrom_one_cons hc]
      simp [PathCut.withDivider]

end EdgeRouting.Outbound
