import EdgeRouting.Proofs.Text.LowerCase
import EdgeRouting.Text.Occurrence

/-!
# Occurrences in any case

To look for a pattern in the lower case of a text is to look for it in the text, whatever the case
of the ASCII letters, provided that no other character can stand for a part of the pattern
(`occurs_lower_iff`). The dotted capital I becomes an `i` but leaves a dot above behind it, so it is
enough that the pattern has no `k` and that no `i` ends it.

A pattern occurs in texts that are joined if it occurs in one of them, unless it has the joint in it
(`occursInAnyCase_joined`).
-/

namespace EdgeRouting.Text

/-- The text has a piece that is the pattern but for the case of ASCII letters. -/
def OccursInAnyCase (pattern s : String) : Prop :=
  ∃ piece : String, piece.toList <:+: s.toList ∧ eqIgnoringAsciiCase piece pattern = true

/-- A pattern that only ASCII can stand for. -/
structure IsPlainPattern (p : List Char) : Prop where
  ascii : ∀ c ∈ p, c.toNat < 0x80 ∧ c ≠ 'k'
  last : p.getLast? ≠ some 'i'

variable {p q s r : List Char} {c d : Char}

theorem isPlainPattern_of_all (h : p.all (fun c => c.toNat < 0x80 ∧ c ≠ 'k') = true)
    (hlast : p.getLast? ≠ some 'i') : IsPlainPattern p :=
  ⟨fun c hc => of_decide_eq_true (List.all_eq_true.1 h c hc), hlast⟩

theorem IsPlainPattern.tail (h : IsPlainPattern (c :: p)) : IsPlainPattern p where
  ascii := fun d hd => h.ascii d (List.mem_cons_of_mem _ hd)
  last := by
    cases p with
    | nil => simp
    | cons d p => exact h.last

theorem IsPlainPattern.ne_of_beyond (h : IsPlainPattern (c :: p)) (hd : 0x80 ≤ d.toNat) :
    c ≠ d := by
  rintro rfl
  exact absurd (h.ascii c List.mem_cons_self).1 (Nat.not_lt.2 hd)

/-! ## Patterns in lower case -/

/-- The lower case of the first character of a text. -/
def firstLower (before : List Char) (c : Char) (r : List Char) : List Char :=
  if c = capitalSigma then [lowerSigma before r] else lowerChar c

theorem beyond_lowerSigma (before after : List Char) :
    0x80 ≤ (lowerSigma before after).toNat := by
  unfold lowerSigma
  split <;> decide

/-- No character outside ASCII begins a plain pattern. -/
theorem not_prefix_of_beyond (hp : IsPlainPattern (d :: p)) (hc : 0x80 ≤ c.toNat)
    (before : List Char) : ¬ d :: p <+: firstLower before c r ++ s := by
  have hdot : 0x80 ≤ (Char.ofNat 0x307).toNat := by decide
  unfold firstLower
  split
  · rw [List.singleton_append, List.cons_prefix_cons]
    exact fun h => hp.ne_of_beyond (beyond_lowerSigma _ _) h.1
  rcases lowerChar_of_beyond hc with ⟨e, he, hkelvin⟩ | hdotted
  · rw [he, List.singleton_append, List.cons_prefix_cons]
    rintro ⟨rfl, -⟩
    obtain ⟨hascii, hk⟩ := hp.ascii d List.mem_cons_self
    exact hk (hkelvin hascii)
  · rw [hdotted, List.cons_append, List.cons_prefix_cons]
    rintro ⟨rfl, hrest⟩
    cases p with
    | nil => exact hp.last rfl
    | cons e p =>
        rw [List.singleton_append, List.cons_prefix_cons] at hrest
        exact hp.tail.ne_of_beyond hdot hrest.1

theorem firstLower_ascii (hc : c.toNat < 0x80) (before : List Char) :
    firstLower before c r = [c.toLower] := by
  rw [firstLower, if_neg (ne_capitalSigma_of_ascii hc), lowerChar_ascii hc]

theorem toLower_of_beyond (hc : 0x80 ≤ c.toNat) : c.toLower = c := by
  unfold Char.toLower
  rw [dif_neg]
  rintro ⟨-, hle⟩
  exact absurd (Nat.le_trans hc (UInt32.le_iff_toNat_le.1 hle)) (by decide)

theorem prefix_lowerCharsAfter_iff (hp : IsPlainPattern p) (before : List Char) :
    p <+: lowerCharsAfter before s ↔ ∃ q, q <+: s ∧ q.map Char.toLower = p := by
  induction p generalizing before s with
  | nil => exact iff_of_true List.nil_prefix ⟨[], List.nil_prefix, rfl⟩
  | cons d p ih =>
      cases s with
      | nil => simp [lowerCharsAfter]
      | cons c r =>
          show d :: p <+: firstLower before c r ++ lowerCharsAfter (c :: before) r ↔ _
          by_cases hc : c.toNat < 0x80
          · rw [firstLower_ascii hc, List.singleton_append, List.cons_prefix_cons, ih hp.tail]
            constructor
            · rintro ⟨rfl, q, hq, rfl⟩
              exact ⟨c :: q, List.cons_prefix_cons.2 ⟨rfl, hq⟩, rfl⟩
            · rintro ⟨_ | ⟨c', q⟩, hq, hlower⟩
              · cases hlower
              · obtain ⟨rfl, hrest⟩ := List.cons_prefix_cons.1 hq
                obtain ⟨rfl, rfl⟩ := List.cons.inj hlower
                exact ⟨rfl, q, hrest, rfl⟩
          · have hbeyond := Nat.not_lt.1 hc
            refine iff_of_false (not_prefix_of_beyond hp hbeyond before) ?_
            rintro ⟨_ | ⟨c', q⟩, hq, hlower⟩
            · cases hlower
            · obtain ⟨rfl, hq⟩ := List.cons_prefix_cons.1 hq
              obtain ⟨hd, -⟩ := List.cons.inj hlower
              rw [toLower_of_beyond hbeyond] at hd
              exact hp.ne_of_beyond hbeyond hd.symm

/-- A plain pattern that begins inside of the lower case of a character begins behind it. -/
theorem infix_firstLower_append_iff (hp : IsPlainPattern (d :: p)) (before : List Char) :
    d :: p <:+: firstLower before c r ++ s
      ↔ d :: p <+: firstLower before c r ++ s ∨ d :: p <:+: s := by
  have hone : ∀ e, d :: p <:+: [e] ++ s ↔ d :: p <+: [e] ++ s ∨ d :: p <:+: s := by
    intro e
    rw [List.singleton_append, List.infix_cons_iff]
  unfold firstLower
  split
  · exact hone _
  by_cases hc : c.toNat < 0x80
  · rw [lowerChar_ascii hc]
    exact hone _
  rcases lowerChar_of_beyond (Nat.not_lt.1 hc) with ⟨e, he, -⟩ | hdotted
  · rw [he]
    exact hone e
  · have hdot : ¬ d :: p <+: Char.ofNat 0x307 :: s := by
      rw [List.cons_prefix_cons]
      exact fun h => hp.ne_of_beyond (by decide) h.1
    rw [hdotted, List.cons_append, List.singleton_append, List.infix_cons_iff, List.infix_cons_iff,
      or_iff_right hdot]

theorem infix_lowerCharsAfter_iff (hp : IsPlainPattern (d :: p)) (before : List Char) :
    d :: p <:+: lowerCharsAfter before s ↔ ∃ q, q <:+: s ∧ q.map Char.toLower = d :: p := by
  induction s generalizing before with
  | nil => simp [lowerCharsAfter]
  | cons c r ih =>
      have hprefix := prefix_lowerCharsAfter_iff (s := c :: r) hp before
      change d :: p <+: firstLower before c r ++ lowerCharsAfter (c :: before) r ↔ _ at hprefix
      show d :: p <:+: firstLower before c r ++ lowerCharsAfter (c :: before) r ↔ _
      rw [infix_firstLower_append_iff hp, hprefix, ih]
      simp only [List.infix_cons_iff, or_and_right, exists_or]

theorem occursInAnyCase_iff {pattern t : String} : OccursInAnyCase pattern t
    ↔ ∃ q, q <:+: t.toList ∧ q.map Char.toLower = pattern.toList.map Char.toLower := by
  constructor
  · rintro ⟨piece, hpiece, heq⟩
    exact ⟨piece.toList, hpiece, eq_of_beq heq⟩
  · rintro ⟨q, hq, heq⟩
    refine ⟨String.ofList q, by rwa [String.toList_ofList], ?_⟩
    rw [eqIgnoringAsciiCase, String.toList_ofList, heq]
    exact beq_self_eq_true _

/-- A plain pattern in lower case occurs in the lower case of a text if it occurs in the text in any
case. -/
theorem occurs_lower_iff {pattern : String} (hplain : IsPlainPattern pattern.toList)
    (hlower : pattern.toList.map Char.toLower = pattern.toList) (hne : pattern.toList ≠ [])
    (t : String) :
    occurs pattern.toList (lower t).toList = true ↔ OccursInAnyCase pattern t := by
  rw [occurs_iff, occursInAnyCase_iff, hlower, lower, String.toList_ofList]
  cases hpattern : pattern.toList with
  | nil => exact absurd hpattern hne
  | cons d p =>
      rw [hpattern] at hplain
      exact infix_lowerCharsAfter_iff hplain []

/-- A character that only it itself has for its lower case is in the lower case of a text only if it
is in the text. -/
theorem mem_of_mem_lower {t : String} (hplain : IsPlainPattern [c])
    (hself : ∀ d : Char, d.toNat < 0x80 → d.toLower = c → d = c) (h : c ∈ (lower t).toList) :
    c ∈ t.toList := by
  rw [lower, String.toList_ofList] at h
  obtain ⟨s, r, hsplit⟩ := List.append_of_mem h
  have hinfix : [c] <:+: lowerCharsAfter [] t.toList :=
    ⟨s, r, (List.append_cons s c r).symm.trans hsplit.symm⟩
  obtain ⟨q, hq, hlower⟩ := (infix_lowerCharsAfter_iff hplain []).1 hinfix
  obtain ⟨d, rfl, hd⟩ := List.map_eq_singleton_iff.1 hlower
  have hmem : d ∈ t.toList := hq.subset List.mem_cons_self
  by_cases hascii : d.toNat < 0x80
  · rwa [← hself d hascii hd]
  · rwa [← hd, toLower_of_beyond (Nat.not_lt.1 hascii)]

theorem firstLower_ne_nil (before : List Char) (c : Char) (r : List Char) :
    firstLower before c r ≠ [] := by
  unfold firstLower lowerChar
  repeat' split
  all_goals exact List.cons_ne_nil _ _

/-- No text vanishes in lower case. -/
theorem lower_ne_empty {t : String} (h : t ≠ "") : lower t ≠ "" := by
  intro hempty
  have hchars : lowerCharsAfter [] t.toList = [] := by
    simpa [lower, lowerChars] using congrArg String.toList hempty
  cases ht : t.toList with
  | nil => exact h (by simpa using ht)
  | cons c r =>
      rw [ht, lowerCharsAfter] at hchars
      exact firstLower_ne_nil [] c r (List.append_eq_nil_iff.1 hchars).1

/-! ## Texts that are joined -/

theorem eq_nil_of_append_eq_cons (hc : c ∉ q) {t : List Char} (h : q ++ t = c :: r) : q = [] := by
  cases q with
  | nil => rfl
  | cons d q =>
      obtain ⟨rfl, -⟩ := List.cons.inj h
      exact absurd List.mem_cons_self hc

/-- A piece without a character does not reach across it. -/
theorem infix_append_cons_iff (hc : c ∉ q) : q <:+: s ++ c :: r ↔ q <:+: s ∨ q <:+: r := by
  constructor
  · rintro ⟨before, after, h⟩
    rw [List.append_assoc] at h
    rcases List.append_eq_append_iff.1 h with ⟨x, rfl, hx⟩ | ⟨x, rfl, hx⟩
    · rcases List.append_eq_append_iff.1 hx with ⟨y, rfl, -⟩ | ⟨y, rfl, hy⟩
      · exact .inl ⟨before, y, by rw [List.append_assoc]⟩
      · obtain rfl := eq_nil_of_append_eq_cons (fun hmem => hc (List.mem_append_right x hmem)) hy.symm
        rw [List.append_nil]
        exact .inl (List.suffix_append before x).isInfix
    · cases x with
      | nil =>
          obtain rfl := eq_nil_of_append_eq_cons hc hx.symm
          exact .inl (List.nil_infix)
      | cons d x =>
          obtain ⟨-, hrest⟩ := List.cons.inj hx
          exact .inr ⟨x, after, by rw [hrest, List.append_assoc]; rfl⟩
  · rintro (h | h)
    · exact h.trans (List.prefix_append s _).isInfix
    · exact h.trans ((List.suffix_cons c r).trans (List.suffix_append s _)).isInfix

/-- A pattern without colons that does not begin with a blank occurs in two texts with a colon and a
blank between them if it occurs in one of them. -/
theorem occursInAnyCase_joined {pattern m t : String} (hcolon : ':' ∉ pattern.toList.map Char.toLower)
    (hblank : (pattern.toList.map Char.toLower).head? ≠ some ' ') :
    OccursInAnyCase pattern (m ++ ": " ++ t)
      ↔ OccursInAnyCase pattern m ∨ OccursInAnyCase pattern t := by
  have hjoined : (m ++ ": " ++ t).toList = m.toList ++ ':' :: ' ' :: t.toList := by
    rw [String.toList_append, String.toList_append, List.append_assoc]
    rfl
  have hpieces : ∀ q, q.map Char.toLower = pattern.toList.map Char.toLower →
      (q <:+: m.toList ++ ':' :: ' ' :: t.toList ↔ q <:+: m.toList ∨ q <:+: t.toList) := by
    intro q hq
    have hfree : ':' ∉ q := fun h => hcolon (hq ▸ List.mem_map.2 ⟨':', h, by decide⟩)
    rw [infix_append_cons_iff hfree, List.infix_cons_iff]
    refine or_congr_right (or_iff_right_of_imp fun h => ?_)
    cases q with
    | nil => exact List.nil_infix
    | cons c q =>
        obtain ⟨rfl, -⟩ := List.cons_prefix_cons.1 h
        rw [← hq] at hblank
        exact absurd rfl hblank
  rw [occursInAnyCase_iff, occursInAnyCase_iff, occursInAnyCase_iff, hjoined, ← exists_or]
  refine exists_congr fun q => ?_
  rw [← or_and_right]
  exact and_congr_left fun hq => hpieces q hq

end EdgeRouting.Text
