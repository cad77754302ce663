import EdgeRouting.Text.LowerCase

/-!
# What lower case turns out

Of every character that lower case turns out, lower case makes that character again
(`isLower_of_mem_lowerChar`), so a text in lower case stays as it is (`lower_lower`). Word ends do
not matter then: there is no capital sigma left.

Outside ASCII only two characters have an ASCII letter in their lower case: the Kelvin sign becomes
a `k`, and the dotted capital I becomes an `i` with a dot above behind it (`lowerChar_of_beyond`).

Both are read off the table of runs. That no run sends anything to where a run begins anew is
checked for all code points at once: the code points of the runs and those that they are sent to are
taken as the bits of two numbers, which have no bit in common (`not_covers_image`).
-/

namespace EdgeRouting.Text

/-! ## Runs -/

/-- A set of numbers as the number that has their bits. -/
def bitsOf (l : List Nat) : Nat := l.foldr (fun n bits => bits ||| 1 <<< n) 0

theorem testBit_bitsOf (l : List Nat) (n : Nat) : (bitsOf l).testBit n = decide (n ∈ l) := by
  induction l with
  | nil => simp [bitsOf]
  | cons m r ih =>
      have hbits : bitsOf (m :: r) = bitsOf r ||| 1 <<< m := rfl
      rw [hbits, Nat.testBit_or, ih, Nat.one_shiftLeft, Nat.testBit_two_pow, Bool.or_comm]
      simp only [List.mem_cons, eq_comm, Bool.decide_or]

theorem not_mem_of_bitsOf_eq_zero {l l' : List Nat} (h : bitsOf l &&& bitsOf l' = 0) {n : Nat}
    (hn : n ∈ l) : n ∉ l' := by
  intro hn'
  have hbit : (bitsOf l &&& bitsOf l').testBit n = true := by
    simp [Nat.testBit_and, testBit_bitsOf, hn, hn']
  rw [h, Nat.zero_testBit] at hbit
  cases hbit

namespace CaseRun

/-- The code points of a run. -/
def codes (r : CaseRun) : List Nat :=
  (List.range ((r.last - r.first) / r.step + 1)).map fun k => r.first + k * r.step

/-- What a code point of the run is sent to. -/
def image (r : CaseRun) (n : Nat) : Nat := (n + r.shift).toNat

theorem mem_codes_of_covers {r : CaseRun} {n : Nat} (h : r.covers n = true) : n ∈ r.codes := by
  simp only [covers, Bool.and_eq_true, decide_eq_true_eq, beq_iff_eq] at h
  obtain ⟨⟨hfirst, hlast⟩, hstep⟩ := h
  have hle : (n - r.first) / r.step ≤ (r.last - r.first) / r.step :=
    Nat.div_le_div_right (Nat.sub_le_sub_right hlast r.first)
  have hcode : r.first + (n - r.first) / r.step * r.step = n := by
    rw [Nat.div_mul_cancel (Nat.dvd_of_mod_eq_zero hstep)]
    omega
  exact List.mem_map.2 ⟨_, List.mem_range.2 (Nat.lt_succ_of_le hle), hcode⟩

end CaseRun

/-- The code points that have a lower case by some run. -/
def capitalCodes : List Nat := caseRuns.flatMap CaseRun.codes

/-- The code points that they are sent to. -/
def loweredCodes : List Nat := caseRuns.flatMap fun r => r.codes.map r.image

/-- The code point of a character that is not the dotted capital I and, if it is in ASCII, is that
of `k`. -/
def isLoweredCode (n : Nat) : Bool :=
  (n.blt 0xD800 || (Nat.blt 0xDFFF n && n.blt 0x110000)) && n != 0x130
    && (Nat.ble 0x80 n || n == 0x6B)

section Images

variable {r r' : CaseRun} {n : Nat}

theorem image_mem_loweredCodes (hr : r ∈ caseRuns) (h : r.covers n = true) :
    r.image n ∈ loweredCodes :=
  List.mem_flatMap.2 ⟨r, hr, List.mem_map_of_mem (CaseRun.mem_codes_of_covers h)⟩

theorem isLoweredCode_image (hr : r ∈ caseRuns) (h : r.covers n = true) :
    ((r.image n < 0xD800 ∨ 0xDFFF < r.image n ∧ r.image n < 0x110000) ∧ r.image n ≠ 0x130)
      ∧ (0x80 ≤ r.image n ∨ r.image n = 0x6B) := by
  have hall : loweredCodes.all isLoweredCode = true := by decide +kernel
  simpa [isLoweredCode, Nat.blt_eq, Nat.ble_eq] using
    List.all_eq_true.1 hall _ (image_mem_loweredCodes hr h)

theorem not_covers_image (hr : r ∈ caseRuns) (hr' : r' ∈ caseRuns) (h : r.covers n = true) :
    ¬ r'.covers (r.image n) = true := by
  have hdisjoint : bitsOf loweredCodes &&& bitsOf capitalCodes = 0 := by decide +kernel
  intro h'
  exact not_mem_of_bitsOf_eq_zero hdisjoint (image_mem_loweredCodes hr h)
    (List.mem_flatMap.2 ⟨r', hr', CaseRun.mem_codes_of_covers h'⟩)

theorem find?_image (hr : r ∈ caseRuns) (h : r.covers n = true) :
    (caseRuns.find? fun r' => r'.covers (r.image n)) = none :=
  List.find?_eq_none.2 fun _ hr' => not_covers_image hr hr' h

/-- A code point is sent to one of a character. -/
theorem toNat_ofNat_image (hr : r ∈ caseRuns) (h : r.covers n = true) :
    (Char.ofNat (r.image n)).toNat = r.image n := by
  have hvalid : (r.image n).isValidChar := by
    have hcode := (isLoweredCode_image hr h).1.1
    unfold Nat.isValidChar
    omega
  rw [Char.ofNat, dif_pos hvalid]
  exact UInt32.toNat_ofNatLT

end Images

/-! ## Characters -/

/-- A character that lower case leaves alone wherever it stands. -/
structure IsLower (c : Char) : Prop where
  ne_sigma : c ≠ capitalSigma
  lowerChar_eq : lowerChar c = [c]

variable {c d : Char}

/-- How lower case goes about a character outside ASCII. -/
theorem lowerChar_cases (hc : 0x80 ≤ c.toNat) :
    lowerChar c = ['i', Char.ofNat 0x307]
      ∨ (∃ r ∈ caseRuns, r.covers c.toNat = true ∧ lowerChar c = [Char.ofNat (r.image c.toNat)])
      ∨ lowerChar c = [c] := by
  by_cases hdotted : c.toNat = 0x130
  · left
    rw [lowerChar, if_neg (Nat.not_lt.2 hc), if_pos hdotted]
  right
  rw [lowerChar, if_neg (Nat.not_lt.2 hc), if_neg hdotted]
  split
  · next r hrun =>
    have hcovers := List.find?_some hrun
    exact .inl ⟨r, List.mem_of_find?_eq_some hrun, hcovers, rfl⟩
  · exact .inr rfl

theorem isLower_toLower (h : c.toNat < 0x80) : IsLower c.toLower := by
  obtain ⟨hascii, hlower⟩ : c.toLower.toNat < 0x80 ∧ c.toLower.toLower = c.toLower :=
    ascii_induction h (by decide)
  refine ⟨ne_capitalSigma_of_ascii hascii, ?_⟩
  rw [lowerChar_ascii hascii, hlower]

theorem isLower_ofNat_image {r : CaseRun} {n : Nat} (hr : r ∈ caseRuns) (h : r.covers n = true) :
    IsLower (Char.ofNat (r.image n)) := by
  have hcode := toNat_ofNat_image hr h
  obtain ⟨⟨-, hdotted⟩, hbeyond | hkelvin⟩ := isLoweredCode_image hr h
  · constructor
    · intro hsigma
      have hnone := find?_image hr h
      rw [← hcode, hsigma] at hnone
      revert hnone
      decide
    · rw [lowerChar, hcode, if_neg (Nat.not_lt.2 hbeyond), if_neg hdotted, find?_image hr h]
  · rw [hkelvin]
    exact ⟨by decide, by decide⟩

/-- Lower case turns out characters that it leaves alone. -/
theorem isLower_of_mem_lowerChar (hsigma : c ≠ capitalSigma) (h : d ∈ lowerChar c) :
    IsLower d := by
  by_cases hc : c.toNat < 0x80
  · rw [lowerChar_ascii hc] at h
    obtain rfl := List.mem_singleton.1 h
    exact isLower_toLower hc
  · rcases lowerChar_cases (Nat.not_lt.1 hc) with hdotted | ⟨r, hr, hcovers, hrun⟩ | hself
    · rw [hdotted] at h
      simp only [List.mem_cons, List.not_mem_nil, or_false] at h
      rcases h with rfl | rfl
      · exact ⟨by decide, by decide⟩
      · exact ⟨by decide, by decide +kernel⟩
    · rw [hrun] at h
      obtain rfl := List.mem_singleton.1 h
      exact isLower_ofNat_image hr hcovers
    · rw [hself] at h
      obtain rfl := List.mem_singleton.1 h
      exact ⟨hsigma, hself⟩

theorem isLower_lowerSigma (before after : List Char) : IsLower (lowerSigma before after) := by
  unfold lowerSigma
  split
  · exact ⟨by decide, by decide +kernel⟩
  · exact ⟨by decide, by decide +kernel⟩

/-- What a character outside ASCII becomes: one character, in ASCII only as a `k`, or an `i` with a
dot above behind it. -/
theorem lowerChar_of_beyond (hc : 0x80 ≤ c.toNat) :
    (∃ d, lowerChar c = [d] ∧ (d.toNat < 0x80 → d = 'k'))
      ∨ lowerChar c = ['i', Char.ofNat 0x307] := by
  rcases lowerChar_cases hc with hdotted | ⟨r, hr, hcovers, hrun⟩ | hself
  · exact .inr hdotted
  · refine .inl ⟨_, hrun, ?_⟩
    rw [toNat_ofNat_image hr hcovers]
    intro hlt
    obtain ⟨-, hbeyond | hkelvin⟩ := isLoweredCode_image hr hcovers
    · exact absurd hbeyond (Nat.not_le.2 hlt)
    · rw [hkelvin]
  · exact .inl ⟨c, hself, fun hlt => absurd hc (Nat.not_le.2 hlt)⟩

/-! ## Texts -/

theorem isLower_of_mem_lowerCharsAfter {before s : List Char} (h : d ∈ lowerCharsAfter before s) :
    IsLower d := by
  induction s generalizing before with
  | nil => cases h
  | cons c r ih =>
      rw [lowerCharsAfter] at h
      rcases List.mem_append.1 h with hfirst | hrest
      · split at hfirst
        · obtain rfl := List.mem_singleton.1 hfirst
          exact isLower_lowerSigma _ _
        · next hsigma => exact isLower_of_mem_lowerChar hsigma hfirst
      · exact ih hrest

theorem lowerCharsAfter_of_isLower {s : List Char} (h : ∀ c ∈ s, IsLower c) (before : List Char) :
    lowerCharsAfter before s = s := by
  induction s generalizing before with
  | nil => rfl
  | cons c r ih =>
      obtain ⟨hc, hr⟩ := List.forall_mem_cons.1 h
      rw [lowerCharsAfter, if_neg hc.ne_sigma, hc.lowerChar_eq, ih hr, List.singleton_append]

/-- Lower case leaves a text in lower case as it is. -/
theorem lower_lower (s : String) : lower (lower s) = lower s := by
  have hchars : lowerChars (lowerChars s.toList) = lowerChars s.toList :=
    lowerCharsAfter_of_isLower (fun _ => isLower_of_mem_lowerCharsAfter) []
  rw [lower, lower, String.toList_ofList, hchars]

end EdgeRouting.Text
