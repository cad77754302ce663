import Mathlib.Data.List.Nodup
import EdgeRouting.Target

/-!
# Names that stand together

A name is a word of ASCII, so its lower case is one too, of the same characters. What follows from
`WellNamed` for a set of targets: the keys are not empty, and targets with the same name, key or
backend are the same target of the list.
-/

namespace EdgeRouting

theorem toNat_lt_of_isNameStart {c : Char} (h : isNameStart c = true) : c.toNat < 0x80 := by
  have hletter : (c.isUpper || c.isLower) = true := h
  show c.val.toNat < 0x80
  rcases Bool.or_eq_true_iff.1 hletter with hupper | hlower
  · have hle : 'A'.val ≤ c.val ∧ c.val ≤ 'Z'.val := of_decide_eq_true hupper
    exact Nat.lt_of_le_of_lt (UInt32.le_iff_toNat_le.1 hle.2) (by decide)
  · have hle : decide (c.val ≤ 'z'.val) = true := (Bool.and_eq_true_iff.1 hlower).2
    exact Nat.lt_of_le_of_lt (UInt32.le_iff_toNat_le.1 (of_decide_eq_true hle)) (by decide)

theorem toNat_lt_of_isNameChar {c : Char} (h : isNameChar c = true) : c.toNat < 0x80 := by
  simp only [isNameChar, Char.isAlphanum, Bool.or_eq_true, decide_eq_true_eq] at h
  rcases h with (halpha | hdigit) | rfl
  · exact toNat_lt_of_isNameStart halpha
  · have hle : decide (c.val ≤ '9'.val) = true := (Bool.and_eq_true_iff.1 hdigit).2
    exact Nat.lt_of_le_of_lt (UInt32.le_iff_toNat_le.1 (of_decide_eq_true hle)) (by decide)
  · decide

theorem isNameChar_of_isNameStart {c : Char} (h : isNameStart c = true) : isNameChar c = true := by
  have hletter : c.isAlpha = true := h
  simp [isNameChar, Char.isAlphanum, hletter]

theorem isNameChar_toLower {c : Char} (h : isNameChar c = true) : isNameChar c.toLower = true := by
  have hlower : isNameChar c = true → isNameChar c.toLower = true :=
    Text.ascii_induction (toNat_lt_of_isNameChar h) (by decide)
  exact hlower h

section Characters

variable {name : String} {c : Char}

theorem isNameChar_of_mem (h : isTargetName name = true) (hc : c ∈ name.toList) :
    isNameChar c = true := by
  unfold isTargetName at h
  cases hname : name.toList with
  | nil => simp [hname] at hc
  | cons first r =>
      rw [hname] at h hc
      obtain ⟨hfirst, hr⟩ := Bool.and_eq_true_iff.1 h
      rcases List.mem_cons.1 hc with rfl | hc
      · exact isNameChar_of_isNameStart hfirst
      · exact List.all_eq_true.1 hr c hc

theorem isNameChar_of_mem_lower (h : isTargetName name = true)
    (hc : c ∈ (Text.lower name).toList) : isNameChar c = true := by
  have hascii : ∀ d ∈ name.toList, d.toNat < 0x80 :=
    fun d hd => toNat_lt_of_isNameChar (isNameChar_of_mem h hd)
  rw [Text.lower, String.toList_ofList, Text.lowerChars_ascii hascii] at hc
  obtain ⟨d, hd, rfl⟩ := List.mem_map.1 hc
  exact isNameChar_toLower (isNameChar_of_mem h hd)

end Characters

/-- The lower case of a name begins with the lower case of its first letter. -/
theorem lower_ne_empty_of_isTargetName {name : String} (h : isTargetName name = true) :
    Text.lower name ≠ "" := by
  unfold isTargetName at h
  cases hs : name.toList with
  | nil => simp [hs] at h
  | cons c r =>
      simp only [hs, Bool.and_eq_true] at h
      have hascii := toNat_lt_of_isNameStart h.1
      intro hempty
      have hchars : Text.lowerChars (c :: r) = [] := by
        simpa [Text.lower, hs] using congrArg String.toList hempty
      rw [Text.lowerChars_cons (Text.ne_capitalSigma_of_ascii hascii),
        Text.lowerChar_ascii hascii] at hchars
      cases hchars

namespace WellNamed

variable {targets : List Target}

theorem isNameChar_of_mem_key (h : WellNamed targets) {t : Target} (ht : t ∈ targets) {c : Char}
    (hc : c ∈ t.key.toList) : isNameChar c = true :=
  isNameChar_of_mem_lower (h.1 t ht) hc

theorem key_ne_empty (h : WellNamed targets) {t : Target} (ht : t ∈ targets) : t.key ≠ "" :=
  lower_ne_empty_of_isTargetName (h.1 t ht)

theorem eq_of_key_eq (h : WellNamed targets) {t u : Target} (ht : t ∈ targets) (hu : u ∈ targets)
    (heq : t.key = u.key) : t = u :=
  List.inj_on_of_nodup_map h.2 ht hu heq

theorem eq_of_name_eq (h : WellNamed targets) {t u : Target} (ht : t ∈ targets) (hu : u ∈ targets)
    (heq : t.name = u.name) : t = u :=
  h.eq_of_key_eq ht hu (congrArg Text.lower heq)

theorem eq_of_backendRef_eq (h : WellNamed targets) {t u : Target} (ht : t ∈ targets)
    (hu : u ∈ targets) (heq : t.backendRef = u.backendRef) : t = u :=
  h.eq_of_name_eq ht hu ((String.append_right_inj _).1 heq)

end WellNamed

end EdgeRouting
