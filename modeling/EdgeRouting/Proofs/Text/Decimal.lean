/-!
# Numbers in decimal

A number is written with digits only (`isDigit_of_mem_natText`) and is read again from them
(`number?_natText`), so different numbers have different texts.
-/

namespace EdgeRouting.Text

variable {n : Nat} {c : Char}

theorem isDigit_of_mem_toDigits (h : c ∈ Nat.toDigits 10 n) : c.isDigit = true :=
  Nat.isDigit_of_mem_toDigits (by decide) (by decide) h

theorem toList_natText (n : Nat) : (toString n).toList = Nat.toDigits 10 n := by
  rw [Nat.toString_eq_repr, Nat.toList_repr]

theorem isDigit_of_mem_natText (h : c ∈ (toString n).toList) : c.isDigit = true := by
  rw [toList_natText] at h
  exact isDigit_of_mem_toDigits h

/-- The number that digits are written for. -/
def number? (digits : List Char) : Option Nat :=
  if digits ≠ [] ∧ digits.all Char.isDigit then some (Nat.ofDigitChars 10 digits 0) else none

theorem number?_natText (n : Nat) : number? (toString n).toList = some n := by
  have hdigits : (Nat.toDigits 10 n).all Char.isDigit = true :=
    List.all_eq_true.2 fun _ hc => isDigit_of_mem_toDigits hc
  rw [toList_natText, number?, if_pos ⟨Nat.toDigits_ne_nil, hdigits⟩,
    Nat.ofDigitChars_ten_toDigits]

theorem natText_inj {m : Nat} (h : toString m = toString n) : m = n := by
  have hread := number?_natText m
  rw [h, number?_natText] at hread
  exact (Option.some.inj hread).symm

end EdgeRouting.Text
