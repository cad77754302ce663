/-!
# Digits

What digits denote.
-/

namespace EdgeRouting.Text

/-- The value of a hexadecimal digit. -/
def hexValue? (c : Char) : Option Nat :=
  if '0' ≤ c && c ≤ '9' then some (c.toNat - 48)
  else if 'a' ≤ c && c ≤ 'f' then some (c.toNat - 87)
  else if 'A' ≤ c && c ≤ 'F' then some (c.toNat - 55)
  else none

/-- The number that decimal digits denote. -/
def natOfDigits (ds : List Char) : Nat := ds.foldl (fun n c => n * 10 + (c.toNat - 48)) 0

/-- The number that digits denote in a base up to sixteen, if they all belong to the base. -/
def natInBase? (base : Nat) (ds : List Char) : Option Nat :=
  ds.foldl (fun n c => do
    let n ← n
    let d ← hexValue? c
    if d < base then some (n * base + d) else none) (some 0)

/-- Digits and a decimal exponent denote a number that no double reaches: from the middle between
the largest double and the next power of two upwards. -/
def overflowsDouble (digits : Nat) (exponent : Int) : Bool :=
  let limit : Nat := (1 <<< 1024) - (1 <<< 970)
  let size : Int := (Nat.toDigits 10 digits).length + exponent
  if digits = 0 || size < 300 then false
  else if 320 < size then true
  else if 0 ≤ exponent then limit ≤ digits * Nat.pow 10 exponent.toNat
  else limit * Nat.pow 10 (-exponent).toNat ≤ digits

end EdgeRouting.Text
