/-!
# Shares in percent

A share is written in percent with one decimal. It is first rounded to a binary fraction of 53 bits,
and a half then goes to the even neighbour, both times; a share that lies on the middle between two
decimals is therefore written by where its binary fraction lies.
-/

namespace EdgeRouting.Text

/-- A quotient rounded to the nearest integer, a half to the even one. -/
def roundedQuotient (a b : Nat) : Nat :=
  let q := a / b
  let r := a % b
  if b < 2 * r || (b = 2 * r && q % 2 = 1) then q + 1 else q

/-- How many places a fraction of at most 2 ^ 52 has behind the point if it has 53 bits in all. -/
def binaryPlaces (a b : Nat) : Nat :=
  let k := a.log2
  let l := b.log2
  if b <<< k ≤ a <<< l then 52 + l - k else 53 + l - k

/-- The tenths of a percent that a part is of a whole. -/
def tenthsOfPercent (part whole : Nat) : Nat :=
  if part = 0 then 0
  else
    let places := binaryPlaces (part * 100) whole
    roundedQuotient (roundedQuotient ((part * 100) <<< places) whole * 10) (1 <<< places)

/-- A part of a whole in percent. Nothing has no share. -/
def shareText (part whole : Nat) : String :=
  let n := if whole = 0 then 0 else tenthsOfPercent part whole
  toString (n / 10) ++ "." ++ toString (n % 10) ++ "%"

/-- A text with spaces behind it, so that it is at least so wide. -/
def padRight (width : Nat) (s : String) : String :=
  s ++ String.ofList (List.replicate (width - s.length) ' ')

end EdgeRouting.Text
