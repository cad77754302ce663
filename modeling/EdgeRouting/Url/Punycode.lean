/-!
# Punycode

The encoding of a label of a domain name in ASCII. The ASCII characters of the label come first; the
others follow as a list of numbers, each of which says how many steps lie between two insertions
when one counts through all places and code points in order. A number is written with the least
digit first, in a base that varies from digit to digit, and its last digit is the first one below a
threshold, so that no separator is needed.
-/

namespace EdgeRouting.Url.Punycode

def digitChar (d : Nat) : Char := if d < 26 then Char.ofNat (97 + d) else Char.ofNat (22 + d)

def digitValue? (c : Char) : Option Nat :=
  if 'a' ≤ c && c ≤ 'z' then some (c.toNat - 97)
  else if 'A' ≤ c && c ≤ 'Z' then some (c.toNat - 65)
  else if '0' ≤ c && c ≤ '9' then some (c.toNat - 22)
  else none

/-- The least digit that is not the last one, at position `k` under a bias. -/
def threshold (k bias : Nat) : Nat :=
  if k ≤ bias then 1 else if bias + 26 ≤ k then 26 else k - bias

theorem threshold_pos (k bias : Nat) : 1 ≤ threshold k bias := by
  unfold threshold
  split
  · omega
  · split <;> omega

theorem threshold_le (k bias : Nat) : threshold k bias ≤ 26 := by
  unfold threshold
  split
  · omega
  · split <;> omega

def adaptFrom (delta k : Nat) : Nat :=
  if 455 < delta then adaptFrom (delta / 35) (k + 36) else k + 36 * delta / (delta + 38)
termination_by delta
decreasing_by omega

/-- The bias after a number: `count` characters have been written, this one among them. -/
def adapt (delta count : Nat) (first : Bool) : Nat :=
  let delta := if first then delta / 700 else delta / 2
  adaptFrom (delta + delta / count) 0

/-! ## Encoding -/

/-- The digits of a number from position `k` on. -/
def digits (bias k q : Nat) : List Char :=
  let t := threshold k bias
  if q < t then [digitChar q]
  else digitChar (t + (q - t) % (36 - t)) :: digits bias (k + 36) ((q - t) / (36 - t))
termination_by q
decreasing_by
  have h1 := threshold_pos k bias
  have h2 := threshold_le k bias
  have : (q - threshold k bias) / (36 - threshold k bias) ≤ q - threshold k bias :=
    Nat.div_le_self _ _
  omega

structure Encoder where
  output : List Char
  delta : Nat
  bias : Nat
  count : Nat
  first : Bool

/-- Counts one character of the label against the code point `m`, and writes the number of steps if
it is that very one. -/
def encodeChar (m : Nat) (e : Encoder) (c : Char) : Encoder :=
  if c.toNat < m then { e with delta := e.delta + 1 }
  else if c.toNat = m then
    ⟨e.output ++ digits e.bias 36 e.delta, 0, adapt e.delta (e.count + 1) e.first, e.count + 1,
      false⟩
  else e

/-- Writes the characters with code points in `codes`, which ascend from `n`. -/
def encodeCodes (label : List Char) (n : Nat) (e : Encoder) : List Nat → List Char
  | [] => e.output
  | m :: r =>
    let e := label.foldl (encodeChar m) { e with delta := e.delta + (m - n) * (e.count + 1) }
    encodeCodes label (m + 1) { e with delta := e.delta + 1 } r

def isAscii (c : Char) : Bool := c.toNat < 0x80

def encode (label : List Char) : List Char :=
  let basic := label.filter isAscii
  let codes := ((label.filter fun c => !isAscii c).map Char.toNat).mergeSort.eraseDups
  let start := if basic.isEmpty then [] else basic ++ ['-']
  encodeCodes label 128 ⟨start, 0, 72, basic.length, true⟩ codes

/-! ## Decoding -/

structure Decoder where
  output : List Char
  code : Nat
  place : Nat
  bias : Nat
  /-- The number that is being read: its value so far, the weight of its next digit, and the
  position of that digit, which is 36 at the beginning of a number. -/
  value : Nat
  weight : Nat
  position : Nat

/-- Inserts a character after its number has been read. -/
def Decoder.insert? (d : Decoder) : Option Decoder :=
  let count := d.output.length + 1
  let steps := d.place + d.value
  let code := d.code + steps / count
  if 0x10FFFF < code || (0xD800 ≤ code && code < 0xE000) then none
  else some ⟨d.output.insertIdx (steps % count) (Char.ofNat code), code, steps % count + 1,
    adapt d.value count (d.place = 0), 0, 1, 36⟩

/-- Reads one digit. -/
def Decoder.step? (d : Decoder) (c : Char) : Option Decoder := do
  let digit ← digitValue? c
  let d := { d with value := d.value + digit * d.weight }
  let t := threshold d.position d.bias
  if digit < t then d.insert?
  else some { d with weight := d.weight * (36 - t), position := d.position + 36 }

/-- The text before the last hyphen, if there is one, and the text after it. -/
def cutAtLastHyphen (s : List Char) : List Char × List Char :=
  let tail := (s.reverse.takeWhile (· ≠ '-')).reverse
  (s.take (s.length - tail.length - 1), tail)

/-- The label that an encoding stands for. -/
def decode? (s : List Char) : Option (List Char) := do
  let (basic, rest) := cutAtLastHyphen s
  let d ← rest.foldlM Decoder.step? ⟨basic, 128, 0, 72, 0, 1, 36⟩
  if d.position = 36 then some d.output else none

end EdgeRouting.Url.Punycode
