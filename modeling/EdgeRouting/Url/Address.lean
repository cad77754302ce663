import EdgeRouting.Text.Pieces
import EdgeRouting.Url.Fault
import EdgeRouting.Url.Percent

/-!
# Internet addresses

Addresses of version 4 have up to four numbers, each decimal, octal or hexadecimal, of which the
last one fills the bytes that are left. Addresses of version 6 have eight pieces of sixteen bits, a
run of which may be left out, and the last two of which may be written as a version 4 address.
-/

namespace EdgeRouting.Url

open Text (joinPieces natInBase?)

/-! ## Version 4 -/

/-- A number of an address: hexadecimal behind `0x`, octal behind a zero, and else decimal. -/
def ipv4Number? : List Char → Option Nat
  | [] => none
  | '0' :: 'x' :: r => natInBase? 16 r
  | '0' :: 'X' :: r => natInBase? 16 r
  | '0' :: c :: r => natInBase? 8 (c :: r)
  | s => natInBase? 10 s

/-- The pieces of a name between dots, without the empty one behind a final dot. -/
def dottedPieces (s : List Char) : List (List Char) :=
  let pieces := Text.pieces '.' s
  if 1 < pieces.length && pieces.getLast? = some [] then pieces.dropLast else pieces

/-- A name whose last piece is a number is an address and nothing else. -/
def endsInNumber (s : List Char) : Bool :=
  match (dottedPieces s).getLast? with
  | none => false
  | some p => (!p.isEmpty && p.all Char.isDigit) || (ipv4Number? p).isSome

/-- The address that numbers denote: each but the last one a byte, and the last one the rest. -/
def ipv4OfNumbers? (numbers : List Nat) : Option Nat :=
  match numbers.getLast? with
  | none => none
  | some last =>
    let bytes := numbers.dropLast
    let room := Nat.pow 256 (4 - bytes.length)
    if 4 < numbers.length || bytes.any (255 < ·) || room ≤ last then none
    else some (bytes.foldl (fun n b => n * 256 + b) 0 * room + last)

def parseIpv4 (s : List Char) : Except UrlFault Nat :=
  match ((dottedPieces s).mapM ipv4Number?).bind ipv4OfNumbers? with
  | some n => .ok n
  | none => .error .invalidIpv4

def ipv4Text (n : Nat) : List Char :=
  joinPieces ['.'] ([n / 16777216, n / 65536 % 256, n / 256 % 256, n % 256].map fun b =>
    Nat.toDigits 10 b)

/-! ## Version 6 -/

/-- A number of a version 4 address inside one of version 6: decimal and without leading zeros. -/
def strictByte? (s : List Char) : Option Nat :=
  if s.isEmpty || (1 < s.length && s.head? = some '0') then none
  else (natInBase? 10 s).filter (· < 256)

/-- The pieces of one side of an address; a version 4 address can be the last piece of all. -/
def ipv6Side? (isLast : Bool) : List (List Char) → Option (List Nat)
  | [] => some []
  | [p] =>
    if isLast && p.contains '.' then
      match (Text.pieces '.' p).mapM strictByte? with
      | some [a, b, c, d] => some [a * 256 + b, c * 256 + d]
      | _ => none
    else if p.isEmpty || 4 < p.length then none
    else (natInBase? 16 p).map ([·])
  | p :: ps =>
    if p.isEmpty || 4 < p.length then none
    else do
      let n ← natInBase? 16 p
      let ns ← ipv6Side? isLast ps
      some (n :: ns)

/-- The texts on both sides of the first pair of colons. -/
def cutAtPair : List Char → Option (List Char × List Char)
  | ':' :: ':' :: r => some ([], r)
  | c :: r => (cutAtPair r).map fun p => (c :: p.1, p.2)
  | [] => none

def sideOf (isLast : Bool) (s : List Char) : Option (List Nat) :=
  if s.isEmpty then some [] else ipv6Side? isLast (Text.pieces ':' s)

def parseIpv6? (s : List Char) : Option (List Nat) :=
  match cutAtPair s with
  | none => (sideOf true s).filter (·.length = 8)
  | some (before, after) => do
    let left ← sideOf false before
    let right ← sideOf true after
    if left.length + right.length < 8 then
      some (left ++ List.replicate (8 - left.length - right.length) 0 ++ right)
    else none

def parseIpv6 (s : List Char) : Except UrlFault (List Nat) :=
  match parseIpv6? s with
  | some pieces => .ok pieces
  | none => .error .invalidIpv6

/-- The longest run of zeros with its start, the first one of several. -/
def longestZeros (pieces : List Nat) : Nat × Nat :=
  (List.range pieces.length).foldl (fun best i =>
    let n := ((pieces.drop i).takeWhile (· = 0)).length
    if best.2 < n then (i, n) else best) (0, 0)

/-- An address with its longest run of two or more zeros left out. -/
def ipv6Text (pieces : List Nat) : List Char :=
  let text (l : List Nat) : List Char := joinPieces [':'] (l.map (Nat.toDigits 16))
  let (start, count) := longestZeros pieces
  if count < 2 then text pieces
  else text (pieces.take start) ++ [':', ':'] ++ text (pieces.drop (start + count))

end EdgeRouting.Url
