import EdgeRouting.Json.Basic
import EdgeRouting.Text.Digits
import EdgeRouting.Text.Read

/-!
# Reading JSON

A reader over the characters of a text. Each step answers the value it found together with the rest
of the text, which is shorter than what it was given; that is what makes the reader total without a
bound on the nesting of the text.
-/

namespace EdgeRouting.Json

open Text (Read hexValue? natOfDigits overflowsDouble)

def isSpace (c : Char) : Bool := c = ' ' || c = '\n' || c = '\t' || c = '\r'

def skip (s : List Char) : List Char := s.dropWhile isSpace

theorem length_skip_le (s : List Char) : (skip s).length ≤ s.length :=
  (List.dropWhile_sublist _).length_le

theorem length_lt_of_skip {s r : List Char} {c : Char} (h : skip s = c :: r) :
    r.length < s.length := by
  have := length_skip_le s
  rw [h] at this
  simp only [List.length_cons] at this
  omega

/-! ## Strings -/

def hexUnit? (a b c d : Char) : Option Nat := do
  let a ← hexValue? a
  let b ← hexValue? b
  let c ← hexValue? c
  let d ← hexValue? d
  some (((a * 16 + b) * 16 + c) * 16 + d)

/-- One unit of a string: a character, or a 16-bit code that may be half of a pair. -/
inductive StringUnit where
  | char (c : Char)
  | code (n : Nat)

def simpleEscape? : Char → Option Char
  | '"' => some '"'
  | '\\' => some '\\'
  | '/' => some '/'
  | 'b' => some '\x08'
  | 'f' => some '\x0c'
  | 'n' => some '\n'
  | 'r' => some '\r'
  | 't' => some '\t'
  | _ => none

/-- The units of a string up to its closing quotation mark. -/
def readUnits (s : List Char) : Option (Read (List StringUnit) s) :=
  match s with
  | [] => none
  | '"' :: r => some ⟨[], r, by simp⟩
  | '\\' :: 'u' :: a :: b :: c :: d :: r =>
    match hexUnit? a b c d, readUnits r with
    | some n, some t => some ⟨.code n :: t.val, t.rest, by have := t.lt; simp; omega⟩
    | _, _ => none
  | '\\' :: e :: r =>
    match simpleEscape? e, readUnits r with
    | some c, some t => some ⟨.char c :: t.val, t.rest, by have := t.lt; simp; omega⟩
    | _, _ => none
  | c :: r =>
    if c.toNat < 0x20 || c = '\\' then none
    else match readUnits r with
      | some t => some ⟨.char c :: t.val, t.rest, by have := t.lt; simp; omega⟩
      | none => none

/-- The text that units denote: a pair of codes from the two surrogate ranges is one character, and
half a pair denotes none. -/
def textOfUnits : List StringUnit → Option (List Char)
  | [] => some []
  | .char c :: r => (textOfUnits r).map (c :: ·)
  | .code n :: .code m :: r =>
    if 0xD800 ≤ n && n < 0xDC00 then
      if 0xDC00 ≤ m && m < 0xE000 then
        (textOfUnits r).map (Char.ofNat (0x10000 + (n - 0xD800) * 0x400 + (m - 0xDC00)) :: ·)
      else none
    else if 0xDC00 ≤ n && n < 0xE000 then none
    else (textOfUnits (.code m :: r)).map (Char.ofNat n :: ·)
  | .code n :: r =>
    if 0xD800 ≤ n && n < 0xE000 then none else (textOfUnits r).map (Char.ofNat n :: ·)

/-- A string behind its opening quotation mark: its text, if it denotes one. -/
def readText (s : List Char) : Option (Read (Option String) s) :=
  match readUnits s with
  | some u => some ⟨(textOfUnits u.val).map String.ofList, u.rest, u.lt⟩
  | none => none

/-! ## Numbers -/

/-- The digits at the front of a text, of which there must be one. -/
def digits? (s : List Char) : Option (List Char × List Char) :=
  match s.takeWhile Char.isDigit with
  | [] => none
  | ds => some (ds, s.dropWhile Char.isDigit)

/-- The integer part of a number: one zero, or digits that do not begin with zero. -/
def integerPart? : List Char → Option (List Char × List Char)
  | '0' :: c :: r => if c.isDigit then none else some (['0'], c :: r)
  | ['0'] => some (['0'], [])
  | s => digits? s

def fractionPart? : List Char → Option (List Char × List Char)
  | '.' :: r => (digits? r).map fun p => ('.' :: p.1, p.2)
  | s => some ([], s)

def exponentPart? : List Char → Option (List Char × List Char)
  | c :: r =>
    if c = 'e' || c = 'E' then
      match r with
      | '+' :: r' => (digits? r').map fun p => (c :: '+' :: p.1, p.2)
      | '-' :: r' => (digits? r').map fun p => (c :: '-' :: p.1, p.2)
      | _ => (digits? r).map fun p => (c :: p.1, p.2)
    else some ([], c :: r)
  | [] => some ([], [])

/-- The number that a sign and three parts denote. The negative zero is no integer. -/
def numberOf (negative : Bool) (whole fraction exponent : List Char) : Number :=
  let sign := if negative then ['-'] else []
  let n : Int := if negative then -(natOfDigits whole : Int) else natOfDigits whole
  if fraction.isEmpty && exponent.isEmpty && integerRange n && !(negative && n = 0) then
    .integer n
  else .decimal (String.ofList (sign ++ whole ++ fraction ++ exponent))

def number? (s : List Char) : Option (Number × List Char) := do
  let negative := s.head? = some '-'
  let (whole, r) ← integerPart? (if negative then s.tail else s)
  let (fraction, r) ← fractionPart? r
  let (exponent, r) ← exponentPart? r
  some (numberOf negative whole fraction exponent, r)

/-- A number at the front of `s`. -/
def readNumber (s : List Char) : Option (Read Number s) :=
  (number? s).bind fun p => Read.of? s p.1 p.2

/-! ## Values -/

/-- A word of the grammar at the front of `s`. -/
def readWord (word : List Char) (s : List Char) : Option (Read Unit s) :=
  if h : word ≠ [] ∧ word <+: s then
    some ⟨(), s.drop word.length, by
      have := List.length_pos_iff.2 h.1
      have := h.2.length_le
      simp only [List.length_drop]
      omega⟩
  else none

mutual

/-- One value, with blanks before it. -/
def readValue (s : List Char) : Option (Read Json s) :=
  match hs : skip s with
  | [] => none
  | '"' :: r =>
    match readText r with
    | some t =>
      some ⟨t.val.elim .brokenText .text, t.rest, by
        have := t.lt; have := length_lt_of_skip hs; omega⟩
    | none => none
  | '[' :: r =>
    have hr : r.length < s.length := length_lt_of_skip hs
    match hr' : skip r with
    | ']' :: r' => some ⟨.array [], r', by have := length_lt_of_skip hr'; omega⟩
    | _ =>
      match readItems r with
      | some items => some ⟨.array items.val, items.rest, by have := items.lt; omega⟩
      | none => none
  | '\x7b' :: r =>
    have hr : r.length < s.length := length_lt_of_skip hs
    match hr' : skip r with
    | '\x7d' :: r' => some ⟨.object [], r', by have := length_lt_of_skip hr'; omega⟩
    | _ =>
      match readMembers r with
      | some members => some ⟨.object members.val, members.rest, by have := members.lt; omega⟩
      | none => none
  | c :: r =>
    have hc : (c :: r).length ≤ s.length := hs ▸ length_skip_le s
    if c = 't' then
      (readWord ['t', 'r', 'u', 'e'] (c :: r)).map fun w => ⟨.bool true, w.rest, by
        have := w.lt; omega⟩
    else if c = 'f' then
      (readWord ['f', 'a', 'l', 's', 'e'] (c :: r)).map fun w => ⟨.bool false, w.rest, by
        have := w.lt; omega⟩
    else if c = 'n' then
      (readWord ['n', 'u', 'l', 'l'] (c :: r)).map fun w => ⟨.null, w.rest, by
        have := w.lt; omega⟩
    else
      (readNumber (c :: r)).map fun n => ⟨.number n.val, n.rest, by have := n.lt; omega⟩
termination_by 2 * s.length

/-- The values of an array up to its closing bracket. -/
def readItems (s : List Char) : Option (Read (List Json) s) :=
  match readValue s with
  | none => none
  | some v =>
    have hv : v.rest.length < s.length := v.lt
    match hr : skip v.rest with
    | ']' :: r => some ⟨[v.val], r, by have := length_lt_of_skip hr; omega⟩
    | ',' :: r =>
      have hlt : r.length < s.length := by have := length_lt_of_skip hr; omega
      match readItems r with
      | some items => some ⟨v.val :: items.val, items.rest, by have := items.lt; omega⟩
      | none => none
    | _ => none
termination_by 2 * s.length + 1

/-- The members of an object up to its closing brace. -/
def readMembers (s : List Char) : Option (Read (List (Option String × Json)) s) :=
  match hs : skip s with
  | '"' :: r =>
    have hr : r.length < s.length := length_lt_of_skip hs
    match readText r with
    | none => none
    | some name =>
      have hn : name.rest.length < r.length := name.lt
      match hc : skip name.rest with
      | ':' :: r' =>
        have hr' : r'.length < name.rest.length := length_lt_of_skip hc
        match readValue r' with
        | none => none
        | some v =>
          have hv : v.rest.length < r'.length := v.lt
          match he : skip v.rest with
          | '\x7d' :: e => some ⟨[(name.val, v.val)], e, by have := length_lt_of_skip he; omega⟩
          | ',' :: e =>
            have hlt : e.length < s.length := by have := length_lt_of_skip he; omega
            match readMembers e with
            | some more =>
              some ⟨(name.val, v.val) :: more.val, more.rest, by have := more.lt; omega⟩
            | none => none
          | _ => none
      | _ => none
  | _ => none
termination_by 2 * s.length + 1

end

/-- The value of a whole text: one value with nothing but blanks around it. -/
def read (s : String) : Option Json :=
  match readValue s.toList with
  | some v => if (skip v.rest).isEmpty then some v.val else none
  | none => none

/-! ## Plain values

A value is plain when it denotes data that every consumer can hold: all of its strings are texts,
its numbers are within the range of a double, and it is nested at most 127 deep. -/

def Number.inRange : Number → Bool
  | .integer _ => true
  | .decimal written =>
    let isMark (c : Char) : Bool := c = 'e' || c = 'E'
    let mantissa := written.toList.takeWhile fun c => !isMark c
    let whole := (mantissa.takeWhile (· ≠ '.')).filter Char.isDigit
    let fraction := (mantissa.dropWhile (· ≠ '.')).filter Char.isDigit
    let tail := (written.toList.dropWhile fun c => !isMark c).tail
    let size := natOfDigits (tail.filter Char.isDigit)
    let exponent : Int := if tail.head? = some '-' then -(size : Int) else size
    !overflowsDouble (natOfDigits (whole ++ fraction)) (exponent - fraction.length)

mutual

def isPlainWithin (depth : Nat) : Json → Bool
  | .null | .bool _ | .text _ => true
  | .number n => n.inRange
  | .brokenText => false
  | .array items => match depth with
    | 0 => false
    | d + 1 => arePlainWithin d items
  | .object members => match depth with
    | 0 => false
    | d + 1 => membersArePlainWithin d members

def arePlainWithin (depth : Nat) : List Json → Bool
  | [] => true
  | j :: r => isPlainWithin depth j && arePlainWithin depth r

def membersArePlainWithin (depth : Nat) : List (Option String × Json) → Bool
  | [] => true
  | (name, j) :: r => name.isSome && isPlainWithin depth j && membersArePlainWithin depth r

end

/-- The deepest nesting of a plain value. -/
def maxDepth : Nat := 127

def isPlain (j : Json) : Bool := isPlainWithin maxDepth j

end EdgeRouting.Json
