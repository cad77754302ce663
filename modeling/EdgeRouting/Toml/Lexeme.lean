import EdgeRouting.Text.Digits
import EdgeRouting.Text.Read
import EdgeRouting.Toml.Basic
import EdgeRouting.Word

/-!
# TOML lexemes

Texts, numbers and moments as they are written in TOML. A reader takes the longest lexeme at the
front of its text and leaves it to its caller to refuse what stands behind it.
-/

namespace EdgeRouting.Toml

open Text (Read hexValue? natOfDigits natInBase? overflowsDouble)

/-! ## Blanks -/

def isBlank (c : Char) : Bool := c = ' ' || c = '\t'

def skipBlanks (s : List Char) : List Char := s.dropWhile isBlank

theorem length_skipBlanks_le (s : List Char) : (skipBlanks s).length ≤ s.length :=
  (List.dropWhile_sublist _).length_le

/-- The text behind the line break that it begins with. -/
def lineBreak? : List Char → Option (List Char)
  | '\n' :: r => some r
  | '\r' :: '\n' :: r => some r
  | _ => none

/-- The text behind all blanks and line breaks that it begins with. -/
def skipBreaks : List Char → List Char
  | '\n' :: r => skipBreaks r
  | '\r' :: '\n' :: r => skipBreaks r
  | c :: r => if isBlank c then skipBreaks r else c :: r
  | [] => []

theorem length_skipBreaks_le (s : List Char) : (skipBreaks s).length ≤ s.length := by
  fun_induction skipBreaks s <;> simp <;> omega

/-! ## Texts -/

/-- Characters that a text, or a comment, can hold as they are. -/
def isTextChar (c : Char) : Bool := c = '\t' || 0x20 ≤ c.toNat && c.toNat ≠ 0x7F

def simpleEscape? : Char → Option Char
  | '"' => some '"'
  | '\\' => some '\\'
  | 'b' => some '\x08'
  | 'f' => some '\x0c'
  | 'n' => some '\n'
  | 'r' => some '\r'
  | 't' => some '\t'
  | _ => none

/-- The character whose code hexadecimal digits denote. -/
def charOfHex? (ds : List Char) : Option Char := do
  let n ← natInBase? 16 ds
  if n.isValidChar then some (Char.ofNat n) else none

/-- What an escape stands for, behind its backslash. -/
def escape? : List Char → Option (Char × List Char)
  | 'u' :: r => if r.length < 4 then none else (charOfHex? (r.take 4)).map fun c => (c, r.drop 4)
  | 'U' :: r => if r.length < 8 then none else (charOfHex? (r.take 8)).map fun c => (c, r.drop 8)
  | e :: r => (simpleEscape? e).map fun c => (c, r)
  | [] => none

/-- One character of a text in which escapes count. -/
def readChar (s : List Char) : Option (Read Char s) :=
  match s with
  | '\\' :: r => (escape? r).bind fun p => Read.of? _ p.1 p.2
  | c :: r => if isTextChar c then some ⟨c, r, Nat.lt_succ_self _⟩ else none
  | [] => none

/-- A text in which escapes count, behind its quotation mark. -/
def readBasic (s : List Char) : Option (Read (List Char) s) :=
  match s with
  | '"' :: r => some ⟨[], r, Nat.lt_succ_self _⟩
  | s =>
    match readChar s with
    | none => none
    | some c =>
      have hc : c.rest.length < s.length := c.lt
      (readBasic c.rest).map fun t => ⟨c.val :: t.val, t.rest, Nat.lt_trans t.lt hc⟩
termination_by s.length

/-- A text of several lines in which escapes count, behind its quotation marks. Up to two quotation
marks may stand right before those that end it, and a backslash at the end of a line joins it with
the next one that is not blank. -/
def readBlock (s : List Char) : Option (Read (List Char) s) :=
  match s with
  | '"' :: '"' :: '"' :: '"' :: '"' :: r => some ⟨['"', '"'], r, by simp; omega⟩
  | '"' :: '"' :: '"' :: '"' :: r => some ⟨['"'], r, by simp; omega⟩
  | '"' :: '"' :: '"' :: r => some ⟨[], r, by simp; omega⟩
  | '\n' :: r =>
    (readBlock r).map fun t => ⟨'\n' :: t.val, t.rest, Nat.lt_succ_of_lt t.lt⟩
  | '\r' :: '\n' :: r =>
    (readBlock r).map fun t =>
      ⟨'\n' :: t.val, t.rest, Nat.lt_succ_of_lt (Nat.lt_succ_of_lt t.lt)⟩
  | s =>
    match hs : s with
    | [] => none
    | c :: r =>
      if c = '\\' && (lineBreak? (skipBlanks r)).isSome then
        have hr : (skipBreaks r).length ≤ r.length := length_skipBreaks_le r
        (readBlock (skipBreaks r)).map fun t =>
          ⟨t.val, t.rest, by have := t.lt; simp; omega⟩
      else
        match readChar (c :: r) with
        | none => none
        | some c' =>
          have hc : c'.rest.length < r.length + 1 := c'.lt
          (readBlock c'.rest).map fun t => ⟨c'.val :: t.val, t.rest, Nat.lt_trans t.lt hc⟩
termination_by s.length

/-- A text that stands for itself, behind its apostrophe. -/
def literal? (s : List Char) : Option (List Char × List Char) :=
  let isBody (c : Char) : Bool := isTextChar c && c ≠ '\''
  match s.dropWhile isBody with
  | '\'' :: r => some (s.takeWhile isBody, r)
  | _ => none

/-- A text of several lines that stands for itself, behind its apostrophes. -/
def literalBlock? : List Char → Option (List Char × List Char)
  | '\'' :: '\'' :: '\'' :: '\'' :: '\'' :: r => some (['\'', '\''], r)
  | '\'' :: '\'' :: '\'' :: '\'' :: r => some (['\''], r)
  | '\'' :: '\'' :: '\'' :: r => some ([], r)
  | '\n' :: r => (literalBlock? r).map fun p => ('\n' :: p.1, p.2)
  | '\r' :: '\n' :: r => (literalBlock? r).map fun p => ('\n' :: p.1, p.2)
  | c :: r =>
    if isTextChar c then (literalBlock? r).map fun p => (c :: p.1, p.2) else none
  | [] => none

/-- The text behind a line break, which does not count at the front of a text of several lines. -/
def skipBreak (s : List Char) : List Char := (lineBreak? s).getD s

/-- A text on one line, with its quotation marks. -/
def lineText? : List Char → Option (String × List Char)
  | '"' :: r => (readBasic r).map fun t => (String.ofList t.val, t.rest)
  | '\'' :: r => (literal? r).map fun p => (String.ofList p.1, p.2)
  | _ => none

/-- A text with its quotation marks. -/
def text? : List Char → Option (String × List Char)
  | '"' :: '"' :: '"' :: r =>
    (readBlock (skipBreak r)).map fun t => (String.ofList t.val, t.rest)
  | '\'' :: '\'' :: '\'' :: r =>
    (literalBlock? (skipBreak r)).map fun p => (String.ofList p.1, p.2)
  | s => lineText? s

/-! ## Numbers -/

/-- The digits at the front of a text, each of which may have an underscore before it. -/
def moreDigits (isDigit : Char → Bool) : List Char → List Char × List Char
  | '_' :: c :: r =>
    if isDigit c then
      let more := moreDigits isDigit r
      (c :: more.1, more.2)
    else ([], '_' :: c :: r)
  | c :: r =>
    if isDigit c then
      let more := moreDigits isDigit r
      (c :: more.1, more.2)
    else ([], c :: r)
  | [] => ([], [])

/-- Digits, with single underscores between them. -/
def digits? (isDigit : Char → Bool) : List Char → Option (List Char × List Char)
  | c :: r =>
    if isDigit c then
      let more := moreDigits isDigit r
      some (c :: more.1, more.2)
    else none
  | [] => none

/-- An integer, which has to fit into 64 bits. -/
def integer? (n : Int) : Option Value :=
  if minInt64 ≤ n && n ≤ maxInt64 then some (.integer n) else none

/-- An integer in a base other than ten, behind its mark. -/
def basedInteger? (base : Nat) (s : List Char) : Option (Value × List Char) := do
  let isDigit (c : Char) : Bool := (hexValue? c).any (· < base)
  let (ds, r) ← digits? isDigit s
  let v ← integer? (← natInBase? base ds)
  some (v, r)

/-- The whole part of a number: zero alone, or digits that do not begin with it. -/
def wholePart? : List Char → Option (List Char × List Char)
  | '0' :: r => some (['0'], r)
  | s => digits? Char.isDigit s

def fractionPart? : List Char → Option (List Char × List Char)
  | '.' :: r => digits? Char.isDigit r
  | s => some ([], s)

/-- The exponent of a number, if it has one. -/
def exponentPart? : List Char → Option (Option Int × List Char)
  | c :: r =>
    if c = 'e' || c = 'E' then do
      let negative := r.head? = some '-'
      let (ds, r) ← digits? Char.isDigit (if negative || r.head? = some '+' then r.tail else r)
      let n : Int := natOfDigits ds
      some (some (if negative then -n else n), r)
    else some (none, c :: r)
  | [] => some (none, [])

/-- A number in base ten without its sign. Above the range of a double it is none. -/
def decimal? (negative : Bool) (s : List Char) : Option (Value × List Char) := do
  let (whole, r) ← wholePart? s
  let (fraction, r) ← fractionPart? r
  let (exponent, r) ← exponentPart? r
  if fraction.isEmpty && exponent.isNone then
    let n : Int := natOfDigits whole
    let v ← integer? (if negative then -n else n)
    some (v, r)
  else if !negative
      && overflowsDouble (natOfDigits (whole ++ fraction)) (exponent.getD 0 - fraction.length) then
    none
  else some (.real, r)

def number? : List Char → Option (Value × List Char)
  | '0' :: 'x' :: r => basedInteger? 16 r
  | '0' :: 'o' :: r => basedInteger? 8 r
  | '0' :: 'b' :: r => basedInteger? 2 r
  | s =>
    let negative := s.head? = some '-'
    match (if negative || s.head? = some '+' then s.tail else s) with
    | 'i' :: 'n' :: 'f' :: r => some (.real, r)
    | 'n' :: 'a' :: 'n' :: r => some (.real, r)
    | s => decimal? negative s

/-! ## Moments -/

/-- The number that digits denote, if it is from `low` to `high`, both included. -/
def natIn? (low high : Nat) (ds : List Char) : Option Nat :=
  let n := natOfDigits ds
  if ds.all Char.isDigit && low ≤ n && n ≤ high then some n else none

def daysOfMonth (year month : Nat) : Nat :=
  if month = 2 then
    if year % 4 = 0 && (year % 100 ≠ 0 || year % 400 = 0) then 29 else 28
  else if month = 4 || month = 6 || month = 9 || month = 11 then 30
  else 31

/-- The text behind a day. -/
def day? : List Char → Option (List Char)
  | y₁ :: y₂ :: y₃ :: y₄ :: '-' :: m₁ :: m₂ :: '-' :: d₁ :: d₂ :: r => do
    let year ← natIn? 0 9999 [y₁, y₂, y₃, y₄]
    let month ← natIn? 1 12 [m₁, m₂]
    let _ ← natIn? 1 (daysOfMonth year month) [d₁, d₂]
    some r
  | _ => none

/-- The text behind a fraction of a second, if there is one. -/
def skipFraction : List Char → List Char
  | '.' :: c :: r => if c.isDigit then r.dropWhile Char.isDigit else '.' :: c :: r
  | s => s

/-- The text behind a time of day. The last minute of a day may have a second more. -/
def time? : List Char → Option (List Char)
  | h₁ :: h₂ :: ':' :: m₁ :: m₂ :: ':' :: s₁ :: s₂ :: r => do
    let _ ← natIn? 0 23 [h₁, h₂]
    let _ ← natIn? 0 59 [m₁, m₂]
    let _ ← natIn? 0 60 [s₁, s₂]
    some (skipFraction r)
  | _ => none

/-- The text behind the distance from the prime meridian, if there is one. -/
def skipOffset : List Char → List Char
  | 'Z' :: r => r
  | 'z' :: r => r
  | c :: h₁ :: h₂ :: ':' :: m₁ :: m₂ :: r =>
    if (c = '+' || c = '-') && (natIn? 0 23 [h₁, h₂]).isSome && (natIn? 0 59 [m₁, m₂]).isSome then r
    else c :: h₁ :: h₂ :: ':' :: m₁ :: m₂ :: r
  | s => s

/-- The text behind a moment: a day, a time, or both. -/
def moment? (s : List Char) : Option (List Char) :=
  match day? s with
  | none => time? s
  | some [] => some []
  | some (c :: r) =>
    if c = 'T' || c = 't' || c = ' ' then
      match time? r with
      | some r' => some (skipOffset r')
      | none => some (c :: r)
    else some (c :: r)

/-- A value that is neither a list nor a table. -/
def scalar? (s : List Char) : Option (Value × List Char) :=
  match s with
  | '"' :: _ => (text? s).map fun p => (.text p.1, p.2)
  | '\'' :: _ => (text? s).map fun p => (.text p.1, p.2)
  | 't' :: 'r' :: 'u' :: 'e' :: r => some (.truth true, r)
  | 'f' :: 'a' :: 'l' :: 's' :: 'e' :: r => some (.truth false, r)
  | s =>
    match moment? s with
    | some r => some (.moment, r)
    | none => number? s

end EdgeRouting.Toml
