import EdgeRouting.Toml.Lexeme

/-!
# Reading TOML lines

Blanks may stand around every key and value. Line breaks and comments separate lines, and may also
stand between the items of a list.
-/

namespace EdgeRouting.Toml

open Text (Read)

/-! ## Keys -/

def isBareChar (c : Char) : Bool := c.isAlphanum || c = '-' || c = '_'

/-- One part of a key. -/
def keyPart? (s : List Char) : Option (String × List Char) :=
  match s.takeWhile isBareChar with
  | [] => lineText? s
  | cs => some (String.ofList cs, s.dropWhile isBareChar)

/-- A key, with blanks around its parts. -/
def readKey (s : List Char) : Option (Read Key s) :=
  match (keyPart? (skipBlanks s)).bind fun p => Read.of? s p.1 (skipBlanks p.2) with
  | none => none
  | some part =>
    match hp : part.rest with
    | '.' :: r =>
      have hr : r.length < s.length := by
        have := part.lt
        rw [hp] at this
        exact Nat.lt_of_succ_lt this
      (readKey r).map fun k => ⟨part.val :: k.val, k.rest, Nat.lt_trans k.lt hr⟩
    | _ => some ⟨[part.val], part.rest, part.lt⟩
termination_by s.length

/-! ## Values -/

/-- The text behind the blanks, line breaks and comments that it begins with. -/
def skipGap (inComment : Bool) : List Char → List Char
  | '\n' :: r => skipGap false r
  | '\r' :: '\n' :: r => skipGap false r
  | c :: r =>
    if inComment then if isTextChar c then skipGap true r else c :: r
    else if isBlank c then skipGap false r
    else if c = '#' then skipGap true r
    else c :: r
  | [] => []

theorem length_skipGap_le (b : Bool) (s : List Char) : (skipGap b s).length ≤ s.length := by
  fun_induction skipGap b s <;> simp_all <;> omega

theorem length_lt_of_skipGap {s r : List Char} {c : Char} {b : Bool} (h : skipGap b s = c :: r) :
    r.length < s.length := by
  have := length_skipGap_le b s
  rw [h] at this
  exact this

theorem length_lt_of_skipBlanks {s r : List Char} {c : Char} (h : skipBlanks s = c :: r) :
    r.length < s.length := by
  have := length_skipBlanks_le s
  rw [h] at this
  exact this

mutual

/-- One value at the very front of a text. -/
def readValue (s : List Char) : Option (Read Value s) :=
  match s with
  | '[' :: r =>
    (readItems r).map fun items => ⟨.list items.val, items.rest, Nat.lt_succ_of_lt items.lt⟩
  | '\x7b' :: r =>
    match hr : skipBlanks r with
    | '\x7d' :: r' => some ⟨.table [], r', Nat.lt_succ_of_lt (length_lt_of_skipBlanks hr)⟩
    | _ =>
      (readEntries r).map fun entries =>
        ⟨.table entries.val, entries.rest, Nat.lt_succ_of_lt entries.lt⟩
  | s => (scalar? s).bind fun p => Read.of? s p.1 p.2
termination_by 2 * s.length

/-- The items of a list up to its closing bracket. A comma may stand behind the last one. -/
def readItems (s : List Char) : Option (Read (List Value) s) :=
  match hs : skipGap false s with
  | ']' :: r => some ⟨[], r, length_lt_of_skipGap hs⟩
  | _ =>
    have hle : (skipGap false s).length ≤ s.length := length_skipGap_le false s
    match readValue (skipGap false s) with
    | none => none
    | some v =>
      have hv : v.rest.length < s.length := Nat.lt_of_lt_of_le v.lt hle
      match hr : skipGap false v.rest with
      | ']' :: r => some ⟨[v.val], r, Nat.lt_trans (length_lt_of_skipGap hr) hv⟩
      | ',' :: r =>
        have hlt : r.length < s.length := Nat.lt_trans (length_lt_of_skipGap hr) hv
        (readItems r).map fun items =>
          ⟨v.val :: items.val, items.rest, Nat.lt_trans items.lt hlt⟩
      | _ => none
termination_by 2 * s.length + 1

/-- The entries of a table up to its closing brace. -/
def readEntries (s : List Char) : Option (Read (List (Key × Value)) s) :=
  match readKey s with
  | none => none
  | some k =>
    have hk : k.rest.length < s.length := k.lt
    match he : k.rest with
    | '=' :: r =>
      have hle : (skipBlanks r).length < s.length := by
        have := length_skipBlanks_le r
        rw [he, List.length_cons] at hk
        omega
      match readValue (skipBlanks r) with
      | none => none
      | some v =>
        have hv : v.rest.length < s.length := Nat.lt_trans v.lt hle
        match hr : skipBlanks v.rest with
        | '\x7d' :: r =>
          some ⟨[(k.val, v.val)], r, Nat.lt_trans (length_lt_of_skipBlanks hr) hv⟩
        | ',' :: r =>
          have hlt : r.length < s.length := Nat.lt_trans (length_lt_of_skipBlanks hr) hv
          (readEntries r).map fun more =>
            ⟨(k.val, v.val) :: more.val, more.rest, Nat.lt_trans more.lt hlt⟩
        | _ => none
    | _ => none
termination_by 2 * s.length + 1

end

/-! ## Lines -/

/-- The text behind the end of a line, before which blanks and a comment may stand. -/
def endLine? (s : List Char) : Option (List Char) :=
  let r := skipBlanks s
  match (if r.head? = some '#' then r.dropWhile isTextChar else r) with
  | [] => some []
  | r => lineBreak? r

/-- A line that is not blank, up to its end. -/
def line? (s : List Char) : Option (Line × List Char) :=
  match skipBlanks s with
  | '[' :: '[' :: r => do
    let k ← readKey r
    match k.rest with
    | ']' :: ']' :: r => some (.itemHeader k.val, r)
    | _ => none
  | '[' :: r => do
    let k ← readKey r
    match k.rest with
    | ']' :: r => some (.header k.val, r)
    | _ => none
  | s => do
    let k ← readKey s
    match k.rest with
    | '=' :: r => do
      let v ← readValue (skipBlanks r)
      some (.entry k.val v.val, v.rest)
    | _ => none

/-- All lines of a text but the blank ones. -/
def lines? (s : List Char) : Option (List Line) :=
  match s with
  | [] => some []
  | s =>
    match endLine? s with
    | some r => if r.length < s.length then lines? r else none
    | none =>
      match line? s with
      | none => none
      | some (l, r) =>
        match endLine? r with
        | none => none
        | some r' =>
          if r'.length < s.length then (lines? r').map (l :: ·) else none
termination_by s.length

end EdgeRouting.Toml
