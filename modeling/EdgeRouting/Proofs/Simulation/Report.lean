import EdgeRouting.CommandLine.Outcome
import EdgeRouting.Proofs.Lists
import EdgeRouting.Proofs.Names
import EdgeRouting.Proofs.Text.Decimal

/-!
# Reading a report

What a simulation prints is read again by someone who knows the form of a report and nothing of the
simulation. The output is cut into lines and a line into words. The first word of a line is the name
of a target, and the word that begins with `hits=` has its count; the last line has the number of
fallbacks (`Tally.ofReport?`).

A column is filled up with blanks, and blanks make no words, so a reader needs no widths
(`words_padRight`). What carries the rest is that nothing that stands in a column has a blank or a
line break in it (`IsUnbroken`): then the words of a line are its columns (`words_line`), the lines
are those that were reported (`pieces_linesText`), and the tally that is read is the one that was
counted (`ofReport?_success`).
-/

namespace EdgeRouting

/-! ## Words -/

namespace Text

variable {s : List Char} {a b label : String}

/-- What stands between blanks. -/
def words (s : List Char) : List (List Char) := (pieces ' ' s).filter (· ≠ [])

/-- The number behind a label. -/
def numberBehind? (label : String) (s : List Char) : Option Nat :=
  (label.toList.isPrefixOf? s).bind number?

theorem words_cons_blank (r : List Char) : words (' ' :: r) = words r := by
  simp [words, pieces]

theorem words_of_not_mem (hs : ' ' ∉ s) (hne : s ≠ []) : words s = [s] := by
  simp [words, pieces_of_not_mem ' ' hs, hne]

theorem words_append (hs : ' ' ∉ s) (hne : s ≠ []) (r : List Char) :
    words (s ++ ' ' :: r) = s :: words r := by
  simp [words, pieces_append ' ' hs, hne]

theorem words_replicate (k : Nat) (r : List Char) :
    words (List.replicate k ' ' ++ r) = words r := by
  induction k with
  | zero => rfl
  | succ k ih => rw [List.replicate_succ, List.cons_append, words_cons_blank, ih]

/-- A number is read behind the label that it was written behind. -/
theorem numberBehind?_append (label : String) (n : Nat) :
    numberBehind? label (label ++ toString n).toList = some n := by
  rw [numberBehind?, String.toList_append, List.isPrefixOf?_eq_some_iff_append_eq.2 rfl,
    Option.bind_some, number?_natText]

/-! ## Columns -/

/-- A text of one word, which stays on its line. -/
def IsUnbroken (text : String) : Prop := ' ' ∉ text.toList ∧ '\n' ∉ text.toList

instance (text : String) : Decidable (IsUnbroken text) :=
  inferInstanceAs (Decidable (_ ∧ _))

theorem isUnbroken_append (ha : IsUnbroken a) (hb : IsUnbroken b) : IsUnbroken (a ++ b) := by
  rw [IsUnbroken, String.toList_append, List.mem_append, List.mem_append]
  exact ⟨not_or_intro ha.1 hb.1, not_or_intro ha.2 hb.2⟩

/-- A text is unbroken if all its characters are of a kind that blanks and line breaks are not. -/
theorem isUnbroken_of_forall (kind : Char → Bool) (h : ∀ c ∈ a.toList, kind c = true)
    (hblank : kind ' ' = false) (hbreak : kind '\n' = false) : IsUnbroken a :=
  ⟨fun hc => Bool.eq_false_iff.1 hblank (h _ hc), fun hc => Bool.eq_false_iff.1 hbreak (h _ hc)⟩

theorem isUnbroken_name (h : isTargetName a = true) : IsUnbroken a :=
  isUnbroken_of_forall isNameChar (fun _ hc => isNameChar_of_mem h hc) rfl rfl

theorem isUnbroken_natText (n : Nat) : IsUnbroken (toString n) :=
  isUnbroken_of_forall Char.isDigit (fun _ hc => isDigit_of_mem_natText hc) rfl rfl

theorem isUnbroken_intText (n : Int) : IsUnbroken (toString n) := by
  cases n with
  | ofNat m => exact isUnbroken_natText m
  | negSucc m => exact isUnbroken_append (by decide) (isUnbroken_natText (m + 1))

theorem isUnbroken_shareText (part whole : Nat) : IsUnbroken (shareText part whole) := by
  have hpoint : IsUnbroken "." := by decide
  have hsign : IsUnbroken "%" := by decide
  exact isUnbroken_append (isUnbroken_append (isUnbroken_append (isUnbroken_natText _) hpoint)
    (isUnbroken_natText _)) hsign

theorem toList_padRight (width : Nat) (text : String) :
    (padRight width text).toList = text.toList ++ List.replicate (width - text.length) ' ' := by
  rw [padRight, String.toList_append, String.toList_ofList]

theorem newline_not_mem_padRight (width : Nat) (ha : IsUnbroken a) :
    '\n' ∉ (padRight width a).toList := by
  rw [toList_padRight, List.mem_append]
  exact not_or_intro ha.2 fun h => absurd (List.eq_of_mem_replicate h) (by decide)

/-- However wide a column is, its text is one word, and the words of the next columns follow. -/
theorem words_padRight (width : Nat) (h : IsUnbroken (label ++ a)) (hne : label ++ a ≠ "")
    (r : List Char) :
    words ((label ++ padRight width a).toList ++ ' ' :: r) = (label ++ a).toList :: words r := by
  have hchars : (label ++ a).toList ≠ [] := fun hnil => hne (String.toList_eq_nil_iff.1 hnil)
  rw [String.toList_append, toList_padRight, ← List.append_assoc, ← String.toList_append,
    List.append_assoc]
  cases width - a.length with
  | zero => exact words_append h.1 hchars r
  | succ k =>
      rw [List.replicate_succ, List.cons_append, words_append h.1 hchars, words_replicate,
        words_cons_blank]

end Text

/-! ## Lines -/

namespace CommandLine.Outcome

/-- What is printed is cut into the lines that were reported. -/
theorem pieces_linesText {lines : List String} (h : ∀ l ∈ lines, '\n' ∉ l.toList) :
    Text.pieces '\n' (linesText lines).toList = lines.map String.toList ++ [[]] := by
  induction lines with
  | nil => rfl
  | cons l r ih =>
      obtain ⟨hl, hr⟩ := List.forall_mem_cons.1 h
      have hcons : (linesText (l :: r)).toList = l.toList ++ '\n' :: (linesText r).toList := by
        simp [linesText]
      rw [hcons, Text.pieces_append '\n' hl, ih hr, List.map_cons, List.cons_append]

end CommandLine.Outcome

/-! ## Reports -/

namespace Tally

/-- The name that a line begins with, and the number that it has behind `hits=`. -/
def ofLine? (line : List Char) : Option (String × Nat) :=
  match Text.words line with
  | [] => none
  | name :: columns =>
    (columns.findSome? (Text.numberBehind? "hits=")).map fun count => (String.ofList name, count)

/-- The tally that an output shows: in lines of targets, and in a last line the fallbacks. Every line
ends in a line break, so there is nothing behind the last one. -/
def ofReport? (output : String) : Option Tally :=
  match (Text.pieces '\n' output.toList).reverse with
  | [] :: last :: lines => do
    let hits ← lines.reverse.mapM ofLine?
    let fallbacks ← Text.numberBehind? "fallback hits: " last
    some ⟨hits, fallbacks⟩
  | _ => none

end Tally

namespace Simulation

variable {sim : Simulation} {p : Selector} {t : Tally} {c : Contender}

/-- The words of a line are its columns. -/
theorem words_line (hname : isTargetName c.name = true) : Text.words (sim.line t c).toList
    = [c.name, "weight=" ++ toString c.weight.toInt, "threshold=" ++ toString c.threshold.toInt,
        "hits=" ++ toString (t.hitsOf c.name),
        "share=" ++ Text.shareText (t.hitsOf c.name) sim.requests].map String.toList := by
  -- The name is a column like the others, with an empty label.
  have hline : (sim.line t c).toList = ("" ++ Text.padRight 16 c.name).toList ++ ' ' ::
      (("weight=" ++ Text.padRight 4 (toString c.weight.toInt)).toList ++ ' ' ::
      (("threshold=" ++ Text.padRight 4 (toString c.threshold.toInt)).toList ++ ' ' ::
      (("hits=" ++ Text.padRight 8 (toString (t.hitsOf c.name))).toList ++ ' ' ::
      ("share=" ++ Text.shareText (t.hitsOf c.name) sim.requests).toList))) := by
    simp [line]
  have hweight := Text.isUnbroken_append (a := "weight=") (by decide)
    (Text.isUnbroken_intText c.weight.toInt)
  have hthreshold := Text.isUnbroken_append (a := "threshold=") (by decide)
    (Text.isUnbroken_intText c.threshold.toInt)
  have hhits := Text.isUnbroken_append (a := "hits=") (by decide)
    (Text.isUnbroken_natText (t.hitsOf c.name))
  have hshare := Text.isUnbroken_append (a := "share=") (by decide)
    (Text.isUnbroken_shareText (t.hitsOf c.name) sim.requests)
  have hne : "" ++ c.name ≠ "" := by
    rw [String.empty_append]
    intro hempty
    rw [hempty] at hname
    cases hname
  rw [hline, Text.words_padRight 16 (by simpa using Text.isUnbroken_name hname) hne,
    Text.words_padRight 4 hweight (by simp), Text.words_padRight 4 hthreshold (by simp),
    Text.words_padRight 8 hhits (by simp), Text.words_of_not_mem hshare.1 (by simp),
    String.empty_append]
  rfl

theorem newline_not_mem_line (hname : isTargetName c.name = true) :
    '\n' ∉ (sim.line t c).toList := by
  have hcolumn := Text.newline_not_mem_padRight 16 (Text.isUnbroken_name hname)
  have hweight := Text.newline_not_mem_padRight 4 (Text.isUnbroken_intText c.weight.toInt)
  have hthreshold := Text.newline_not_mem_padRight 4 (Text.isUnbroken_intText c.threshold.toInt)
  have hhits := Text.newline_not_mem_padRight 8 (Text.isUnbroken_natText (t.hitsOf c.name))
  have hshare := (Text.isUnbroken_shareText (t.hitsOf c.name) sim.requests).2
  simp only [line, String.toList_append, List.mem_append, hcolumn, hweight, hthreshold, hhits,
    hshare, false_or, or_false]
  decide

/-- The count that a line has is read again. -/
theorem ofLine?_line (hname : isTargetName c.name = true) :
    Tally.ofLine? (sim.line t c).toList = some (c.name, t.hitsOf c.name) := by
  have hweight :
      Text.numberBehind? "hits=" ("weight=" ++ toString c.weight.toInt).toList = none := by
    rw [Text.numberBehind?, String.toList_append]
    rfl
  have hthreshold :
      Text.numberBehind? "hits=" ("threshold=" ++ toString c.threshold.toInt).toList = none := by
    rw [Text.numberBehind?, String.toList_append]
    rfl
  simp only [Tally.ofLine?, words_line hname, List.map_cons, List.findSome?_cons, hweight,
    hthreshold, Text.numberBehind?_append, Option.map_some, String.ofList_toList]

/-- A reader of a report finds the counts of all targets, in their order, and the fallbacks. -/
theorem ofReport?_success (hnames : ∀ c ∈ p.contenders, isTargetName c.name = true) :
    Tally.ofReport? (CommandLine.Outcome.success (sim.report p t)).output
      = some ⟨p.contenders.map fun c => (c.name, t.hitsOf c.name), t.fallbacks⟩ := by
  have hlines : ∀ l ∈ sim.report p t, '\n' ∉ l.toList := by
    intro l hl
    rcases List.mem_append.1 hl with hl | hl
    · obtain ⟨c, hc, rfl⟩ := List.mem_map.1 hl
      exact newline_not_mem_line (hnames c hc)
    · obtain rfl := List.mem_singleton.1 hl
      rw [String.toList_append, List.mem_append]
      exact not_or_intro (by decide) (Text.isUnbroken_natText t.fallbacks).2
  have hread : ((p.contenders.map (sim.line t)).map String.toList).mapM Tally.ofLine?
      = some (p.contenders.map fun c => (c.name, t.hitsOf c.name)) := by
    rw [mapM_eq_some_iff, List.map_map, List.forall₂_map_left_iff, List.forall₂_map_right_iff,
      List.forall₂_same]
    exact fun c hc => ofLine?_line (hnames c hc)
  have hpieces : (Text.pieces '\n'
      (CommandLine.Outcome.success (sim.report p t)).output.toList).reverse
      = [] :: ("fallback hits: " ++ toString t.fallbacks).toList
        :: ((p.contenders.map (sim.line t)).map String.toList).reverse := by
    show (Text.pieces '\n' (CommandLine.Outcome.linesText (sim.report p t)).toList).reverse = _
    rw [CommandLine.Outcome.pieces_linesText hlines, report]
    simp only [List.map_append, List.reverse_append]
    rfl
  rw [Tally.ofReport?, hpieces]
  simp only [List.reverse_reverse, hread, Text.numberBehind?_append]
  rfl

end Simulation

end EdgeRouting
