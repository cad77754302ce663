import EdgeRouting.Template.Printer

/-!
# Reading back what was written

Parts that are written and read again are the same parts (`parse_printParts`). A written part is
read in one go, whatever stands behind it: escaped text only lengthens the pending literal, since
its braces come in pairs and the scanner takes the first pair it sees (`scan_escapeBraces`), and a
written placeholder closes the pending literal (`scan_printPart_field`). So the round trip is an
induction on normal parts, in which a literal is always followed by a placeholder or by the end.

What is read from any text is normal (`isNormal_of_scan`): a literal is emitted only in front of a
placeholder or at the end, and only when it is not empty.
-/

namespace EdgeRouting.Template

open Placeholder

variable {pos : Nat} {pending name r : List Char}

/-! ## Steps of the scanner -/

theorem untilClose_append (hname : '\x7d' ∉ name) :
    untilClose (name ++ '\x7d' :: r) = some (name, r) := by
  induction name with
  | nil => rfl
  | cons c s ih =>
      have hc : c ≠ '\x7d' := fun hc => hname (by simp [hc])
      have hs : '\x7d' ∉ s := fun hs => hname (List.mem_cons_of_mem _ hs)
      rw [List.cons_append, untilClose.eq_3 c _ hc, ih hs]
      rfl

theorem scan_plain {c : Char} (hopen : c ≠ '\x7b') (hclose : c ≠ '\x7d') :
    scan pos pending (c :: r) = scan (pos + c.utf8Size) (pending ++ [c]) r :=
  scan.eq_6 pos pending c r (fun _ hc _ => hopen hc) (fun _ hc _ => hclose hc) hopen hclose

theorem scan_placeholder {f : Placeholder} (hhead : name.head? ≠ some '\x7b')
    (hname : '\x7d' ∉ name)
    (hfield : ofName? (String.ofList (Text.trimChars name)) = some f) :
    scan pos pending ('\x7b' :: (name ++ '\x7d' :: r)) =
      scan (pos + byteLength name + 2) [] r >>= fun parts =>
        .ok (literalParts pending ++ .field f :: parts) := by
  have hsingle : ∀ s, name ++ '\x7d' :: r = '\x7b' :: s → False := by
    intro s hs
    cases name with
    | nil => cases hs
    | cons c n => exact hhead (congrArg some (List.cons.inj hs).1)
  rw [scan.eq_4 pos pending _ hsingle, untilClose_append hname]
  simp only [hfield]

/-! ## Written parts -/

theorem scan_escapeBraces (s : List Char) :
    scan pos pending (escapeBraces s ++ r)
      = scan (pos + byteLength (escapeBraces s)) (pending ++ s) r := by
  fun_induction escapeBraces s generalizing pos pending with
  | case1 => simp [byteLength]
  | case2 s ih =>
      rw [List.cons_append, List.cons_append, scan, ih, List.append_assoc, Nat.add_assoc]
      simp only [byteLength, ← Nat.add_assoc]
      rfl
  | case3 s ih =>
      rw [List.cons_append, List.cons_append, scan, ih, List.append_assoc, Nat.add_assoc]
      simp only [byteLength, ← Nat.add_assoc]
      rfl
  | case4 c s hopen hclose ih =>
      rw [List.cons_append, scan_plain hopen hclose, ih, List.append_assoc, Nat.add_assoc]
      rfl

theorem head?_name (f : Placeholder) : f.name.toList.head? ≠ some '\x7b' := by
  cases f <;> decide

theorem close_not_mem_name (f : Placeholder) : '\x7d' ∉ f.name.toList := by
  cases f <;> decide

theorem trimChars_name (f : Placeholder) : Text.trimChars f.name.toList = f.name.toList := by
  cases f <;> decide

theorem scan_printPart_field (f : Placeholder) :
    scan pos pending (printPart (.field f) ++ r) =
      scan (pos + byteLength f.name.toList + 2) [] r >>= fun parts =>
        .ok (literalParts pending ++ .field f :: parts) := by
  have hfield : ofName? (String.ofList (Text.trimChars f.name.toList)) = some f := by
    rw [trimChars_name, String.ofList_toList, ofName?_name]
  rw [printPart, List.cons_append, List.cons_append, List.append_assoc]
  exact scan_placeholder (head?_name f) (close_not_mem_name f) hfield

theorem literalParts_toList {s : String} (h : s ≠ "") : literalParts s.toList = [.literal s] := by
  have hne : s.toList ≠ [] := fun hnil => h (String.toList_inj.1 hnil)
  rw [literalParts, if_neg (mt List.isEmpty_iff.1 hne), String.ofList_toList]

theorem scan_flatMap_printPart {parts : List Part} (h : IsNormal parts) :
    scan pos [] (parts.flatMap printPart) = .ok parts := by
  fun_induction IsNormal parts generalizing pos with
  | case1 => rw [List.flatMap_nil, scan]; rfl
  | case2 f r ih =>
      rw [List.flatMap_cons, scan_printPart_field, ih h]
      rfl
  | case3 s =>
      rw [List.flatMap_singleton, printPart, ← List.append_nil (escapeBraces s.toList),
        scan_escapeBraces, scan, List.nil_append, literalParts_toList h]
  | case4 s f r ih =>
      rw [List.flatMap_cons, List.flatMap_cons, printPart, scan_escapeBraces,
        scan_printPart_field, ih h.2, List.nil_append, literalParts_toList h.1]
      rfl
  | case5 => exact h.elim

/-! ## Parts that were read -/

theorem isNormal_literalParts (s : List Char) : IsNormal (literalParts s) := by
  unfold literalParts
  split
  · trivial
  · next hs =>
    intro hempty
    have hnil : s = [] := by simpa using congrArg String.toList hempty
    exact hs (List.isEmpty_iff.2 hnil)

theorem IsNormal.behind_literal {f : Placeholder} {parts : List Part} (h : IsNormal parts)
    (s : List Char) : IsNormal (literalParts s ++ .field f :: parts) := by
  have hliteral := isNormal_literalParts s
  revert hliteral
  unfold literalParts
  split
  · exact fun _ => h
  · exact fun hliteral => ⟨hliteral, h⟩

theorem isNormal_of_scan {s : List Char} {parts : List Part} (h : scan pos pending s = .ok parts) :
    IsNormal parts := by
  fun_induction scan pos pending s generalizing parts with
  | case1 pos pending =>
      obtain rfl := Except.ok.inj h
      exact isNormal_literalParts pending
  | case2 _ _ _ ih => exact ih h
  | case3 _ _ _ ih => exact ih h
  | case4 => cases h
  | case5 => cases h
  | case6 pos pending s _ name rest _ f _ ih =>
      cases hrest : scan (pos + byteLength name + 2) [] rest with
      | error e =>
          rw [hrest] at h
          cases h
      | ok later =>
          rw [hrest] at h
          obtain rfl := Except.ok.inj h
          exact (ih hrest).behind_literal pending
  | case7 => cases h
  | case8 _ _ _ _ _ _ _ _ ih => exact ih h

theorem parse_eq_ok_iff {source : String} {t : Template} :
    parse source = .ok t ↔ t.source = source ∧ scan 0 [] source.toList = .ok t.parts := by
  unfold parse
  cases scan 0 [] source.toList with
  | error e => simp [bind, Except.bind]
  | ok parts =>
      rcases t with ⟨s, ps⟩
      simp only [bind, Except.bind, Except.ok.injEq, mk.injEq]
      exact and_congr_left fun _ => eq_comm

/-! ## The round trip -/

/-- Normal parts are read back from their written form. What is read from any text is normal, and
reading its written form gives the same parts, so it is filled in alike. -/
theorem parse_printParts :
    (∀ parts, IsNormal parts → parse (printParts parts) = .ok ⟨printParts parts, parts⟩)
      ∧ ∀ source t, parse source = .ok t → IsNormal t.parts
        ∧ ∃ t', parse (printParts t.parts) = .ok t' ∧ t'.parts = t.parts
          ∧ ∀ value, t'.expand value = t.expand value := by
  have hread : ∀ parts, IsNormal parts →
      parse (printParts parts) = .ok ⟨printParts parts, parts⟩ := by
    intro parts hparts
    refine parse_eq_ok_iff.2 ⟨rfl, ?_⟩
    rw [printParts, String.toList_ofList]
    exact scan_flatMap_printPart hparts
  refine ⟨hread, ?_⟩
  intro source t h
  have hnormal : IsNormal t.parts := isNormal_of_scan (parse_eq_ok_iff.1 h).2
  exact ⟨hnormal, _, hread t.parts hnormal, rfl, fun _ => rfl⟩

/-! ### Braces around a placeholder

The braces of the text stand directly against those of the placeholder, and the name between them
has blanks around it. Written back, the blanks are gone. -/

def bracedParts : List Part := [.literal "\x7d\x7b", .field .rest, .literal "\x7d"]

def bracedTemplate : Template := ⟨"\x7d\x7d\x7b\x7b\x7b rest \x7d\x7d\x7d", bracedParts⟩

theorem parse_bracedTemplate :
    IsNormal bracedParts ∧ parse bracedTemplate.source = .ok bracedTemplate
      ∧ printParts bracedParts = "\x7d\x7d\x7b\x7b\x7brest\x7d\x7d\x7d"
      ∧ parse (printParts bracedParts) = .ok ⟨printParts bracedParts, bracedParts⟩
      ∧ ∃ t, parse (printParts bracedParts) = .ok t ∧ t.parts = bracedParts
        ∧ ∀ value, t.expand value = bracedTemplate.expand value := by
  have hnormal : IsNormal bracedParts := ⟨by decide, (by decide : "\x7d" ≠ "")⟩
  have hparse : parse bracedTemplate.source = .ok bracedTemplate := by with_unfolding_all rfl
  obtain ⟨hread, hwritten⟩ := parse_printParts
  exact ⟨hnormal, hparse, by decide, hread bracedParts hnormal,
    (hwritten bracedTemplate.source bracedTemplate hparse).2⟩

end EdgeRouting.Template
