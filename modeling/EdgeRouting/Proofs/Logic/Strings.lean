import EdgeRouting.Logic.Render
import EdgeRouting.Proofs.Logic.Constants
import EdgeRouting.Proofs.Logic.Scan
import EdgeRouting.Proofs.Text.Decimal

/-!
# Strings in written programs

The scanner finds in a written program its string constants and nothing else
(`lexemes_render`): whatever they hold, no constant ends early and none begins in the text around
it.

A piece of text is judged together with its variants, one for each replacement of the constants in
it. `Conveys` says of such a family that the scanner finds the constants of each member, and that
the text outside of them is the same for all. It is put together along the program: words and
constants, then expressions, then statements. Only a statement's own braces are outside strings, so
what is open in front of a piece and behind it is counted with it.
-/

namespace EdgeRouting.Logic

/-! ## What is found in a piece of text -/

/-- The scanner finds the strings `cs` in a piece of text and `o` outside of them. Where `a` braces
are open in front of the piece, `b` are open behind it. -/
structure Found (a b : Nat) (t : String) (o : List (Option Char)) (cs : List String)
    (l : List Lexeme) : Prop where
  scans : Scans t.toList l
  outside : outsideOf l = o
  strings : stringsIn l = cs.map String.toList
  /-- An edge decodes percent signs in plain strings. -/
  noPercent : ∀ s, .plain s ∈ l → '%' ∉ s
  braces : ∀ rest, bracesBalance a (l ++ rest) = bracesBalance b rest

theorem Found.append {a b c : Nat} {t t' : String} {o o' : List (Option Char)}
    {cs cs' : List String} {l l' : List Lexeme} (h : Found a b t o cs l)
    (h' : Found b c t' o' cs' l') : Found a c (t ++ t') (o ++ o') (cs ++ cs') (l ++ l') where
  scans := by
    rw [String.toList_append]
    exact h.scans.append h'.scans
  outside := by
    rw [← h.outside, ← h'.outside, outsideOf, List.map_append]
    rfl
  strings := by
    rw [List.map_append, ← h.strings, ← h'.strings, stringsIn, List.filterMap_append]
    rfl
  noPercent := by
    intro s hs
    rcases List.mem_append.1 hs with hs | hs
    · exact h.noPercent s hs
    · exact h'.noPercent s hs
  braces := by
    intro rest
    rw [List.append_assoc, h.braces, h'.braces]

/-- Text outside of strings. -/
theorem Found.words {a b : Nat} {t : String} (hscans : Scans t.toList (t.toList.map .outside))
    (hbraces : ∀ rest, bracesBalance a (t.toList.map .outside ++ rest) = bracesBalance b rest) :
    Found a b t (t.toList.map some) [] (t.toList.map .outside) where
  scans := hscans
  outside := by simp [outsideOf]
  strings := by simp [stringsIn]
  noPercent := by simp
  braces := hbraces

theorem bracesBalance_outside (d : Nat) {t : List Char} (h : ∀ c ∈ t, c ≠ '\x7b' ∧ c ≠ '\x7d')
    (rest : List Lexeme) :
    bracesBalance d (t.map .outside ++ rest) = bracesBalance d rest := by
  induction t with
  | nil => rfl
  | cons c t ih =>
      obtain ⟨⟨hopening, hclosing⟩, ht⟩ := List.forall_mem_cons.1 h
      rw [List.map_cons, List.cons_append, bracesBalance, ih ht]
      · exact fun e => hopening (Lexeme.outside.inj e)
      · exact fun e => hclosing (Lexeme.outside.inj e)

theorem isPlainName_iff {t : String} :
    isPlainName t = true ↔ ∀ c ∈ t.toList, c ≠ '"' ∧ c ≠ '\x7b' ∧ c ≠ '\x7d' := by
  simp [isPlainName, and_assoc]

theorem found_words {t : String} (h : isPlainName t = true) (d : Nat) :
    Found d d t (t.toList.map some) [] (t.toList.map .outside) := by
  have ht := isPlainName_iff.1 h
  refine .words (scans_outside fun c hc => ?_) (bracesBalance_outside d fun c hc => ?_)
  · exact ⟨(ht c hc).1, (ht c hc).2.1⟩
  · exact (ht c hc).2

theorem found_opening (d : Nat) :
    Found d (d + 1) "\x7b\n" [some '\x7b', some '\n'] [] [.outside '\x7b', .outside '\n'] :=
  .words scans_opening fun _ => rfl

theorem found_closing (d : Nat) : Found (d + 1) d "\x7d" [some '\x7d'] [] [.outside '\x7d'] :=
  .words (scans_outside (by simp)) fun rest => by simp [bracesBalance]

theorem found_literal (s : String) (d : Nat) :
    Found d d (literal s) [none] [s] [literalLexeme s.toList] where
  scans := by
    rw [literal, String.toList_ofList]
    exact scans_literalChars s.toList
  outside := by
    unfold literalLexeme
    split <;> rfl
  strings := by
    unfold literalLexeme
    split <;> rfl
  noPercent := by
    intro t ht
    unfold literalLexeme at ht
    split at ht
    · next h =>
      obtain rfl : t = s.toList := by simpa using ht
      intro hmem
      simp [isPlainText, hmem] at h
    · simp at ht
  braces := by
    intro rest
    unfold literalLexeme
    split <;> rfl

/-! ## Texts with constants in them -/

/-- In each of the texts the scanner finds the constants, and the same outside of them. -/
def Conveys (a b : Nat) (text : (String → String) → String)
    (constants : (String → String) → List String) : Prop :=
  ∃ o, ∀ f, ∃ l, Found a b (text f) o (constants f) l

section Conveys

variable {a b c : Nat} {text text' : (String → String) → String}
  {constants constants' : (String → String) → List String}

theorem Conveys.append (h : Conveys a b text constants) (h' : Conveys b c text' constants') :
    Conveys a c (fun f => text f ++ text' f) (fun f => constants f ++ constants' f) := by
  obtain ⟨o, ho⟩ := h
  obtain ⟨o', ho'⟩ := h'
  refine ⟨o ++ o', fun f => ?_⟩
  obtain ⟨l, hl⟩ := ho f
  obtain ⟨l', hl'⟩ := ho' f
  exact ⟨l ++ l', hl.append hl'⟩

theorem Conveys.congr (h : Conveys a b text constants) (htext : ∀ f, text' f = text f)
    (hconstants : ∀ f, constants' f = constants f) : Conveys a b text' constants' := by
  obtain rfl := funext htext
  obtain rfl := funext hconstants
  exact h

theorem conveys_words {t : String} (h : isPlainName t = true) (d : Nat) :
    Conveys d d (fun _ => t) (fun _ => []) :=
  ⟨_, fun _ => ⟨_, found_words h d⟩⟩

theorem conveys_opening (d : Nat) : Conveys d (d + 1) (fun _ => "\x7b\n") (fun _ => []) :=
  ⟨_, fun _ => ⟨_, found_opening d⟩⟩

theorem conveys_closing (d : Nat) : Conveys (d + 1) d (fun _ => "\x7d") (fun _ => []) :=
  ⟨_, fun _ => ⟨_, found_closing d⟩⟩

theorem conveys_literal (constant : (String → String) → String) (d : Nat) :
    Conveys d d (fun f => literal (constant f)) (fun f => [constant f]) :=
  ⟨_, fun f => ⟨_, found_literal (constant f) d⟩⟩

theorem Conveys.before (h : Conveys a b text constants) {w : String} (hw : isPlainName w = true) :
    Conveys a b (fun f => w ++ text f) constants :=
  ((conveys_words hw a).append h).congr (fun _ => rfl) (fun _ => (List.nil_append _).symm)

theorem Conveys.behind (h : Conveys a b text constants) {w : String} (hw : isPlainName w = true) :
    Conveys a b (fun f => text f ++ w) constants :=
  (h.append (conveys_words hw b)).congr (fun _ => rfl) (fun _ => (List.append_nil _).symm)

/-- A call with a first argument and two constants behind it. -/
theorem Conveys.call {d : Nat} (h : Conveys d d text constants) {name : String}
    (hname : isPlainName name = true) (s t : (String → String) → String) :
    Conveys d d
      (fun f => name ++ text f ++ ", " ++ literal (s f) ++ ", " ++ literal (t f) ++ ")")
      (fun f => constants f ++ [s f, t f]) := by
  have hcomma : isPlainName ", " = true := by decide
  have hfirst := (((h.before hname).behind hcomma).append (conveys_literal s d)).behind hcomma
  refine ((hfirst.append (conveys_literal t d)).behind (by decide)).congr (fun _ => rfl) fun f => ?_
  rw [List.append_assoc]
  rfl

end Conveys

/-! ## Names and numbers -/

theorem isPlainName_append {s t : String} :
    isPlainName (s ++ t) = true ↔ isPlainName s = true ∧ isPlainName t = true := by
  simp [isPlainName, List.all_append]

theorem isPlainName_natText (n : Nat) : isPlainName (toString n) = true := by
  refine isPlainName_iff.2 fun c hc => ?_
  have hdigit : c.isDigit = true := Text.isDigit_of_mem_natText hc
  refine ⟨?_, ?_, ?_⟩ <;> rintro rfl <;> exact absurd hdigit (by decide)

theorem isPlainName_intText (n : Int) : isPlainName (toString n) = true := by
  cases n with
  | ofNat m => exact isPlainName_natText m
  | negSucc m => exact isPlainName_append.2 ⟨by decide, isPlainName_natText (m + 1)⟩

theorem isPlainName_indentation (depth : Nat) : isPlainName (indentation depth) = true := by
  refine isPlainName_iff.2 fun c hc => ?_
  rw [indentation, String.toList_ofList] at hc
  obtain rfl := List.eq_of_mem_replicate hc
  decide

theorem Place.isPlainName_text {p : Place} (h : p.hasPlainName = true) :
    isPlainName p.text = true := by
  cases p with
  | localVar name => exact isPlainName_append.2 ⟨by decide, h⟩
  | header m name =>
      refine isPlainName_append.2 ⟨isPlainName_append.2 ⟨?_, by decide⟩, h⟩
      cases m <;> decide
  | requestBackend => decide
  | backendUrl => decide
  | cacheable => decide

/-! ## Expressions -/

/-- An expression without constants. -/
theorem Expr.conveys_of_words {e : Expr} (hmap : ∀ f, e.mapTexts f = e)
    (hconstants : e.constants = []) (hrender : isPlainName e.render = true) (d : Nat) :
    Conveys d d (fun f => (e.mapTexts f).render) (fun f => (e.mapTexts f).constants) := by
  refine (conveys_words hrender d).congr (fun f => ?_) (fun f => ?_)
  · rw [hmap]
  · rw [hmap, hconstants]

theorem conveys_concat {d : Nat} {parts : List Expr}
    (h : Conveys d d (fun f => " + ".intercalate (renderAll (mapTextsAll f parts)))
      (fun f => constantsOfAll (mapTextsAll f parts))) :
    Conveys d d (fun f => ((Expr.concat parts).mapTexts f).render)
      (fun f => ((Expr.concat parts).mapTexts f).constants) := by
  cases parts with
  | nil => exact (conveys_literal (fun _ => "") d).congr (fun _ => rfl) (fun _ => rfl)
  | cons e r => exact h.congr (fun _ => rfl) (fun _ => rfl)

-- Induction on the expression. Each case puts the text together as it is written, from left to
-- right, and what is written of the constructor unfolds to that text.
mutual

theorem Expr.conveys (d : Nat) : ∀ e : Expr, e.hasPlainNames = true →
    Conveys d d (fun f => (e.mapTexts f).render) (fun f => (e.mapTexts f).constants)
  | .text s, _ => conveys_literal (fun f => f s) d
  | .bool b, _ => by
      refine Expr.conveys_of_words (fun _ => rfl) rfl ?_ d
      cases b <;> decide
  | .localVar name, h => by
      refine Expr.conveys_of_words (fun _ => rfl) rfl ?_ d
      exact Place.isPlainName_text (p := .localVar name) h
  | .header m name, h => by
      refine Expr.conveys_of_words (fun _ => rfl) rfl ?_ d
      exact Place.isPlainName_text (p := .header m name) h
  | .builtin b, _ => by
      refine Expr.conveys_of_words (fun _ => rfl) rfl ?_ d
      cases b <;> decide
  | .backend name, h => by
      refine Expr.conveys_of_words (fun _ => rfl) rfl ?_ d
      exact h
  | .healthy name, h => by
      refine Expr.conveys_of_words (fun _ => rfl) rfl ?_ d
      exact isPlainName_append.2 ⟨isPlainName_append.2 ⟨by decide, h⟩, by decide⟩
  | .random low high, _ => by
      refine Expr.conveys_of_words (fun _ => rfl) rfl ?_ d
      show isPlainName ("randomint(" ++ toString low ++ ", " ++ toString high ++ ")") = true
      simp only [isPlainName_append, isPlainName_intText]
      decide
  | .integerOf e, h => ((e.conveys d h).before (by decide)).behind (by decide)
  | .tableEntry table key default, h => by
      have htable : isPlainName table = true := h
      exact (conveys_words htable d).call (by decide) (fun f => f key) (fun f => f default)
  | .subfield source key separator, h =>
      (source.conveys d h).call (by decide) (fun f => f key) (fun f => f separator)
  | .replaceFirst input pattern replacement, h =>
      (input.conveys d h).call (by decide) (fun f => f pattern) (fun f => f replacement)
  | .group n, _ => by
      refine Expr.conveys_of_words (fun _ => rfl) rfl ?_ d
      exact isPlainName_append.2 ⟨by decide, isPlainName_natText n⟩
  | .concat parts, h => conveys_concat (conveysAll d (by decide) parts h)
  | .compare op lhs rhs, h => by
      obtain ⟨hl, hr⟩ : lhs.hasPlainNames = true ∧ rhs.hasPlainNames = true := by
        simpa [Expr.hasPlainNames] using h
      have hblank : isPlainName " " = true := by decide
      have hsign : isPlainName op.sign = true := by cases op <;> decide
      exact ((((lhs.conveys d hl).behind hblank).behind hsign).behind hblank).append
        (rhs.conveys d hr)
  | .isMatch subject pattern negated, h => by
      have hblank : isPlainName " " = true := by decide
      have hsign : isPlainName (matchSign negated) = true := by cases negated <;> decide
      exact ((((subject.conveys d h).behind hblank).behind hsign).behind hblank).append
        (conveys_literal (fun f => f pattern) d)
  | .all items, h => by
      have hand : isPlainName " && " = true := by decide
      exact ((conveysAll d hand items h).before (by decide)).behind (by decide)
  | .any items, h => by
      have hor : isPlainName " || " = true := by decide
      exact ((conveysAll d hor items h).before (by decide)).behind (by decide)

theorem conveysAll (d : Nat) {sep : String} (hsep : isPlainName sep = true) :
    ∀ l : List Expr, allHavePlainNames l = true →
      Conveys d d (fun f => sep.intercalate (renderAll (mapTextsAll f l)))
        (fun f => constantsOfAll (mapTextsAll f l))
  | [], _ => (conveys_words (by decide) d).congr (fun _ => String.intercalate_nil) (fun _ => rfl)
  | e :: r, h => by
      obtain ⟨he, hr⟩ : e.hasPlainNames = true ∧ allHavePlainNames r = true := by
        simpa [allHavePlainNames] using h
      have hfirst := e.conveys d he
      have hrest := conveysAll d hsep r hr
      cases r with
      | nil =>
          refine hfirst.congr (fun f => ?_) (fun f => ?_)
          · exact String.intercalate_singleton
          · exact List.append_nil _
      | cons e' r =>
          refine ((hfirst.behind hsep).append hrest).congr (fun f => ?_) (fun f => ?_)
          · exact String.intercalate_cons_cons
          · rfl

end

/-- A condition on its own has no parentheses around it. -/
theorem Expr.conveys_condition (d : Nat) (e : Expr) (h : e.hasPlainNames = true) :
    Conveys d d (fun f => (e.mapTexts f).renderCondition) (fun f => (e.mapTexts f).constants) := by
  have hand : isPlainName " && " = true := by decide
  have hor : isPlainName " || " = true := by decide
  cases e with
  | all items => exact conveysAll d hand items h
  | any items => exact conveysAll d hor items h
  | _ => exact Expr.conveys d _ h

/-! ## Statements -/

theorem conveys_assignment {d : Nat} {text : (String → String) → String}
    {constants : (String → String) → List String} (h : Conveys d d text constants) (depth : Nat)
    {target sign : String} (htarget : isPlainName target = true) (hsign : isPlainName sign = true) :
    Conveys d d (fun f => indentation depth ++ "set " ++ target ++ sign ++ text f ++ ";\n")
      constants := by
  have hset := (conveys_words (isPlainName_indentation depth) d).behind (w := "set ") (by decide)
  exact (((hset.behind htarget).behind hsign).append h).behind (by decide)

/-- Braces that are open in front of a part of a chain, when `d` are open around it. Only the first
part finds no brace of the chain open. -/
def openBefore (d : Nat) (first : Bool) : Nat := if first then d else d + 1

/-- The beginning of a part of a chain, which closes the part before it if there is one. -/
theorem conveys_link (d depth : Nat) (first : Bool) {s t u : String} (hs : isPlainName s = true)
    (ht : isPlainName t = true) (hu : u = "\x7d" ++ t) :
    Conveys (openBefore d first) d (fun _ => indentation depth ++ if first then s else u)
      (fun _ => []) := by
  subst hu
  cases first with
  | true => exact (conveys_words hs d).before (isPlainName_indentation depth)
  | false => exact ((conveys_closing d).behind ht).before (isPlainName_indentation depth)

/-- The end of a chain, which closes its last part if it has any. -/
theorem conveys_chainEnd (d depth : Nat) (empty : Bool) :
    Conveys (openBefore d empty) d (fun _ => if empty then "" else indentation depth ++ "\x7d\n")
      (fun _ => []) := by
  cases empty with
  | true => exact conveys_words (t := "") (by decide) d
  | false =>
      have hclosing := (conveys_closing d).behind (w := "\n") (by decide)
      exact hclosing.before (isPlainName_indentation depth)

theorem isEmpty_mapTextsBranches (f : String → String) (l : List (Expr × List Stmt)) :
    (mapTextsBranches f l).isEmpty = l.isEmpty := by
  cases l <;> rfl

theorem isNone_mapTextsOtherwise (f : String → String) (o : Option (List Stmt)) :
    (mapTextsOtherwise f o).isNone = o.isNone := by
  cases o <;> rfl

-- Induction on the statement. A chain keeps the count of open braces: each part but the first closes
-- the one before it, and each opens its own, so one is left for the end of the chain.
mutual

theorem Stmt.conveys (d depth : Nat) : ∀ s : Stmt, s.isPlain = true →
    Conveys d d (fun f => (s.mapTexts f).render depth) (fun f => (s.mapTexts f).constants)
  | .declare name type, h => by
      have hname : isPlainName name = true := h
      have htype : isPlainName type.word = true := by cases type <;> decide
      have hdeclare := (conveys_words (isPlainName_indentation depth) d).behind
        (w := "declare local var.") (by decide)
      have hnamed := (hdeclare.behind hname).behind (w := " ") (by decide)
      exact (hnamed.behind htype).behind (by decide)
  | .set place value, h => by
      obtain ⟨hplace, hvalue⟩ : place.hasPlainName = true ∧ value.hasPlainNames = true := by
        simpa [Stmt.isPlain] using h
      exact conveys_assignment (value.conveys d hvalue) depth (Place.isPlainName_text hplace)
        (by decide)
  | .add name value, h => by
      obtain ⟨hname, hvalue⟩ : isPlainName name = true ∧ value.hasPlainNames = true := by
        simpa [Stmt.isPlain] using h
      have htarget : isPlainName (localText name) = true :=
        Place.isPlainName_text (p := .localVar name) hname
      exact conveys_assignment (value.conveys d hvalue) depth htarget (by decide)
  | .choose branches otherwise, h => by
      obtain ⟨hbranches, hotherwise⟩ :
          branchesArePlain branches = true ∧ otherwiseIsPlain otherwise = true := by
        simpa [Stmt.isPlain] using h
      have hparts := (conveys_branches d depth true branches hbranches).append
        (conveys_otherwise d depth branches.isEmpty otherwise hotherwise)
      have hend := conveys_chainEnd d depth (branches.isEmpty && otherwise.isNone)
      refine (hparts.append hend).congr (fun f => ?_) (fun f => ?_)
      · rw [Stmt.mapTexts, Stmt.render, isEmpty_mapTextsBranches, isNone_mapTextsOtherwise]
      · rw [Stmt.mapTexts, Stmt.constants, List.append_nil]
  | .raw _, h => nomatch h

theorem conveys_stmts (d depth : Nat) : ∀ p : List Stmt, arePlain p = true →
    Conveys d d (fun f => renderStmts depth (mapTextsStmts f p))
      (fun f => stmtConstants (mapTextsStmts f p))
  | [], _ => conveys_words (by decide) d
  | s :: r, h => by
      obtain ⟨hs, hr⟩ : s.isPlain = true ∧ arePlain r = true := by simpa [arePlain] using h
      exact (Stmt.conveys d depth s hs).append (conveys_stmts d depth r hr)

theorem conveys_branches (d depth : Nat) (first : Bool) :
    ∀ l : List (Expr × List Stmt), branchesArePlain l = true →
      Conveys (openBefore d first) (openBefore d (first && l.isEmpty))
        (fun f => renderBranches depth first (mapTextsBranches f l))
        (fun f => branchConstants (mapTextsBranches f l))
  | [], _ => by
      rw [List.isEmpty_nil, Bool.and_true]
      exact conveys_words (by decide) _
  | (condition, body) :: r, h => by
      obtain ⟨⟨hcondition, hbody⟩, hr⟩ : (condition.hasPlainNames = true ∧ arePlain body = true) ∧
          branchesArePlain r = true := by
        simpa [branchesArePlain] using h
      have hlink : Conveys (openBefore d first) d
          (fun _ => indentation depth ++ if first then "if (" else "\x7d else if (") (fun _ => []) :=
        conveys_link d depth first (by decide) (t := " else if (") (by decide) (by decide)
      have hopening : Conveys d (d + 1) (fun _ => ") \x7b\n") (fun _ => []) :=
        ((conveys_opening d).before (w := ") ") (by decide)).congr (fun _ => by decide)
          (fun _ => rfl)
      have hhead := (hlink.append (condition.conveys_condition d hcondition)).append hopening
      have hrest : Conveys (d + 1) (d + 1)
          (fun f => renderBranches depth false (mapTextsBranches f r))
          (fun f => branchConstants (mapTextsBranches f r)) :=
        conveys_branches d depth false r hr
      rw [List.isEmpty_cons, Bool.and_false]
      refine ((hhead.append (conveys_stmts (d + 1) (depth + 1) body hbody)).append hrest).congr
        (fun f => ?_) (fun f => ?_)
      · rw [mapTextsBranches, renderBranches]
      · rw [mapTextsBranches, branchConstants, List.append_nil, List.nil_append]

theorem conveys_otherwise (d depth : Nat) (first : Bool) :
    ∀ o : Option (List Stmt), otherwiseIsPlain o = true →
      Conveys (openBefore d first) (openBefore d (first && o.isNone))
        (fun f => renderOtherwise depth first (mapTextsOtherwise f o))
        (fun f => otherwiseConstants (mapTextsOtherwise f o))
  | none, _ => by
      rw [Option.isNone_none, Bool.and_true]
      exact conveys_words (by decide) _
  | some body, h => by
      have hlink : Conveys (openBefore d first) d
          (fun _ => indentation depth ++ if first then "" else "\x7d else ") (fun _ => []) :=
        conveys_link d depth first (by decide) (t := " else ") (by decide) (by decide)
      have htext : (indentation depth ++ if first then "" else "\x7d else ") ++ "\x7b\n"
          = indentation depth ++ if first then "\x7b\n" else "\x7d else \x7b\n" := by
        rw [String.append_assoc]
        cases first <;> rfl
      rw [Option.isNone_some, Bool.and_false]
      refine ((hlink.append (conveys_opening d)).append
        (conveys_stmts (d + 1) (depth + 1) body h)).congr (fun f => ?_) (fun f => ?_)
      · rw [mapTextsOtherwise, renderOtherwise, htext]
      · rfl

end

/-! ## Programs -/

/-- What is found in a written program, and that the same stands outside of its strings when these
are emptied. -/
theorem found_render {p : Program} (hp : arePlain p = true) :
    ∃ l k, Found 0 0 (render p) (outsideOf l) (stmtConstants p) l
      ∧ lexemes? (render (blanked p)).toList = some k ∧ outsideOf k = outsideOf l := by
  obtain ⟨o, ho⟩ : ∃ o, ∀ f, ∃ l, Found 0 0 (render (mapTextsStmts f p)) o
      (stmtConstants (mapTextsStmts f p)) l := conveys_stmts 0 0 p hp
  obtain ⟨l, hl⟩ := ho id
  obtain ⟨k, hk⟩ := ho fun _ => ""
  rw [mapTextsStmts_id] at hl
  obtain rfl := hl.outside
  exact ⟨l, k, hl, hk.scans.lexemes?, hk.outside⟩

/-- The strings in a written program are its constants, and the text outside of them does not depend
on what these hold. -/
theorem lexemes_render (p : Program) (hp : arePlain p = true) :
    ∃ l, lexemes? (render p).toList = some l
      ∧ stringsIn l = (stmtConstants p).map String.toList
      ∧ (∀ s, .plain s ∈ l → '%' ∉ s)
      ∧ bracesBalance 0 l = true
      ∧ ∀ q, blanked q = blanked p →
          ∃ k, lexemes? (render q).toList = some k ∧ outsideOf k = outsideOf l := by
  obtain ⟨l, b, hl, hb, hlb⟩ := found_render hp
  have hbraces : bracesBalance 0 l = true := by
    rw [← List.append_nil l, hl.braces []]
    rfl
  refine ⟨l, hl.scans.lexemes?, hl.strings, hl.noPercent, hbraces, fun q hq => ?_⟩
  have hplain : arePlain q = true := by rw [arePlain_of_blanked_eq hq, hp]
  obtain ⟨k, b', hk, hb', hkb⟩ := found_render hplain
  -- Both programs are the same when emptied.
  rw [hq, hb] at hb'
  obtain rfl := Option.some.inj hb'
  exact ⟨k, hk.scans.lexemes?, hkb.symm.trans hlb⟩

/-- A chain in which two constants stand in a condition and two in the body of a branch. -/
def pathChain (pattern host first second : String) : Program :=
  [.choose
    [(.all [.isMatch (.builtin .requestUrl) pattern false,
        .any [.compare .equal (.header .request "Host") (.text host), .healthy "F_a"]],
      [.set (.header .request "X-Path") (.concat [.text first, .concat [], .text second])])]
    (some [.set .requestBackend (.backend "F_b")])]

/-- Constants that look like the end of a string, of a long string or of a branch. -/
theorem lexemes_pathChain :
    ∃ l, lexemes? (render (pathChain "\"" "\"\x7d" "\"E\x7d%20" "\x7d\n")).toList = some l
      ∧ stringsIn l = [['"'], ['"', '\x7d'], ['"', 'E', '\x7d', '%', '2', '0'], [], ['\x7d', '\n']]
      ∧ bracesBalance 0 l = true
      ∧ ∃ k, lexemes? (render (pathChain "a" "b" "c" "d")).toList = some k
          ∧ outsideOf k = outsideOf l := by
  obtain ⟨l, hl, hstrings, -, hbraces, hsame⟩ :=
    lexemes_render (pathChain "\"" "\"\x7d" "\"E\x7d%20" "\x7d\n") (by decide)
  exact ⟨l, hl, hstrings, hbraces, hsame (pathChain "a" "b" "c" "d") rfl⟩

end EdgeRouting.Logic
