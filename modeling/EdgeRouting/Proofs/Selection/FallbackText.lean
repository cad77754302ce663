import EdgeRouting.Proofs.Logic.RawText
import EdgeRouting.Proofs.Rollout.Preparation
import EdgeRouting.Proofs.Selection.InForce

/-!
# Fallback logic as it is written

The logic of the first target stands in the last block of the fragment that selects a backend,
behind the line that sets the backend (`fragment?_backend`). There it has the lines of raw text, so
it arrives as it is configured exactly if every line of it ends in a character that shows.
-/

namespace EdgeRouting

open Logic

namespace Selector

variable {p : Selector}

/-- What is written of a selector in front of its last block. -/
def textBeforeOtherwise (p : Selector) : String :=
  renderStmts 0 p.program.dropLast
    ++ renderBranches 0 true (p.contenders.map (winBranch p.lockHeader))

/-- The lines of the last block. -/
def otherwiseLines (p : Selector) : List (List Char) :=
  ("set req.backend = " ++ (p.contenders.head p.nonempty).backend ++ ";").toList
    :: (if Text.isBlankText p.fallbackLogic then [] else keptLines p.fallbackLogic.toList)

theorem renderStmts_append (depth : Nat) (a b : List Stmt) :
    renderStmts depth (a ++ b) = renderStmts depth a ++ renderStmts depth b := by
  induction a with
  | nil => exact String.empty_append.symm
  | cons s r ih => rw [List.cons_append, renderStmts, ih, renderStmts, String.append_assoc]

theorem render_setBackend (depth : Nat) (name : String) :
    (Stmt.set .requestBackend (.backend name)).render depth
      = indentation depth ++ ("set req.backend = " ++ name ++ ";") ++ "\n" := by
  have hbefore : "set req.backend = " = "set " ++ "req.backend" ++ " = " := rfl
  have hrender : (Stmt.set .requestBackend (.backend name)).render depth
      = indentation depth ++ "set " ++ "req.backend" ++ " = " ++ name ++ (";" ++ "\n") := rfl
  rw [hrender, hbefore]
  simp only [String.append_assoc]

theorem renderStmts_fallbackStmts (p : Selector) :
    renderStmts 1 p.fallbackStmts = blockText (indentation 1) p.otherwiseLines := by
  rw [fallbackStmts, otherwiseLines, blockText_cons, String.ofList_toList, ← render_setBackend]
  split
  · rfl
  · rw [← renderRaw_eq]
    exact congrArg _ String.append_empty

theorem program_eq_concat (p : Selector) : p.program = p.program.dropLast
    ++ [.choose (p.contenders.map (winBranch p.lockHeader)) (some p.fallbackStmts)] := by
  have hlast : p.program.getLast? = some
      (.choose (p.contenders.map (winBranch p.lockHeader)) (some p.fallbackStmts)) := by
    rw [program, List.getLast?_append]
    rfl
  exact (List.dropLast_append_getLast? _ hlast).symm

theorem render_choose (depth : Nat) {branches : List (Expr × List Stmt)} (hne : branches ≠ [])
    (body : List Stmt) : (Stmt.choose branches (some body)).render depth
      = renderBranches depth true branches
        ++ (indentation depth ++ "\x7d else \x7b\n" ++ renderStmts (depth + 1) body)
        ++ (indentation depth ++ "\x7d\n") := by
  cases branches with
  | nil => exact absurd rfl hne
  | cons b r => rfl

theorem render_program (p : Selector) : render p.program =
    p.textBeforeOtherwise ++ "\x7d else \x7b\n" ++ blockText (indentation 1) p.otherwiseLines
      ++ "\x7d\n" := by
  have hne : p.contenders.map (winBranch p.lockHeader) ≠ [] := by simp [p.nonempty]
  have hchoice : render p.program = renderStmts 0 p.program.dropLast
      ++ ((Stmt.choose (p.contenders.map (winBranch p.lockHeader)) (some p.fallbackStmts)).render 0
        ++ "") := by
    rw [render, program_eq_concat, renderStmts_append, ← program_eq_concat]
    rfl
  have hzero : indentation 0 = "" := rfl
  rw [hchoice, render_choose 0 hne, renderStmts_fallbackStmts, textBeforeOtherwise, hzero]
  simp only [String.append_assoc, String.empty_append, String.append_empty]

end Selector

namespace EdgeLogic

variable {first : Target} {rest : List Target} {table : WeightTable} {lockHeader : String}
  {logic : EdgeLogic}

theorem head_contenders {p : Selector}
    (h : Selector.ofTargets (first :: rest) table lockHeader = .ok p) :
    (p.contenders.head p.nonempty).backend = first.backendRef
      ∧ p.fallbackLogic = first.fallbackLogic := by
  obtain ⟨-, hcontenders, -, -, hfallback⟩ := Selector.ofTargets_eq_ok h
  refine ⟨?_, hfallback⟩
  simp only [hcontenders]
  rfl

/-- The text of the fragment that selects a backend, when the last block has these lines behind the
one that sets the backend of the first target. -/
def selectionText (logic : EdgeLogic) (first : Target) (lines : List (List Char)) : String :=
  logic.selector.textBeforeOtherwise ++ "\x7d else \x7b\n"
    ++ blockText "  " (("set req.backend = " ++ first.backendRef ++ ";").toList :: lines)
    ++ "\x7d\n"

theorem fragment?_backend (h : ofTargets (first :: rest) table lockHeader = .ok logic)
    (hvisible : Text.isBlankText first.fallbackLogic = false) :
    logic.fragment? "backend" = some ⟨"backend", .recv,
      logic.selectionText first (keptLines first.fallbackLogic.toList)⟩ := by
  obtain ⟨hselector, -, hfragments⟩ := ofTargets_eq_ok h
  obtain ⟨hbackend, hfallback⟩ := head_contenders hselector
  have hindentation : indentation 1 = "  " := rfl
  have htext := logic.selector.render_program
  rw [Selector.otherwiseLines, hbackend, hfallback, hvisible, hindentation] at htext
  rw [fragment?, hfragments, fragmentsOf, List.find?_cons_of_pos rfl, htext]
  rfl

/-- The fallback logic of the first target stands in the last block of the fragment that selects a
backend, with the lines of it that show anything up to the last character that does. It is found
again behind the indentation, but for a line break at its end, exactly when all its lines end in a
character that shows. -/
theorem fallbackLogic_written (h : ofTargets (first :: rest) table lockHeader = .ok logic)
    (hvisible : Text.isBlankText first.fallbackLogic = false) :
    let text := first.fallbackLogic.toList
    logic.fragment? "backend" = some ⟨"backend", .recv, logic.selectionText first (keptLines text)⟩
      ∧ (keptLines text = linesOf text ↔ ∀ l ∈ linesOf text, EndsVisibly l)
      ∧ ((blockText "" (keptLines text)).toList = text
          ∨ (blockText "" (keptLines text)).toList = text ++ ['\n']
        ↔ ∀ l ∈ linesOf text, EndsVisibly l) :=
  ⟨fragment?_backend h hvisible,
    ⟨fun heq _ hl => endsVisibly_of_mem_keptLines (heq ▸ hl), keptLines_eq_linesOf⟩,
    blockText_keptLines_iff⟩

/-! ### Fallback logic over several lines

A long string can go over several lines, and what stands in it is content. -/

def loneTarget (fallbackLogic : String) : Target :=
  ⟨"store", "store.example", "", ⟨"/", [.literal "/"]⟩, fallbackLogic⟩

def loneSelector (fallbackLogic : String) : Selector :=
  ⟨[⟨"store", "store", "F_store", 100, 100⟩], 100, fallbackLogic, "X-Pin", by simp⟩

def loneOutbound (fallbackLogic : String) : Outbound :=
  ⟨[Outbound.Route.ofTarget (loneTarget fallbackLogic)]⟩

def loneLogic (fallbackLogic : String) : EdgeLogic :=
  ⟨loneSelector fallbackLogic, loneOutbound fallbackLogic,
    fragmentsOf (loneSelector fallbackLogic) (loneOutbound fallbackLogic)⟩

def denseLogic : String := "synthetic \x7b\"a\n  b\"\x7d;\nreturn(deliver);"

theorem fallbackLogic_written_dense :
    ofTargets [loneTarget denseLogic] .empty "X-Pin" = .ok (loneLogic denseLogic)
      ∧ Text.isBlankText denseLogic = false
      ∧ (blockText "" (keptLines denseLogic.toList)).toList = denseLogic.toList ++ ['\n'] := by
  have h : ofTargets [loneTarget denseLogic] .empty "X-Pin" = .ok (loneLogic denseLogic) := rfl
  have hvisible : Text.isBlankText denseLogic = false := by decide
  obtain ⟨-, -, hfound⟩ := fallbackLogic_written h hvisible
  have hlines : ∀ l ∈ linesOf denseLogic.toList, EndsVisibly l := by decide
  exact ⟨h, hvisible, (hfound.2 hlines).resolve_left (by decide)⟩

def sparseLogic : String := "synthetic \x7b\"a\n\n  b  \n\"\x7d;"

/-- The empty line and the blanks behind the last letter are lost. -/
theorem fallbackLogic_written_sparse :
    ofTargets [loneTarget sparseLogic] .empty "X-Pin" = .ok (loneLogic sparseLogic)
      ∧ Text.isBlankText sparseLogic = false
      ∧ linesOf sparseLogic.toList
        = ["synthetic \x7b\"a".toList, [], "  b  ".toList, "\"\x7d;".toList]
      ∧ ∃ f, (loneLogic sparseLogic).fragment? "backend" = some f
        ∧ f.content = (loneLogic sparseLogic).selectionText (loneTarget sparseLogic)
          ["synthetic \x7b\"a".toList, "  b".toList, "\"\x7d;".toList]
        ∧ f.content ≠ (loneLogic sparseLogic).selectionText (loneTarget sparseLogic)
          (linesOf sparseLogic.toList) := by
  have h : ofTargets [loneTarget sparseLogic] .empty "X-Pin" = .ok (loneLogic sparseLogic) := rfl
  have hvisible : Text.isBlankText sparseLogic = false := by decide
  have hkept : keptLines sparseLogic.toList
      = ["synthetic \x7b\"a".toList, "  b".toList, "\"\x7d;".toList] := by decide
  refine ⟨h, hvisible, by decide, _, fragment?_backend h hvisible,
    congrArg ((loneLogic sparseLogic).selectionText (loneTarget sparseLogic)) hkept, ?_⟩
  intro heq
  have hblock := (String.append_right_inj _).1 ((String.append_left_inj _).1 heq)
  revert hblock
  decide

end EdgeLogic

end EdgeRouting
