import EdgeRouting.Logic.Eval
import EdgeRouting.Proofs.Text.Decimal

/-!
# Runs of straight-line programs and of chains of conditions

The facts about `Stmt.run` that a generated program is reasoned about with. A generated program has
one statement for each item of a list: a declaration, an assignment, a branch. The lemmas here treat
such a block as a whole. Given that the names of the items are different, a block of declarations
gives each local its first value (`runAll_declare`), a block of assignments gives each local the
value of its expression (`runAll_setLocals`), and neither touches another local or anything else of
the state. A chain of conditions runs the body of the first item that its condition holds of
(`runBranches_map`). Statements that neither read nor write headers may run before a header is set or
behind it (`runAll_setHeader`).
-/

namespace EdgeRouting.Logic

variable {edge : Edge} {α : Type}

/-! ## Integers and their texts -/

theorem numberOfDigits_toDigits (n : Nat) : numberOfDigits (Nat.toDigits 10 n) = n := by
  have hdigits : (Nat.toDigits 10 n).all Char.isDigit = true :=
    List.all_eq_true.2 fun _ hc => Text.isDigit_of_mem_toDigits hc
  rw [numberOfDigits, if_pos hdigits, Nat.ofDigitChars_ten_toDigits]

/-- Digits are not mistaken for a sign. -/
theorem integerOfText_ofDigits {s : String} {ds : List Char} (hs : s.toList = ds)
    (hds : ∀ c ∈ ds, c.isDigit = true) : integerOfText s = numberOfDigits ds := by
  unfold integerOfText
  rw [hs]
  split
  · exact absurd (hds '-' List.mem_cons_self) (by decide)
  · rfl

theorem integerOfText_toString (n : Int) : integerOfText (toString n) = n := by
  cases n with
  | ofNat m =>
      have hs : (toString (Int.ofNat m)).toList = Nat.toDigits 10 m := Text.toList_natText m
      rw [integerOfText_ofDigits hs fun _ hc => Text.isDigit_of_mem_toDigits hc,
        numberOfDigits_toDigits]
      rfl
  | negSucc m =>
      have hs : (toString (Int.negSucc m)).toList = '-' :: Nat.toDigits 10 (m + 1) := by
        show ("-" ++ toString (m + 1)).toList = _
        rw [String.toList_append, Text.toList_natText]
        rfl
      unfold integerOfText
      rw [hs]
      show -(numberOfDigits (Nat.toDigits 10 (m + 1)) : Int) = _
      rw [numberOfDigits_toDigits]
      rfl

/-! ## Statements in order -/

theorem runAll_append (s : RequestState) (a b : List Stmt) :
    runAll edge s (a ++ b) = (runAll edge s a).bind fun s => runAll edge s b := by
  induction a generalizing s with
  | nil => rfl
  | cons st r ih =>
      rw [List.cons_append, runAll, runAll]
      cases st.run edge s with
      | none => rfl
      | some s' => exact ih s'

theorem runAll_append_of_eq {s s' : RequestState} {a b : List Stmt}
    (h : runAll edge s a = some s') : runAll edge s (a ++ b) = runAll edge s' b := by
  rw [runAll_append, h]
  rfl

theorem runAll_cons_of_eq {s s' : RequestState} {st : Stmt} {r : List Stmt}
    (h : st.run edge s = some s') : runAll edge s (st :: r) = runAll edge s' r := by
  rw [runAll, h]
  rfl

/-! ## Locals -/

@[simp] theorem RequestState.setLocal_locals_self (s : RequestState) (name : String)
    (v : LogicValue) : (s.setLocal name v).locals name = some v := by
  simp [RequestState.setLocal]

theorem RequestState.setLocal_locals_of_ne (s : RequestState) {n name : String}
    (h : n ≠ name) (v : LogicValue) : (s.setLocal name v).locals n = s.locals n := by
  simp [RequestState.setLocal, h]

/-! ## Headers -/

@[simp] theorem RequestState.locals_setHeader (s : RequestState) (m : Message)
    (name value : String) : (s.setHeader m name value).locals = s.locals := rfl

theorem RequestState.header?_setHeader_self (s : RequestState) (m : Message)
    (name value : String) : (s.setHeader m name value).header? m name = some value := by
  simp [RequestState.setHeader, RequestState.header?]

/-- Setting a header leaves those alone whose names differ by more than the case of letters. -/
theorem RequestState.header?_setHeader_of_ne (s : RequestState) {m : Message}
    {n name : String} (h : headerKey n ≠ headerKey name) (value : String) :
    (s.setHeader m name value).header? m n = s.header? m n := by
  simp [RequestState.setHeader, RequestState.header?, h]

/-- The later of two values for one header counts. -/
theorem RequestState.setHeader_setHeader (s : RequestState) {name name' : String}
    (h : headerKey name = headerKey name') (m : Message) (value value' : String) :
    (s.setHeader m name value).setHeader m name' value' = s.setHeader m name' value' := by
  unfold setHeader
  congr 1
  funext m' n
  by_cases hn : m' = m ∧ n = headerKey name' <;> simp [hn, h]

/-! ## Blocks of declarations and assignments -/

theorem runAll_declare (edge : Edge) {name : α → String} (type : LocalType) {items : List α}
    {s : RequestState}
    (hnd : (items.map name).Nodup) (hnew : ∀ a ∈ items, s.locals (name a) = none) :
    ∃ L, runAll edge s (items.map fun a => .declare (name a) type) = some { s with locals := L }
      ∧ (∀ a ∈ items, L (name a) = some type.initial)
      ∧ (∀ n, n ∉ items.map name → L n = s.locals n) := by
  induction items generalizing s with
  | nil => exact ⟨s.locals, rfl, by simp, fun _ _ => rfl⟩
  | cons a r ih =>
      rw [List.map_cons, List.nodup_cons] at hnd
      obtain ⟨hfresh, hnd⟩ := hnd
      have hne : ∀ b ∈ r, name b ≠ name a :=
        fun b hb heq => hfresh (heq ▸ List.mem_map_of_mem hb)
      have hrun : (Stmt.declare (name a) type).run edge s
          = some (s.setLocal (name a) type.initial) := by
        simp [Stmt.run, hnew a List.mem_cons_self]
      obtain ⟨L, hL, hin, hout⟩ := ih (s := s.setLocal (name a) type.initial) hnd
        (fun b hb => by
          rw [s.setLocal_locals_of_ne (hne b hb)]
          exact hnew b (List.mem_cons_of_mem _ hb))
      refine ⟨L, ?_, ?_, ?_⟩
      · rw [List.map_cons, runAll_cons_of_eq hrun, hL]
        rfl
      · intro b hb
        rcases List.mem_cons.1 hb with rfl | hb
        · rw [hout _ hfresh, s.setLocal_locals_self]
        · exact hin b hb
      · intro n hn
        simp only [List.map_cons, List.mem_cons, not_or] at hn
        rw [hout n hn.2, s.setLocal_locals_of_ne hn.1]

/-- An assignment whose expression has a value that fits the local. -/
theorem run_setLocal {s : RequestState} {name : String} {e : Expr} {held v : LogicValue}
    (heval : e.eval edge s = some (v, s)) (hheld : s.locals name = some held)
    (hfits : valueFor held v = some v) :
    (Stmt.setLocal name e).run edge s = some (s.setLocal name v) := by
  simp [Stmt.setLocal, Stmt.run, heval, Place.assign, hheld, hfits]

/-- Assignments to different locals, with expressions that read none of them, give each local the
value of its expression. -/
theorem runAll_setLocals (edge : Edge) (name : α → String) (value : α → Expr)
    (result : α → LogicValue) {items : List α} {s : RequestState} (hnd : (items.map name).Nodup)
    (heval : ∀ a ∈ items, ∀ L, (∀ n, n ∉ items.map name → L n = s.locals n) →
      (value a).eval edge { s with locals := L } = some (result a, { s with locals := L }))
    (hheld : ∀ a ∈ items, ∃ held, s.locals (name a) = some held
      ∧ valueFor held (result a) = some (result a)) :
    ∃ L, runAll edge s (items.map fun a => Stmt.setLocal (name a) (value a))
        = some { s with locals := L }
      ∧ (∀ a ∈ items, L (name a) = some (result a))
      ∧ (∀ n, n ∉ items.map name → L n = s.locals n) := by
  induction items generalizing s with
  | nil => exact ⟨s.locals, rfl, by simp, fun _ _ => rfl⟩
  | cons a r ih =>
      rw [List.map_cons, List.nodup_cons] at hnd
      obtain ⟨hfresh, hnd⟩ := hnd
      have hne : ∀ b ∈ r, name b ≠ name a :=
        fun b hb heq => hfresh (heq ▸ List.mem_map_of_mem hb)
      have hrun : (Stmt.setLocal (name a) (value a)).run edge s
          = some (s.setLocal (name a) (result a)) := by
        obtain ⟨held, hh, hfits⟩ := hheld a List.mem_cons_self
        exact run_setLocal (heval a List.mem_cons_self s.locals fun _ _ => rfl) hh hfits
      obtain ⟨L, hL, hin, hout⟩ := ih (s := s.setLocal (name a) (result a)) hnd
        (fun b hb L hL => heval b (List.mem_cons_of_mem _ hb) L fun n hn => by
          simp only [List.map_cons, List.mem_cons, not_or] at hn
          rw [hL n hn.2, s.setLocal_locals_of_ne hn.1])
        (fun b hb => by
          rw [s.setLocal_locals_of_ne (hne b hb)]
          exact hheld b (List.mem_cons_of_mem _ hb))
      refine ⟨L, ?_, ?_, ?_⟩
      · rw [List.map_cons, runAll_cons_of_eq hrun, hL]
        rfl
      · intro b hb
        rcases List.mem_cons.1 hb with rfl | hb
        · rw [hout _ hfresh, s.setLocal_locals_self]
        · exact hin b hb
      · intro n hn
        simp only [List.map_cons, List.mem_cons, not_or] at hn
        rw [hout n hn.2, s.setLocal_locals_of_ne hn.1]

/-! ## Expressions -/

section Expressions

variable {s s' : RequestState} {e : Expr} {r : List Expr}

theorem allHold_cons_of_true (h : e.eval edge s = some (.flag true, s')) :
    allHold edge s (e :: r) = allHold edge s' r := by
  rw [allHold, h]
  rfl

theorem allHold_cons_of_false (h : e.eval edge s = some (.flag false, s')) :
    allHold edge s (e :: r) = some (false, s') := by
  rw [allHold, h]
  rfl

theorem anyHolds_cons_of_true (h : e.eval edge s = some (.flag true, s')) :
    anyHolds edge s (e :: r) = some (true, s') := by
  rw [anyHolds, h]
  rfl

theorem anyHolds_cons_of_false (h : e.eval edge s = some (.flag false, s')) :
    anyHolds edge s (e :: r) = anyHolds edge s' r := by
  rw [anyHolds, h]
  rfl

theorem allHold_singleton {b : Bool} (h : e.eval edge s = some (.flag b, s')) :
    allHold edge s [e] = some (b, s') := by
  cases b with
  | true => rw [allHold_cons_of_true h, allHold]
  | false => rw [allHold_cons_of_false h]

theorem anyHolds_singleton {b : Bool} (h : e.eval edge s = some (.flag b, s')) :
    anyHolds edge s [e] = some (b, s') := by
  cases b with
  | true => rw [anyHolds_cons_of_true h]
  | false => rw [anyHolds_cons_of_false h, anyHolds]

theorem eval_all_of_eq {items : List Expr} {b : Bool}
    (h : allHold edge s items = some (b, s')) :
    (Expr.all items).eval edge s = some (.flag b, s') := by
  rw [Expr.eval, h]
  rfl

theorem eval_any_of_eq {items : List Expr} {b : Bool}
    (h : anyHolds edge s items = some (b, s')) :
    (Expr.any items).eval edge s = some (.flag b, s') := by
  rw [Expr.eval, h]
  rfl

theorem eval_localVar {name : String} {v : LogicValue} (h : s.locals name = some v) :
    (Expr.localVar name).eval edge s = some (v, s) := by
  rw [Expr.eval, h]
  rfl

theorem eval_replaceFirst {v : LogicValue} {text : String} {p : Pattern} (replacement : String)
    (h : e.eval edge s = some (v, s')) (hp : edge.pattern? text = some p) :
    (Expr.replaceFirst e text replacement).eval edge s
      = some (.text (p.replaceFirst v.asText replacement), s') := by
  rw [Expr.eval, h]
  show (edge.pattern? text).bind _ = _
  rw [hp]
  rfl

/-- A match is remembered when there is one, whether or not it is asked for. -/
theorem eval_isMatch {v : LogicValue} {text : String} {p : Pattern} (negated : Bool)
    (h : e.eval edge s = some (v, s)) (hp : edge.pattern? text = some p) :
    (Expr.isMatch e text negated).eval edge s
      = match p.find? v.asText with
        | some m => some (.flag !negated, { s with lastMatch := some m })
        | none => some (.flag negated, s) := by
  rw [Expr.eval, h]
  show (edge.pattern? text).bind _ = _
  rw [hp]
  rfl

end Expressions

/-! ## Chains of conditions -/

/-- A chain of conditions that are flags runs the body of the first item whose flag is set. The
conditions may leave matches behind, which is all of the state that they change. -/
theorem runBranches_map (branch : α → Expr × List Stmt) (holds : α → Bool) {items : List α}
    {s : RequestState}
    (hcond : ∀ a ∈ items, ∀ m, ∃ m', (branch a).1.eval edge { s with lastMatch := m }
      = some (.flag (holds a), { s with lastMatch := m' })) (m : Option Pattern.Match) :
    ∃ m', runBranches edge { s with lastMatch := m } (items.map branch)
      = match items.find? holds with
        | some a => (runAll edge { s with lastMatch := m' } (branch a).2).map fun s => (s, true)
        | none => some ({ s with lastMatch := m' }, false) := by
  induction items generalizing m with
  | nil => exact ⟨m, rfl⟩
  | cons a r ih =>
      obtain ⟨m₁, hm₁⟩ := hcond a List.mem_cons_self m
      cases ha : holds a with
      | true =>
          refine ⟨m₁, ?_⟩
          rw [List.map_cons, List.find?_cons_of_pos ha]
          simp only [runBranches, hm₁, ha, Option.bind_eq_bind, Option.bind_some]
          cases runAll edge { s with lastMatch := m₁ } (branch a).2 <;> rfl
      | false =>
          obtain ⟨m₂, hm₂⟩ := ih (fun b hb => hcond b (List.mem_cons_of_mem _ hb)) m₁
          refine ⟨m₂, ?_⟩
          rw [List.map_cons, List.find?_cons_of_neg (by simp [ha]), ← hm₂]
          simp only [runBranches, hm₁, ha, Option.bind_eq_bind, Option.bind_some]

/-! ## Statements that ignore headers -/

/-- It makes no difference whether a header is set before the expression or behind it. -/
def Expr.IgnoresHeaders (edge : Edge) (e : Expr) : Prop :=
  ∀ (s : RequestState) (m : Message) (name value : String),
    e.eval edge (s.setHeader m name value)
      = (e.eval edge s).map fun r => (r.1, r.2.setHeader m name value)

/-- It makes no difference whether a header is set before the statement or behind it. -/
def Stmt.IgnoresHeaders (edge : Edge) (st : Stmt) : Prop :=
  ∀ (s : RequestState) (m : Message) (name value : String),
    st.run edge (s.setHeader m name value)
      = (st.run edge s).map fun s' => s'.setHeader m name value

theorem ignoresHeaders_localVar (name : String) : (Expr.localVar name).IgnoresHeaders edge := by
  intro s m header value
  rw [Expr.eval, Expr.eval, RequestState.locals_setHeader]
  cases s.locals name <;> rfl

theorem ignoresHeaders_random (low high : Int) : (Expr.random low high).IgnoresHeaders edge := by
  intro s m header value
  rw [Expr.eval, Expr.eval]
  split <;> rfl

theorem ignoresHeaders_declare (name : String) (type : LocalType) :
    (Stmt.declare name type).IgnoresHeaders edge := by
  intro s m header value
  rw [Stmt.run, Stmt.run, RequestState.locals_setHeader]
  cases (s.locals name).isSome <;> rfl

theorem ignoresHeaders_setLocal (name : String) {e : Expr} (he : e.IgnoresHeaders edge) :
    (Stmt.setLocal name e).IgnoresHeaders edge := by
  intro s m header value
  rw [Stmt.setLocal, Stmt.run, Stmt.run, he s m header value]
  cases e.eval edge s with
  | none => rfl
  | some r =>
      obtain ⟨v, s'⟩ := r
      show ((s'.locals name).bind fun held => (valueFor held v).bind fun w =>
          some ((s'.setHeader m header value).setLocal name w))
        = ((s'.locals name).bind fun held => (valueFor held v).bind fun w =>
          some (s'.setLocal name w)).map fun s' => s'.setHeader m header value
      cases s'.locals name with
      | none => rfl
      | some held =>
          show ((valueFor held v).bind fun w => _) = ((valueFor held v).bind fun w => _).map _
          cases valueFor held v <;> rfl

theorem ignoresHeaders_add (name : String) {e : Expr} (he : e.IgnoresHeaders edge) :
    (Stmt.add name e).IgnoresHeaders edge := by
  intro s m header value
  rw [Stmt.run, Stmt.run, he s m header value]
  cases e.eval edge s with
  | none => rfl
  | some r =>
      obtain ⟨v, s'⟩ := r
      simp only [Option.map_some, Option.bind_eq_bind, Option.bind_some,
        RequestState.locals_setHeader]
      split <;> rfl

theorem runAll_setHeader {l : List Stmt} (h : ∀ st ∈ l, st.IgnoresHeaders edge)
    (s : RequestState) (m : Message) (name value : String) :
    runAll edge (s.setHeader m name value) l
      = (runAll edge s l).map fun s' => s'.setHeader m name value := by
  induction l generalizing s with
  | nil => rfl
  | cons st r ih =>
      rw [List.forall_mem_cons] at h
      rw [runAll, runAll, h.1 s m name value]
      cases st.run edge s with
      | none => rfl
      | some s' => exact ih h.2 s'

end EdgeRouting.Logic
