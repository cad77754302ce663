import Mathlib.Data.List.Forall2

/-!
# Lists

Facts about lists that more than one topic needs: where an element stands in a list whose members
differ in something (`position_inj`) or in two lists one behind the other (`append_eq_append_cons`),
and what it takes for all elements to be read (`mapM_eq_some_iff`).
-/

namespace EdgeRouting

variable {α β : Type}

/-- Where no two members agree in something, agreement in it is agreement in position. -/
theorem position_inj {f : α → β} {l : List α} {i j : Nat} {a b : α} (h : (l.map f).Nodup)
    (ha : l[i]? = some a) (hb : l[j]? = some b) (hab : f a = f b) : i = j := by
  have hlt : i < (l.map f).length := by
    rw [List.length_map]
    exact (List.getElem?_eq_some_iff.1 ha).1
  refine (List.getElem?_inj hlt h).1 ?_
  rw [List.getElem?_map, List.getElem?_map, ha, hb, Option.map_some, Option.map_some, hab]

/-- An element of two lists one behind the other is in the first of them, or in the second. -/
theorem append_eq_append_cons {l r before after : List α} {a : α}
    (h : l ++ r = before ++ a :: after) :
    (∃ rest, l = before ++ a :: rest ∧ after = rest ++ r)
      ∨ ∃ between, before = l ++ between ∧ r = between ++ a :: after := by
  rcases List.append_eq_append_iff.1 h with ⟨between, hbefore, hr⟩ | ⟨rest, hl, hrest⟩
  · exact .inr ⟨between, hbefore, hr⟩
  · cases rest with
    | nil => exact .inr ⟨[], by simpa using hl.symm, hrest.symm⟩
    | cons first rest =>
        obtain ⟨rfl, hafter⟩ := List.cons.inj hrest
        exact .inl ⟨rest, hl, hafter⟩

/-- A list is read when each element is, and the results stand in its order. -/
theorem mapM_eq_some_iff {f : α → Option β} {l : List α} {m : List β} :
    l.mapM f = some m ↔ List.Forall₂ (fun a b => f a = some b) l m := by
  induction l generalizing m with
  | nil => simp [eq_comm]
  | cons a l ih =>
      rw [List.mapM_cons, List.forall₂_cons_left_iff]
      simp only [Option.bind_eq_bind, Option.bind_eq_some_iff, Option.pure_def, Option.some.injEq,
        ih]
      constructor
      · rintro ⟨b, hb, m, hm, rfl⟩
        exact ⟨b, m, hb, hm, rfl⟩
      · rintro ⟨b, m, hb, hm, rfl⟩
        exact ⟨b, hb, m, hm, rfl⟩

end EdgeRouting
