import Mathlib.Data.List.Nodup
import Mathlib.Data.List.Perm.Subperm
import EdgeRouting.Proofs.Blueprint.Layers
import EdgeRouting.Rollout.Interleaving

/-!
# No call is made twice

The calls that a rollout can make are known before it begins: one for each resource, and a second
one for a backend. What has been asked for and what can still be asked for never become more
(`Step.calls_subperm`): a task that asks spends what it asks for, and a task that ends gives up the
rest. So no call is made twice, and every call writes a resource of the layers.
-/

namespace EdgeRouting.Rollout

open Blueprint

variable {layers : List (List Item)} {v : Nat} {i : Item} {p q : Progress}

def Event.asked? : Event → Option Call
  | .asked c => some c
  | _ => none

/-- The calls with which a resource may be written. -/
def callsOf (v : Nat) : Resource → List Call
  | .backend b => [.create v b, .update v b]
  | r => [.write v r]

/-- What is left to a task behind its first call. -/
def secondCall (v : Nat) : Resource → List Call
  | .backend b => [.update v b]
  | _ => []

/-- The calls that a task can still make. -/
def Task.left (v : Nat) (t : Task) : List Call :=
  match t.state with
  | .waiting => callsOf v t.item.resource
  | .asking (.create _ _) => secondCall v t.item.resource
  | .conflicting => secondCall v t.item.resource
  | _ => []

/-- The calls that have been made, and those that can still be made. -/
def Progress.calls (v : Nat) (p : Progress) : List Call :=
  p.history.filterMap Event.asked? ++ (p.tasks.flatMap (Task.left v)
    ++ p.later.flatten.flatMap fun i => callsOf v i.resource)

/-- A task spends what it asks for. -/
theorem TaskStep.left_sublist {s s' : TaskState} {e : Event} (h : TaskStep v i s e s') :
    (e.asked?.toList ++ Task.left v ⟨i, s'⟩).Sublist (Task.left v ⟨i, s⟩) := by
  cases h with
  | start =>
      obtain ⟨r, deps⟩ := i
      cases r <;> exact List.Sublist.refl _
  | again hb =>
      simp only [Event.asked?, Task.left, secondCall, hb]
      exact List.Sublist.refl _
  | grant => exact List.nil_sublist _
  | conflict _ => exact List.Sublist.refl _
  | refuse _ => exact List.nil_sublist _

theorem Step.calls_subperm (h : Step v p q) : (q.calls v).Subperm (p.calls v) := by
  cases h with
  | @enter layer later _ hdone hlater =>
      have hspent : p.tasks.flatMap (Task.left v) = [] := by
        refine List.flatMap_eq_nil_iff.2 fun t ht => ?_
        rw [Task.left, hdone t ht]
      have hentered : (layer.map fun i => (⟨i, .waiting⟩ : Task)).flatMap (Task.left v)
          = layer.flatMap fun i => callsOf v i.resource := by
        rw [List.flatMap_map]
        rfl
      simp only [Progress.calls, hspent, hentered, hlater, List.flatten_cons, List.flatMap_append,
        List.nil_append]
      exact List.Subperm.refl _
  | @goOn before after t e state _ htasks htask _ =>
      have hasked : [e].filterMap Event.asked? = e.asked?.toList := by cases e <;> rfl
      have hrest := (htask.left_sublist.append (List.Sublist.refl (after.flatMap (Task.left v)
        ++ p.later.flatten.flatMap fun i => callsOf v i.resource))).append_left
          (before.flatMap (Task.left v))
      simp only [Progress.calls, htasks, List.filterMap_append, List.flatMap_append,
        List.flatMap_cons, List.append_assoc, hasked] at hrest ⊢
      -- What is asked for stands behind the history, in front of the tasks before the asking one.
      refine ((List.perm_append_comm_assoc _ _ _).append_left _).subperm.trans ?_
      exact (hrest.append_left _).subperm
  | stop _ _ _ => exact List.Subperm.refl _

theorem Steps.calls_subperm (h : Steps v p q) : (q.calls v).Subperm (p.calls v) := by
  induction h with
  | refl => exact List.Subperm.refl _
  | tail _ hstep ih => exact hstep.calls_subperm.trans ih

/-! ## From the beginning on -/

theorem calls_start (layers : List (List Item)) : (Progress.start layers).calls v
    = .openVersion :: layers.flatten.flatMap fun i => callsOf v i.resource :=
  rfl

theorem key?_of_mem_callsOf {r : Resource} {c : Call} (h : c ∈ callsOf v r) :
    c.key? = some r.key := by
  cases r with
  | backend b =>
      simp only [callsOf, List.mem_cons, List.not_mem_nil, or_false] at h
      rcases h with rfl | rfl <;> rfl
  | _ =>
      obtain rfl := List.mem_singleton.1 h
      rfl

theorem nodup_callsOf (v : Nat) (r : Resource) : (callsOf v r).Nodup := by
  cases r <;> simp [callsOf]

theorem nodup_calls_start (h : (layers.flatten.map Item.key).Nodup) :
    ((Progress.start layers).calls v).Nodup := by
  rw [calls_start, List.nodup_cons]
  constructor
  · intro hmem
    obtain ⟨i, -, hi⟩ := List.mem_flatMap.1 hmem
    cases key?_of_mem_callsOf hi
  · refine List.nodup_flatMap.2 ⟨fun i _ => nodup_callsOf v i.resource, ?_⟩
    refine (List.pairwise_map.1 h).imp fun hne c hc hc' => hne ?_
    exact Option.some.inj ((key?_of_mem_callsOf hc).symm.trans (key?_of_mem_callsOf hc'))

/-- Only calls that write a resource of the layers are made behind the opening of the version. -/
theorem Steps.mem_callsOf (h : Steps v (Progress.start layers) p) {c : Call}
    (hc : .asked c ∈ p.history) :
    c = .openVersion ∨ ∃ i ∈ layers.flatten, c ∈ callsOf v i.resource := by
  have hmem : c ∈ p.calls v := List.mem_append_left _ (List.mem_filterMap.2 ⟨_, hc, rfl⟩)
  have hstart := h.calls_subperm.subset hmem
  rw [calls_start] at hstart
  rcases List.mem_cons.1 hstart with rfl | hstart
  · exact .inl rfl
  · exact .inr (List.mem_flatMap.1 hstart)

theorem Steps.nodup_asked (h : Steps v (Progress.start layers) p)
    (hkeys : (layers.flatten.map Item.key).Nodup) :
    (p.history.filterMap Event.asked?).Nodup := by
  obtain ⟨l, hperm, hsub⟩ := h.calls_subperm
  have hall := hperm.nodup_iff.1 (hsub.nodup (nodup_calls_start hkeys))
  exact (List.nodup_append.1 hall).1

end EdgeRouting.Rollout
