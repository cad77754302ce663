import EdgeRouting.Http.Store
import EdgeRouting.Remote.Reply

/-!
# Servers that keep resources

What is asked of a server that keeps resources is how it answers about single ones, whatever its
states are and whatever else it does (`KeepsStore`). The server whose states are what it keeps is
one of them (`keepsStore_transport`).
-/

namespace EdgeRouting.Http

variable {σ : Type}

/-- A reply that reports success with a body that can be read. -/
def IsDone (reply : Option Reply) : Prop :=
  ∃ body, reply = some ⟨200, body⟩ ∧ Remote.readAnything body = some ()

/-- A server that keeps resources behind a root. Its states show what it keeps: what is there can be
changed and not created, and what is not there can be created and not changed. -/
structure KeepsStore (t : Transport σ) (root : List String) (view : σ → Store) : Prop where
  missing {r : Request} {s : σ} {version kind name : String} : r.method = .put →
    Store.segmentsBehind? root r.url = some ["version", version, kind, name] →
    view s ⟨version, kind, name⟩ = none →
    (∃ body, (t.send r s).1 = some ⟨404, body⟩) ∧ view (t.send r s).2 = view s
  changed {r : Request} {s : σ} {version kind name : String} : r.method = .put →
    Store.segmentsBehind? root r.url = some ["version", version, kind, name] →
    (view s ⟨version, kind, name⟩).isSome = true →
    IsDone (t.send r s).1
      ∧ view (t.send r s).2 = (view s).put ⟨version, kind, name⟩ r.body
  created {r : Request} {s : σ} {version kind name : String} : r.method = .post →
    Store.segmentsBehind? root r.url = some ["version", version, kind] →
    (formFields? r.body).bind (·.lookup "name") = some name →
    view s ⟨version, kind, name⟩ = none →
    IsDone (t.send r s).1
      ∧ view (t.send r s).2 = (view s).put ⟨version, kind, name⟩ r.body
  taken {r : Request} {s : σ} {version kind name : String} : r.method = .post →
    Store.segmentsBehind? root r.url = some ["version", version, kind] →
    (formFields? r.body).bind (·.lookup "name") = some name →
    (view s ⟨version, kind, name⟩).isSome = true →
    (∃ body, (t.send r s).1 = some ⟨409, body⟩) ∧ view (t.send r s).2 = view s

theorem isDone_done : IsDone (some Store.done) :=
  ⟨_, rfl, by with_unfolding_all rfl⟩

/-- The server whose states are what it keeps. -/
theorem keepsStore_transport (root : List String) : KeepsStore (Store.transport root) root id where
  missing := by
    intro r s version kind name hmethod hread hnone
    have hnone' : s ⟨version, kind, name⟩ = none := hnone
    simp only [Store.transport, Store.answer, hmethod, hread, hnone', Option.isSome_none,
      Bool.false_eq_true, if_false]
    exact ⟨⟨_, rfl⟩, trivial⟩
  changed := by
    intro r s version kind name hmethod hread hsome
    have hsome' : (s ⟨version, kind, name⟩).isSome = true := hsome
    simp only [Store.transport, Store.answer, hmethod, hread, hsome', if_true]
    exact ⟨isDone_done, rfl⟩
  created := by
    intro r s version kind name hmethod hread hname hnone
    have hnone' : s ⟨version, kind, name⟩ = none := hnone
    simp only [Store.transport, Store.answer, hmethod, hread, hname, hnone', Option.isSome_none,
      Bool.false_eq_true, if_false]
    exact ⟨isDone_done, rfl⟩
  taken := by
    intro r s version kind name hmethod hread hname hsome
    have hsome' : (s ⟨version, kind, name⟩).isSome = true := hsome
    simp only [Store.transport, Store.answer, hmethod, hread, hname, hsome', if_true]
    exact ⟨⟨_, rfl⟩, trivial⟩

end EdgeRouting.Http
