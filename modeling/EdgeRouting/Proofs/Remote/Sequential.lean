import EdgeRouting.Proofs.Rollout.Calls
import EdgeRouting.Proofs.Rollout.Replay
import EdgeRouting.Proofs.Rollout.Sequential
import EdgeRouting.Remote.Interleaving

/-!
# A rollout over HTTP is one of its interleavings

A rollout that makes one call at a time makes the conversations of its calls one behind the other
(`Conversations`). That is one of the orders in which they can mix (`happens_run`), since no call is
made twice: what happens for the sake of a call is then its one conversation.

What a client does over a transport does not depend on what has been written down before, so a
conversation in the middle of a record is the one that the call has on its own
(`exists_converses`).
-/

namespace EdgeRouting

open Http Rollout Blueprint

namespace Http.Transport

variable {σ τ : Type}

/-- One transport answers as another one, in states that stand for states of that one. -/
def Follows (q : Transport τ) (p : Transport σ) (f : τ → σ) : Prop :=
  ∀ r t, p.send r (f t) = ((q.send r t).1, f (q.send r t).2)

theorem deliver_of_follows {q : Transport τ} {p : Transport σ} {f : τ → σ} (h : q.Follows p f)
    (r : Request) (t : τ) : p.deliver r (f t) = ((q.deliver r t).1, f (q.deliver r t).2) := by
  unfold deliver
  split
  · exact h r t
  · rfl

/-- What was written down before changes nothing. -/
theorem transcribed_follows (t : Transport σ) (log : List Passage) :
    t.transcribed.Follows t.transcribed fun s => (s.1, log ++ s.2) := by
  intro r s
  simp only [transcribed, List.append_assoc]

end Http.Transport

namespace Remote.Client

variable {c : Client} {σ τ : Type} {q : Transport τ} {p : Transport σ} {f : τ → σ}
  {layers : List (List Item)} {call : Call} {x : List Exchange} {t : List Happening} {v : Nat}

/-! ## Clients over transports that follow each other -/

theorem exchange_of_follows {α : Type} (h : q.Follows p f) (resource : String) (method : Method)
    (segments : List String) (form : Option Fields) (decode : String → Option α) (s : τ) :
    c.exchange p resource method segments form decode (f s)
      = ((c.exchange q resource method segments form decode s).1,
        f (c.exchange q resource method segments form decode s).2) := by
  unfold exchange
  cases c.endpoint? segments with
  | none => rfl
  | some url =>
      simp only
      rw [Transport.deliver_of_follows h]
      rcases q.deliver (c.request method url form) s with ⟨reply, s'⟩
      cases reply with
      | none => rfl
      | some reply =>
          simp only
          split
          · cases decode reply.body <;> rfl
          · rfl

theorem openVersion_of_follows (h : q.Follows p f) (s : τ) :
    c.openVersion p (f s) = ((c.openVersion q s).1, f (c.openVersion q s).2) := by
  unfold openVersion
  rw [exchange_of_follows h]
  rcases c.exchange q "version" .get ["version"] none readVersions s with ⟨listed, s'⟩
  cases listed with
  | error e => rfl
  | ok versions =>
      simp only
      cases ServiceVersion.base? versions with
      | none => rfl
      | some base =>
          simp only
          rw [exchange_of_follows h]
          rcases c.exchange q "version" .put (versioned base.number ["clone"]) none readVersion s'
            with ⟨cloned, s''⟩
          cases cloned <;> rfl

theorem write_of_follows (h : q.Follows p f) (version : Nat) (r : Resource) (s : τ) :
    c.write p version r (f s) = ((c.write q version r s).1, f (c.write q version r s).2) := by
  unfold write
  simp only
  rw [exchange_of_follows h]
  rcases c.exchange q r.key.text .put (versioned version [r.key.kind.word, r.key.name])
    (some r.fields) readAnything s with ⟨changed, s'⟩
  cases changed with
  | ok u => rfl
  | error e =>
      simp only
      split
      · exact exchange_of_follows h _ _ _ _ _ s'
      · rfl

/-- The platforms that a client reaches over transports follow each other as the transports do. -/
theorem platform_follows (c : Client) (h : q.Follows p f) :
    (c.platform q).Follows (c.platform p) f := by
  intro call s
  cases call with
  | openVersion => exact openVersion_of_follows h s
  | write version r => exact write_of_follows h version r s
  | create version b => exact exchange_of_follows h _ _ _ _ _ s
  | update version b => exact exchange_of_follows h _ _ _ _ _ s
  | activate version => exact exchange_of_follows h _ _ _ _ _ s

theorem exists_converses (c : Client) (t : Transport σ) (call : Call) (s : σ)
    (log : List Passage) : ∃ l, ((c.platform t.transcribed).answer call (s, log)).2.2 = log ++ l
      ∧ c.Converses call l ((c.platform t.transcribed).answer call (s, log)).1 := by
  have hfollows := platform_follows c (t.transcribed_follows log) call (s, [])
  rw [List.append_nil] at hfollows
  exact ⟨_, congrArg (·.2.2) hfollows, σ, t, s, _, by rw [hfollows]; rfl⟩

/-! ## Conversations one behind the other -/

/-- The conversations of exchanges, none of which begins before the one in front of it has ended. -/
inductive Conversations (c : Client) : List Exchange → List Happening → Prop where
  | nil : Conversations c [] []
  | cons {e : Exchange} {x : List Exchange} {l : List Passage} {t : List Happening} :
    c.Converses e.call l e.result → Conversations c x t →
      Conversations c (e :: x) (conversation e.call l e.result ++ t)

theorem passages_conversation (call : Call) (l : List Passage)
    (result : Except CallFailure call.Answer) :
    (conversation call l result).filterMap Happening.passage? = l := by
  have hpassages : (l.map (Happening.passage call)).filterMap Happening.passage? = l := by
    rw [List.filterMap_map]
    exact List.filterMap_some
  rw [conversation, List.filterMap_append]
  show (l.map (Happening.passage call)).filterMap Happening.passage? ++ [] = l
  rw [hpassages, List.append_nil]

theorem events_conversation (e : Exchange) (l : List Passage) :
    (conversation e.call l e.result).filterMap Happening.event? = e.events := by
  have hpassages : (l.map (Happening.passage e.call)).filterMap Happening.event? = [] := by
    rw [List.filterMap_map]
    exact List.filterMap_eq_nil_iff.2 fun _ _ => rfl
  rw [conversation, List.filterMap_append]
  show .asked e.call :: (l.map (Happening.passage e.call)).filterMap Happening.event?
    ++ [.answered e.call e.result] = _
  rw [hpassages, Exchange.events]
  cases e.result <;> rfl

theorem Conversations.events (h : c.Conversations x t) :
    t.filterMap Happening.event? = x.flatMap Exchange.events := by
  induction h with
  | nil => rfl
  | cons _ _ ih => rw [List.filterMap_append, events_conversation, ih, List.flatMap_cons]

/-- What a platform over a transport did is told by conversations. -/
theorem conversations_of_replays {transport : Transport σ} {s s' : σ × List Passage}
    (h : (c.platform transport.transcribed).Replays s x s') :
    ∃ t, c.Conversations x t ∧ s'.2 = s.2 ++ t.filterMap Happening.passage? := by
  induction x generalizing s with
  | nil =>
      obtain rfl : s = s' := h
      exact ⟨[], .nil, (List.append_nil _).symm⟩
  | cons e x ih =>
      obtain ⟨hresult, hrest⟩ := h
      obtain ⟨t, ht, hlog⟩ := ih hrest
      obtain ⟨l, hl, hconverses⟩ := exists_converses c transport e.call s.1 s.2
      rw [hresult] at hconverses
      refine ⟨_, .cons hconverses ht, ?_⟩
      rw [hlog, hl, List.filterMap_append, passages_conversation, List.append_assoc]

theorem call_of_mem_conversation {h : Happening} {l : List Passage}
    {result : Except CallFailure call.Answer} (hmem : h ∈ conversation call l result) :
    h.call = call := by
  simp only [conversation, List.cons_append, List.mem_cons, List.mem_append, List.mem_map,
    List.not_mem_nil, or_false] at hmem
  rcases hmem with rfl | ⟨p, -, rfl⟩ | rfl
  · rfl
  · rfl
  · cases result <;> rfl

theorem filter_conversation_self (l : List Passage) (result : Except CallFailure call.Answer) :
    (conversation call l result).filter (·.call = call) = conversation call l result :=
  List.filter_eq_self.2 fun _ hx => decide_eq_true (call_of_mem_conversation hx)

theorem filter_conversation_of_ne {call' : Call} (hne : call' ≠ call) (l : List Passage)
    (result : Except CallFailure call'.Answer) :
    (conversation call' l result).filter (·.call = call) = [] := by
  refine List.filter_eq_nil_iff.2 fun x hx hcall => hne ?_
  exact (call_of_mem_conversation hx).symm.trans (of_decide_eq_true hcall)

theorem Conversations.filter_of_not_mem (h : c.Conversations x t)
    (hcall : call ∉ x.map Exchange.call) : t.filter (·.call = call) = [] := by
  induction h with
  | nil => rfl
  | cons _ _ ih =>
      rw [List.map_cons, List.mem_cons, not_or] at hcall
      rw [List.filter_append, filter_conversation_of_ne (Ne.symm hcall.1), ih hcall.2]
      rfl

/-- When no call is made twice, what happens for the sake of a call is one conversation. -/
theorem Conversations.carries (h : c.Conversations x t) (hnodup : (x.map Exchange.call).Nodup) :
    c.Carries t := by
  intro call
  induction h with
  | nil =>
      obtain ⟨l, -, hconverses⟩ := exists_converses c .unreachable call () []
      exact ⟨l, _, hconverses, List.nil_prefix⟩
  | @cons e x l t hconverses hrest ih =>
      obtain ⟨hnew, hothers⟩ := List.nodup_cons.1 hnodup
      by_cases hcall : e.call = call
      · subst hcall
        have hone : (conversation e.call l e.result ++ t).filter (·.call = e.call)
            = conversation e.call l e.result := by
          rw [List.filter_append, filter_conversation_self, hrest.filter_of_not_mem hnew,
            List.append_nil]
        exact ⟨l, e.result, hconverses, [], by rw [List.append_nil, hone]⟩
      · rw [List.filter_append, filter_conversation_of_ne hcall]
        exact ih hothers

/-! ## A whole rollout -/

/-- The failure that a rollout ends with, if it fails. -/
def failureOf : Except RolloutFailure Report → Option RolloutFailure
  | .ok _ => none
  | .error f => some f

theorem asked_events (x : List Exchange) :
    (x.flatMap Exchange.events).filterMap Event.asked? = x.map Exchange.call := by
  induction x with
  | nil => rfl
  | cons e x ih =>
      have hone : e.events.filterMap Event.asked? = [e.call] := by
        rw [Exchange.events]
        cases e.result <;> rfl
      rw [List.flatMap_cons, List.filterMap_append, hone, ih, List.map_cons, List.singleton_append]

/-- What a rollout that makes one call at a time does over a transport is one of the things that can
happen. -/
theorem happens_run (c : Client) (transport : Transport σ) {b : Blueprint}
    (h : b.layers = .ok layers) (s : σ) :
    ∃ t, c.Happens layers t
        (failureOf (run (c.platform transport.transcribed) b (s, [])).1)
      ∧ t.filterMap Happening.passage?
        = (run (c.platform transport.transcribed) b (s, [])).2.2 := by
  obtain ⟨t, ht, hlog⟩ := conversations_of_replays
    (run_replays (c.platform transport.transcribed) b (s, []))
  refine ⟨t, ?_, by rw [hlog, List.nil_append]⟩
  -- What happens behind the opening is carried, as no call is made twice.
  have hopened : ∀ {v x}, transcript (c.platform transport.transcribed) b (s, [])
      = ⟨.openVersion, .ok v⟩ :: x → c.Happens layers t
        (failureOf (run (c.platform transport.transcribed) b (s, [])).1) := by
    intro v x htranscript
    rw [htranscript] at ht
    cases ht with
    | @cons _ _ l t hconverses hrest =>
        obtain ⟨p, hsteps, hhistory, hfailed⟩ := steps_transcript _ h _ htranscript
        have hnodup := hsteps.nodup_asked (layering_of_layers h).nodup
        rw [hhistory, List.filterMap_append, asked_events] at hnodup
        have hcontinues : c.Continues layers v p t :=
          ⟨hsteps, by rw [hhistory, hrest.events], hrest.carries (List.nodup_append.1 hnodup).2.1⟩
        cases hresult : (run (c.platform transport.transcribed) b (s, [])).1 with
        | ok r => exact .writing hconverses hcontinues
        | error f =>
            obtain ⟨call, e, hrefused, hfatal, rfl⟩ := hfailed f hresult
            exact .failed hconverses hcontinues hrefused hfatal
  have hwalked := walked_of_layers (c.platform transport.transcribed) h (s, [])
  cases hresult : (run (c.platform transport.transcribed) b (s, [])).1 with
  | ok r =>
      rw [hresult] at hwalked
      obtain ⟨⟨x, htranscript, -⟩, -⟩ : Completed layers _ r := hwalked
      rw [← hresult]
      exact hopened htranscript
  | error f =>
      rw [hresult] at hwalked
      have hstopped : Stopped layers _ f := hwalked
      cases hstopped with
      | opening htranscript =>
          rw [htranscript] at ht
          cases ht with
          | cons hconverses hrest =>
              cases hrest
              rw [List.append_nil]
              exact .notOpened hconverses
      | writing _ htranscript _ _ _ _ =>
          rw [← hresult]
          exact hopened htranscript

end Remote.Client

end EdgeRouting
