import EdgeRouting.Rollout.Basic

/-!
# Transcripts of rollouts

A transcript lists the calls that a rollout made together with their answers. It is kept by a
platform that answers like another one and writes down what it was asked and what it answered, so
the transcript is fixed by the platform and its first state alone.

Keeping a transcript changes nothing: `run_of_follows` says that a rollout goes the same way on two
platforms of which one follows the other, and both the transcript and the record of calls are kept
by platforms that follow the one they are kept of.
-/

namespace EdgeRouting

/-- A call and the answer to it. -/
structure Exchange where
  call : Call
  result : Except CallFailure call.Answer

namespace Platform

variable {σ τ : Type}

/-- The platform that also keeps a transcript, latest exchange last. -/
def transcribed (p : Platform σ) : Platform (σ × List Exchange) where
  answer c s := ((p.answer c s.1).1, ((p.answer c s.1).2, s.2 ++ [⟨c, (p.answer c s.1).1⟩]))

theorem transcribed_answer {p : Platform σ} {c : Call} {s s' : σ}
    {r : Except CallFailure c.Answer} (h : p.answer c s = (r, s')) (log : List Exchange) :
    p.transcribed.answer c (s, log) = (r, (s', log ++ [⟨c, r⟩])) := by
  simp [transcribed, h]

/-- One platform gives the answers of another one, in states that stand for states of that one. -/
def Follows (q : Platform τ) (p : Platform σ) (f : τ → σ) : Prop :=
  ∀ c t, p.answer c (f t) = ((q.answer c t).1, f (q.answer c t).2)

theorem transcribed_follows (p : Platform σ) : p.transcribed.Follows p Prod.fst :=
  fun _ _ => rfl

theorem transcribed_follows_recorded (p : Platform σ) :
    p.transcribed.Follows p.recorded fun s => (s.1, s.2.map Exchange.call) := by
  intro c s
  show ((p.answer c s.1).1, ((p.answer c s.1).2, s.2.map Exchange.call ++ [c])) = _
  simp only [transcribed, List.map_append, List.map_cons, List.map_nil]

end Platform

namespace Rollout

open Platform

variable {σ τ : Type} {q : Platform τ} {p : Platform σ} {f : τ → σ}

/-! ## Rollouts on platforms that follow each other -/

theorem writeItem_of_follows (h : q.Follows p f) (version : Nat) (i : Blueprint.Item) (t : τ) :
    writeItem p version i (f t)
      = ((writeItem q version i t).1, f (writeItem q version i t).2) := by
  unfold writeItem
  split
  · next b _ =>
    rw [h]
    rcases q.answer (.create version b) t with ⟨r, t'⟩
    cases r with
    | ok u => rfl
    | error e =>
        cases he : e.isConflict with
        | false => simp [he]
        | true =>
            simp only [he, if_true]
            rw [h]
            rcases q.answer (.update version b) t' with ⟨r', t''⟩
            cases r' <;> rfl
  · rw [h]
    rcases q.answer (.write version i.resource) t with ⟨r, t'⟩
    cases r <;> rfl

theorem writeItems_of_follows (h : q.Follows p f) (done : Report) (items : List Blueprint.Item)
    (t : τ) :
    writeItems p done (f t) items
      = ((writeItems q done t items).1, f (writeItems q done t items).2) := by
  induction items generalizing done t with
  | nil => rfl
  | cons i r ih =>
      rw [writeItems, writeItems, writeItem_of_follows h]
      rcases writeItem q done.version i t with ⟨result, t'⟩
      cases result with
      | error e => rfl
      | ok existed => exact ih _ t'

theorem writeLayers_of_follows (h : q.Follows p f) (done : Report)
    (layers : List (List Blueprint.Item)) (t : τ) :
    writeLayers p done (f t) layers
      = ((writeLayers q done t layers).1, f (writeLayers q done t layers).2) := by
  induction layers generalizing done t with
  | nil => rfl
  | cons layer r ih =>
      rw [writeLayers, writeLayers, writeItems_of_follows h]
      rcases writeItems q { done with stages := enter (stageOf layer) done.stages } t layer
        with ⟨result, t'⟩
      cases result with
      | error e => rfl
      | ok done' => exact ih done' t'

/-- A rollout has the same result on a platform that follows another one, and ends in a state that
stands for the state in which it ends there. -/
theorem run_of_follows (h : q.Follows p f) (b : Blueprint) (t : τ) :
    run p b (f t) = ((run q b t).1, f (run q b t).2) := by
  unfold run
  cases b.layers with
  | error fault => rfl
  | ok layers =>
      simp only
      rw [h]
      rcases q.answer .openVersion t with ⟨r, t'⟩
      cases r with
      | error e => rfl
      | ok version => exact writeLayers_of_follows h _ layers t'

/-! ## The transcript of a rollout -/

/-- The calls of a rollout with their answers, in order. -/
def transcript (p : Platform σ) (b : Blueprint) (s : σ) : List Exchange :=
  (run p.transcribed b (s, [])).2.2

theorem run_transcribed (p : Platform σ) (b : Blueprint) (s : σ) :
    run p.transcribed b (s, []) = ((run p b s).1, ((run p b s).2, transcript p b s)) := by
  have h := run_of_follows p.transcribed_follows b (s, [])
  rw [show run p b s = _ from h]
  rfl

/-- The calls of the transcript are those that are recorded. -/
theorem run_recorded (p : Platform σ) (b : Blueprint) (s : σ) :
    run p.recorded b (s, [])
      = ((run p b s).1, ((run p b s).2, (transcript p b s).map Exchange.call)) := by
  have h := run_of_follows p.transcribed_follows_recorded b (s, [])
  rw [run_transcribed] at h
  exact h

end Rollout

end EdgeRouting
