import EdgeRouting.Proofs.Rollout.Transcript

/-!
# Transcripts can be replayed

A transcript tells everything a rollout did to a platform: answering its calls again, from the same
state, gives the same answers and ends in the state in which the rollout ended (`run_replays`). What
calls do to a platform therefore has to be known of single calls only.

The proof goes through the platform whose states are those that satisfy an invariant. It follows the
platform that it restricts, so a rollout cannot leave them (`run_keeps`).
-/

namespace EdgeRouting

namespace Platform

variable {σ : Type} {p : Platform σ} {Inv : σ → Prop}

/-- The platform with only those states that satisfy an invariant of it. -/
def restricted (p : Platform σ) (h : ∀ c s, Inv s → Inv (p.answer c s).2) :
    Platform { s // Inv s } where
  answer c s := ((p.answer c s.1).1, ⟨(p.answer c s.1).2, h c s.1 s.2⟩)

theorem restricted_follows (h : ∀ c s, Inv s → Inv (p.answer c s).2) :
    (p.restricted h).Follows p Subtype.val :=
  fun _ _ => rfl

/-- Exchanges are what a platform does from one state to another. -/
def Replays (p : Platform σ) : σ → List Exchange → σ → Prop
  | s, [], s' => s = s'
  | s, x :: t, s' => (p.answer x.call s).1 = x.result ∧ p.Replays (p.answer x.call s).2 t s'

theorem Replays.concat {s s' : σ} {t : List Exchange} (h : p.Replays s t s') (c : Call) :
    p.Replays s (t ++ [⟨c, (p.answer c s').1⟩]) (p.answer c s').2 := by
  induction t generalizing s with
  | nil =>
      obtain rfl : s = s' := h
      exact ⟨rfl, rfl⟩
  | cons x t ih => exact ⟨h.1, ih h.2⟩

end Platform

namespace Rollout

open Platform

variable {σ : Type} {p : Platform σ} {Inv : σ → Prop}

/-- A rollout keeps what every call keeps. -/
theorem run_keeps (h : ∀ c s, Inv s → Inv (p.answer c s).2) (b : Blueprint) {s : σ} (hs : Inv s) :
    Inv (run p b s).2 := by
  have hfollows : run p b s = _ := run_of_follows (restricted_follows h) b ⟨s, hs⟩
  rw [hfollows]
  exact Subtype.property _

theorem run_replays (p : Platform σ) (b : Blueprint) (s : σ) :
    p.Replays s (transcript p b s) (run p b s).2 := by
  have hkept : ∀ c (u : σ × List Exchange), p.Replays s u.2 u.1 →
      p.Replays s (p.transcribed.answer c u).2.2 (p.transcribed.answer c u).2.1 :=
    fun c _ hu => hu.concat c
  have hrun := run_keeps hkept b (s := (s, [])) rfl
  rwa [run_transcribed] at hrun

end Rollout

end EdgeRouting
