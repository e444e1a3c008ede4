import Mathlib.Data.List.DropRight
import PokeStroller.Lib.Runs

/-!
# Queues

An unbounded queue with its log: what was put in at the back, what was taken
from the front, and where it was emptied. Since it was last emptied, what was
taken and what is left are together what was put in.
-/

namespace PokeStroller

inductive FifoEvent (α : Type)
  | put (xs : List α)
  | take (xs : List α)
  | reset
  deriving DecidableEq, Repr

namespace FifoEvent

def added : FifoEvent α → List α
  | put xs => xs
  | _ => []

def removed : FifoEvent α → List α
  | take xs => xs
  | _ => []

def isReset : FifoEvent α → Bool
  | reset => true
  | _ => false

theorem eq_reset {e : FifoEvent α} (h : e.isReset = true) : e = reset := by
  cases e with
  | reset => rfl
  | _ => cases h

end FifoEvent

namespace Fifo

inductive Step : List α → FifoEvent α → List α → Prop
  | put (q xs : List α) : Step q (.put xs) (q ++ xs)
  | take (xs q : List α) : Step (xs ++ q) (.take xs) q
  | reset (q : List α) : Step q .reset []

theorem Step.front (q : List α) (n : Nat) : Step q (.take (q.take n)) (q.drop n) := by
  have h := Step.take (q.take n) (q.drop n)
  rwa [List.take_append_drop] at h

def puts (log : List (FifoEvent α)) : List α := log.flatMap FifoEvent.added
def takes (log : List (FifoEvent α)) : List α := log.flatMap FifoEvent.removed

/-- The events since the queue was last emptied. -/
def session (log : List (FifoEvent α)) : List (FifoEvent α) := log.rtakeWhile (!·.isReset)

/-- Without a reset nothing is lost, repeated or reordered. -/
theorem takes_append {log : List (FifoEvent α)} (h : Runs Step q log q') (hlog : .reset ∉ log) :
    takes log ++ q' = q ++ puts log := by
  induction h with
  | nil => simp [puts, takes]
  | cons hstep _ ih =>
    have ih := ih fun h => hlog (List.mem_cons_of_mem _ h)
    cases hstep with
    | put q xs => simpa [puts, takes, FifoEvent.added, FifoEvent.removed] using ih
    | take xs q => simpa [puts, takes, FifoEvent.added, FifoEvent.removed] using ih
    | reset => exact absurd List.mem_cons_self hlog

theorem after_reset {es : List (FifoEvent α)} (h : Runs Step q (es ++ [.reset]) q') :
    q' = [] := by
  obtain ⟨t, -, hlast⟩ := h.split
  cases hlast with
  | cons hstep hnil =>
    cases hstep
    cases hnil
    rfl

theorem split_session (log : List (FifoEvent α)) :
    session log = log ∨ ∃ es, log = (es ++ [.reset]) ++ session log := by
  induction log using List.reverseRecOn with
  | nil => exact .inl rfl
  | append_singleton log e ih =>
    unfold session at ih ⊢
    rw [List.rtakeWhile_concat]
    cases hreset : e.isReset with
    | true =>
      rw [FifoEvent.eq_reset hreset]
      exact .inr ⟨log, by simp⟩
    | false =>
      rw [if_pos (by simp)]
      rcases ih with h | ⟨es, h⟩
      · exact .inl (by rw [h])
      · exact .inr ⟨es, by rw [← List.append_assoc, ← h]⟩

/-- The queue holds what was put in since it was last emptied and has not been
taken since. -/
theorem takes_session {log : List (FifoEvent α)} (h : Runs Step [] log q) :
    takes (session log) ++ q = puts (session log) := by
  have hnone : .reset ∉ session log := fun hmem => by
    simpa [FifoEvent.isReset] using List.mem_rtakeWhile_imp hmem
  rcases split_session log with hall | ⟨es, hsplit⟩
  · rw [← hall] at h
    exact takes_append h hnone
  · rw [hsplit] at h
    obtain ⟨t, hbefore, hsession⟩ := h.split
    obtain rfl := after_reset hbefore
    exact takes_append hsession hnone

/-- The session of a queue that is one part of a larger history. -/
theorem session_filterMap {f : ε → Option (FifoEvent α)} {stop : ε → Bool}
    (hstop : ∀ e, stop e = true → f e = some .reset)
    (hgo : ∀ e x, stop e = false → f e = some x → x.isReset = false) (log : List ε) :
    session (log.filterMap f) = (log.rtakeWhile (!stop ·)).filterMap f := by
  induction log using List.reverseRecOn with
  | nil => rfl
  | append_singleton log e ih =>
    rw [List.filterMap_append, List.rtakeWhile_concat]
    cases he : stop e with
    | true => simp [hstop e he, session, FifoEvent.isReset]
    | false =>
      rw [if_pos (by simp), List.filterMap_append, ← ih]
      cases hf : f e with
      | none => simp [hf]
      | some x => simp [hf, session, hgo e x he hf]

/-- A queue of which each event of a larger history takes and puts some. -/
theorem takes_flatMap {queue : ε → List (FifoEvent α)} {events : List ε}
    (h : Runs Step q (events.flatMap queue) q') (hqueue : ∀ e, .reset ∉ queue e) :
    (events.flatMap fun e => takes (queue e)) ++ q' =
      q ++ events.flatMap fun e => puts (queue e) := by
  have hreset : .reset ∉ events.flatMap queue := by
    intro hmem
    obtain ⟨e, -, he⟩ := List.mem_flatMap.mp hmem
    exact hqueue e he
  have htaken := takes_append h hreset
  unfold takes puts at htaken
  rwa [List.flatMap_assoc, List.flatMap_assoc] at htaken

theorem flatMap_filterMap {f : ε → Option δ} {g : δ → List α} {g' : ε → List α}
    (h : ∀ e, (f e).elim [] g = g' e) (log : List ε) :
    (log.filterMap f).flatMap g = log.flatMap g' := by
  induction log with
  | nil => rfl
  | cons e log ih =>
    rw [List.filterMap_cons, List.flatMap_cons, ← h e, ← ih]
    cases f e <;> rfl

end Fifo

end PokeStroller
