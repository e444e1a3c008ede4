import PokeStroller.Lib.Outcome

/-!
# Loops with idle steps

A loop `while (busy) step` whose steps count something down, except for idle
ones. If no two idle steps follow each other, there are at most as many of them
as of the others.
-/

namespace PokeStroller

/-- The outcome of the loop if it ends within this many steps. A step that does
not complete ends it. -/
def Outcome.loop (busy : σ → Bool) (step : σ → Outcome φ σ) : Nat → σ → Option (Outcome φ σ)
  | 0, s => if busy s then none else some (.ok s)
  | n + 1, s =>
    if busy s then
      match step s with
      | .ok t => loop busy step n t
      | stopped => some stopped
    else some (.ok s)

/-- What a step has to do for the loop to end: keep an invariant, count down a
measure of the work left, and let no idle step follow another. -/
structure Countdown (busy : σ → Bool) (step : σ → Outcome φ σ) (I : σ → Prop) (idle : σ → Prop)
    (left : σ → Nat) : Prop where
  keeps {s t : σ} : I s → busy s = true → step s = .ok t → I t
  remains {s : σ} : I s → busy s = true → 0 < left s
  works {s t : σ} : I s → busy s = true → step s = .ok t → ¬ idle s → left t < left s
  idles {s t : σ} : I s → busy s = true → step s = .ok t → idle s → left t = left s ∧ ¬ idle t

namespace Countdown

variable {busy : σ → Bool} {step : σ → Outcome φ σ} {I : σ → Prop} {idle : σ → Prop}
  {left : σ → Nat}

/-- Two steps for each unit of work, and one fewer where the first works. -/
theorem ends_from (h : Countdown busy step I idle left) (hs : I s)
    (hn : 2 * left s ≤ n ∨ (¬ idle s ∧ 2 * left s ≤ n + 1)) :
    (Outcome.loop busy step n s).isSome := by
  induction n generalizing s with
  | zero =>
    cases hbusy : busy s with
    | false => simp [Outcome.loop, hbusy]
    | true =>
      have hleft := h.remains hs hbusy
      omega
  | succ n ih =>
    cases hbusy : busy s with
    | false => simp [Outcome.loop, hbusy]
    | true =>
      cases hstep : step s with
      | error => simp [Outcome.loop, hbusy, hstep]
      | fault => simp [Outcome.loop, hbusy, hstep]
      | ok t =>
        have ht := h.keeps hs hbusy hstep
        simp only [Outcome.loop, hbusy, hstep, ↓reduceIte]
        by_cases hidle : idle s
        · obtain ⟨hleft, hwake⟩ := h.idles hs hbusy hstep hidle
          refine ih ht (.inr ⟨hwake, ?_⟩)
          have hn := hn.resolve_right fun hn => hn.1 hidle
          omega
        · have hleft := h.works hs hbusy hstep hidle
          exact ih ht (.inl (by omega))

theorem ends (h : Countdown busy step I idle left) (hs : I s) (hn : 2 * left s ≤ n) :
    (Outcome.loop busy step n s).isSome :=
  h.ends_from hs (.inl hn)

end Countdown

end PokeStroller
