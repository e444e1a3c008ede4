/-!
# Steps up to a limit

A step with an exception, repeated while a clock is below a limit. A run to one
limit that is carried on to a later one is a run to the later one.
-/

namespace PokeStroller

/-- The loop `while (clock < limit) step`, with the exception that ended it. -/
inductive Until (step : σ → σ × Option ε) (clock : σ → Nat) (limit : Nat) :
    σ → σ × Option ε → Prop
  | done {s : σ} : limit ≤ clock s → Until step clock limit s (s, none)
  | stop {s t : σ} {e : ε} : clock s < limit → step s = (t, some e) →
      Until step clock limit s (t, some e)
  | next {s t : σ} {r : σ × Option ε} : clock s < limit → step s = (t, none) →
      Until step clock limit t r → Until step clock limit s r

namespace Until

variable {step : σ → σ × Option ε} {clock : σ → Nat} {limit later bound : Nat} {s t : σ}
  {r : σ × Option ε} {e : ε}

theorem append (h₁ : Until step clock limit s (t, none)) (hlater : limit ≤ later)
    (h₂ : Until step clock later t r) : Until step clock later s r := by
  generalize hr : (t, none) = first at h₁
  induction h₁ with
  | done =>
    cases hr
    exact h₂
  | stop => cases hr
  | next hclock hstep _ ih => exact .next (Nat.lt_of_lt_of_le hclock hlater) hstep (ih hr)

theorem stopped (h : Until step clock limit s (t, some e)) (hlater : limit ≤ later) :
    Until step clock later s (t, some e) := by
  generalize hr : (t, some e) = first at h
  induction h with
  | done => cases hr
  | stop hclock hstep =>
    cases hr
    exact .stop (Nat.lt_of_lt_of_le hclock hlater) hstep
  | next hclock hstep _ ih => exact .next (Nat.lt_of_lt_of_le hclock hlater) hstep (ih hr)

theorem reached (h : Until step clock limit s (t, none)) : limit ≤ clock t := by
  generalize hr : (t, none) = first at h
  induction h with
  | done hclock =>
    cases hr
    exact hclock
  | stop => cases hr
  | next _ _ _ ih => exact ih hr

/-- A loop that is entered overshoots by less than one step. -/
theorem overshoot (h : Until step clock limit s (t, none)) (hs : clock s < limit)
    (hstep : ∀ s t, clock s < limit → step s = (t, none) → clock t ≤ clock s + bound) :
    clock t < limit + bound := by
  generalize hr : (t, none) = first at h
  induction h with
  | done hclock => omega
  | stop => cases hr
  | next hclock hnext hrest ih =>
    rename_i s u r
    by_cases hu : clock u < limit
    · exact ih hu hr
    · have hu' := hstep _ _ hclock hnext
      cases hrest with
      | done =>
        cases hr
        omega
      | stop h => exact absurd h hu
      | next h => exact absurd h hu

/-- The loop ends if every step takes time. -/
theorem exists_of_lt (hstep : ∀ s t, clock s < limit → step s = (t, none) → clock s < clock t)
    (s : σ) : ∃ r, Until step clock limit s r := by
  by_cases hs : clock s < limit
  case neg => exact ⟨_, .done (Nat.le_of_not_lt hs)⟩
  rcases hnext : step s with ⟨t, _ | e⟩
  · have ht := hstep s t hs hnext
    obtain ⟨r, hr⟩ := exists_of_lt hstep t
    exact ⟨r, .next hs hnext hr⟩
  · exact ⟨_, .stop hs hnext⟩
termination_by limit - clock s

theorem raised (h : Until step clock limit s (t, some e)) : ∃ u, step u = (t, some e) := by
  generalize hr : (t, some e) = first at h
  induction h with
  | done => cases hr
  | stop _ hstep =>
    cases hr
    exact ⟨_, hstep⟩
  | next _ _ _ ih => exact ih hr

/-- What every step keeps holds in the end. -/
theorem invariant {I : σ → Prop} (hstep : ∀ s, I s → I (step s).1)
    (h : Until step clock limit s r) (hs : I s) : I r.1 := by
  induction h with
  | done => exact hs
  | stop _ hnext =>
    have ht := hstep _ hs
    rwa [hnext] at ht
  | next _ hnext _ ih =>
    have ht := hstep _ hs
    rw [hnext] at ht
    exact ih ht

/-- The same loop on the images of the states. -/
theorem map {f : σ → σ} (hstep : ∀ s, step (f s) = (f (step s).1, (step s).2))
    (hclock : ∀ s, clock (f s) = clock s) (h : Until step clock limit s r) :
    Until step clock limit (f s) (f r.1, r.2) := by
  induction h with
  | done hs => exact .done (by rwa [hclock])
  | stop hs hnext => exact .stop (by rwa [hclock]) (by rw [hstep, hnext])
  | next hs hnext _ ih => exact .next (by rwa [hclock]) (by rw [hstep, hnext]) ih

end Until

end PokeStroller
