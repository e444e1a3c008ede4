/-!
# Runs of a labelled step relation

Finite runs with the labels of their steps in order, and the rule that carries
an invariant along a run.
-/

namespace PokeStroller

inductive Runs (step : σ → ε → σ → Prop) : σ → List ε → σ → Prop
  | nil (s : σ) : Runs step s [] s
  | cons {s t u : σ} {e : ε} {es : List ε} :
      step s e t → Runs step t es u → Runs step s (e :: es) u

namespace Runs

variable {step : σ → ε → σ → Prop}

theorem single (h : step s e t) : Runs step s [e] t := .cons h (.nil t)

theorem append (h₁ : Runs step s es t) (h₂ : Runs step t fs u) : Runs step s (es ++ fs) u := by
  induction h₁ with
  | nil => exact h₂
  | cons hs _ ih => exact .cons hs (ih h₂)

theorem split (h : Runs step s (es ++ fs) u) :
    ∃ t, Runs step s es t ∧ Runs step t fs u := by
  induction es generalizing s with
  | nil => exact ⟨s, .nil s, h⟩
  | cons e es ih =>
    cases h with
    | cons hs hrest =>
      obtain ⟨t, h₁, h₂⟩ := ih hrest
      exact ⟨t, .cons hs h₁, h₂⟩

/-- A run along what `f` selects of a log, after the log grows. -/
theorem append_filterMap {f : δ → Option ε} {log more : List δ}
    (h₁ : Runs step s (log.filterMap f) t)
    (h₂ : Runs step t (more.filterMap f) u) : Runs step s ((log ++ more).filterMap f) u := by
  rw [List.filterMap_append]
  exact h₁.append h₂

/-- A property that the steps of the run keep holds at the end if it held at the start. -/
theorem invariant_of {I : σ → Prop} (h : Runs step s es t)
    (hstep : ∀ s e t, e ∈ es → step s e t → I s → I t) (hs : I s) : I t := by
  induction h with
  | nil => exact hs
  | cons hst _ ih =>
    refine ih (fun s e t he => hstep s e t (.tail _ he)) ?_
    exact hstep _ _ _ (.head _) hst hs

/-- A property every step keeps holds at the end if it held at the start. -/
theorem invariant {I : σ → Prop} (hstep : ∀ s e t, step s e t → I s → I t)
    (h : Runs step s es t) (hs : I s) : I t := h.invariant_of (fun s e t _ => hstep s e t) hs

/-- The same for a property of the state and of the labels so far. -/
theorem trace_invariant {I : List ε → σ → Prop}
    (hstep : ∀ es s e t, I es s → step s e t → I (es ++ [e]) t)
    (h : Runs step s es t) (hs : I [] s) : I es t := by
  suffices hfrom : ∀ before, I before s → I (before ++ es) t from hfrom [] hs
  clear hs
  induction h with
  | nil =>
    intro before hs
    rwa [List.append_nil]
  | cons hst _ ih =>
    intro before hs
    rw [List.append_cons]
    exact ih _ (hstep _ _ _ _ hs hst)

/-- A run that is longer than a measure which each step makes smaller gets somewhere. -/
theorem reaches {P Q : σ → Prop} {m : σ → Nat} (h : Runs step s es t) (hs : P s)
    (hstep : ∀ s e t, step s e t → P s → Q t ∨ P t ∧ m t < m s) (hlong : m s < es.length) :
    ∃ u fs gs, es = fs ++ gs ∧ Runs step s fs u ∧ Runs step u gs t ∧ Q u := by
  induction h with
  | nil => exact absurd hlong (Nat.not_lt_zero _)
  | cons hst hrest ih =>
    rcases hstep _ _ _ hst hs with hq | ⟨hp, hless⟩
    · exact ⟨_, [_], _, rfl, .single hst, hrest, hq⟩
    · rw [List.length_cons] at hlong
      obtain ⟨u, fs, gs, rfl, hfirst, hsecond, hq⟩ := ih hp (by omega)
      exact ⟨u, _ :: fs, gs, rfl, .cons hst hfirst, hsecond, hq⟩

theorem last (h : Runs step s (es ++ [e]) u) : ∃ t, Runs step s es t ∧ step t e u := by
  obtain ⟨t, h₁, h₂⟩ := h.split
  cases h₂ with
  | cons hs hrest =>
    cases hrest
    exact ⟨t, h₁, hs⟩

/-- Where the labels decide the steps, they decide the run. -/
theorem unique (hdet : ∀ s e t t', step s e t → step s e t' → t = t') (h : Runs step s es t)
    (h' : Runs step s es t') : t = t' := by
  induction h with
  | nil =>
    cases h'
    rfl
  | cons hs _ ih =>
    cases h' with
    | cons hs' hrest =>
      cases hdet _ _ _ _ hs hs'
      exact ih hrest

end Runs

end PokeStroller
