/-!
# Two generations

A value kept in two places, the current one and the one before it, of which
either may be missing. An update copies the current one to the backup before
it replaces it, and may stop at any point.
-/

namespace PokeStroller

structure Generations (α : Type) where
  current : Option α
  backup : Option α

namespace Generations

def recovered (g : Generations α) : Option α :=
  match g.current with
  | some x => some x
  | none => g.backup

/-- Where an update to `x` may stop. -/
inductive Update (x : α) (g : Generations α) : Generations α → Prop
  | started : Update x g g
  | copied (h : g.current ≠ none) : Update x g { g with backup := g.current }
  | replaced : Update x g { current := some x, backup := g.recovered }

theorem recovered_of_current {g : Generations α} (h : g.current ≠ none) :
    g.recovered = g.current := by
  unfold recovered
  cases hcurrent : g.current with
  | none => exact absurd hcurrent h
  | some => rfl

/-- A reader finds the new value, or exactly what was there before. -/
theorem Update.recovered_eq {g g' : Generations α} (h : Update x g g') :
    g'.recovered = some x ∨ g'.recovered = g.recovered := by
  cases h with
  | started => exact .inr rfl
  | copied h => exact .inr (by rw [recovered_of_current h]; exact recovered_of_current h)
  | replaced => exact .inl rfl

/-- An update that stops does not lose the only value. -/
theorem Update.recovered_ne_none {g g' : Generations α} (h : Update x g g')
    (hg : g.recovered ≠ none) : g'.recovered ≠ none := by
  rcases h.recovered_eq with heq | heq
  · rw [heq]
    exact nofun
  · rw [heq]
    exact hg

end Generations

end PokeStroller
