/-!
# Clock dividers

A divider adds up the time that passes and gives a tick when the sum reaches its
rate, at most one for each amount. No tick is lost, and none is late if no
amount is above the rate.
-/

namespace PokeStroller

/-- What is left after a time with some ticks. -/
structure Divides (rate left time left' ticks : Nat) : Prop where
  kept : left' + rate * ticks = left + time
  below : left < rate → left' < rate

namespace Divides

variable {rate left left' left'' time time' ticks ticks' : Nat}

theorem refl (rate left : Nat) : Divides rate left 0 left 0 := ⟨by simp, id⟩

theorem trans (h : Divides rate left time left' ticks)
    (h' : Divides rate left' time' left'' ticks') :
    Divides rate left (time + time') left'' (ticks + ticks') := by
  refine ⟨?_, h'.below ∘ h.below⟩
  have hfirst := h.kept
  have hsecond := h'.kept
  rw [Nat.mul_add]
  omega

theorem wait (h : left + time < rate) : Divides rate left time (left + time) 0 :=
  ⟨by simp, fun _ => h⟩

theorem tick (h : rate ≤ left + time) (htime : time ≤ rate) :
    Divides rate left time (left + time - rate) 1 := by
  constructor
  · omega
  · omega

/-- The ticks are a quotient and what is left is its remainder. -/
theorem quotient (h : Divides rate left time left' ticks) (hleft : left < rate) :
    ticks = (left + time) / rate ∧ left' = (left + time) % rate := by
  have hbelow := h.below hleft
  rw [← h.kept, Nat.add_mul_div_left _ _ (Nat.zero_lt_of_lt hleft), Nat.add_mul_mod_self_left,
    Nat.div_eq_of_lt hbelow, Nat.mod_eq_of_lt hbelow, Nat.zero_add]
  exact ⟨rfl, rfl⟩

end Divides

end PokeStroller
