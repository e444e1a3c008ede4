/-!
# Counters that reload

A counter of `M` values that starts at `v`, counts up by one and goes to `L`
instead of to `M`: its value and its overflows after `c` counts, in closed form
and by one count more. With `L = 0` it counts modulo `M`. The events are spread
over longer runs of a state by `Ticks`.
-/

namespace PokeStroller

namespace Reload

variable {M L v : Nat}

def value (M L v c : Nat) : Nat := if c < M - v then v + c else L + (c - (M - v)) % (M - L)

def overflows (M L v c : Nat) : Nat := if c < M - v then 0 else 1 + (c - (M - v)) / (M - L)

theorem value_zero (hv : v < M) : value M L v 0 = v := by
  unfold value
  rw [if_pos (Nat.sub_pos_of_lt hv), Nat.add_zero]

theorem overflows_zero (hv : v < M) : overflows M L v 0 = 0 := if_pos (Nat.sub_pos_of_lt hv)

theorem value_lt (hL : L < M) (hv : v < M) (c : Nat) : value M L v c < M := by
  unfold value
  split
  · omega
  · have hmod := Nat.mod_lt (c - (M - v)) (Nat.sub_pos_of_lt hL)
    omega

/-- One count more, before or after the last remainder of a period. -/
theorem mod_succ (r : Nat) {p : Nat} (hp : 0 < p) :
    (r + 1) % p = (if r % p + 1 = p then 0 else r % p + 1) ∧
      (r + 1) / p = r / p + if r % p + 1 = p then 1 else 0 := by
  have hlt := Nat.mod_lt r hp
  have hsplit : r + 1 = r % p + 1 + p * (r / p) := by
    have hdiv := Nat.mod_add_div r p
    omega
  split
  · rename_i hlast
    rw [hlast] at hsplit
    rw [hsplit, Nat.add_mul_mod_self_left, Nat.add_mul_div_left _ _ hp, Nat.mod_self,
      Nat.div_self hp]
    exact ⟨rfl, Nat.add_comm _ _⟩
  · rename_i hlast
    have hnext : r % p + 1 < p := by omega
    rw [hsplit, Nat.add_mul_mod_self_left, Nat.add_mul_div_left _ _ hp, Nat.mod_eq_of_lt hnext,
      Nat.div_eq_of_lt hnext]
    exact ⟨rfl, Nat.add_comm _ _⟩

theorem value_succ (hL : L < M) (hv : v < M) (c : Nat) : value M L v (c + 1) =
    if value M L v c + 1 = M then L else value M L v c + 1 := by
  unfold value
  rcases Nat.lt_or_ge c (M - v) with hbefore | hafter
  · rw [if_pos hbefore]
    rcases Nat.lt_or_ge (c + 1) (M - v) with hlt | hge
    · rw [if_pos hlt, if_neg (by omega)]
      rfl
    · rw [if_neg (Nat.not_lt.mpr hge), if_pos (by omega), show c + 1 - (M - v) = 0 by omega,
        Nat.zero_mod]
      rfl
  · rw [if_neg (Nat.not_lt.mpr hafter), if_neg (by omega),
      show c + 1 - (M - v) = c - (M - v) + 1 by omega,
      (mod_succ _ (Nat.sub_pos_of_lt hL)).1]
    split <;> split <;> omega

theorem overflows_succ (hL : L < M) (hv : v < M) (c : Nat) : overflows M L v (c + 1) =
    overflows M L v c + if value M L v c + 1 = M then 1 else 0 := by
  unfold value overflows
  rcases Nat.lt_or_ge c (M - v) with hbefore | hafter
  · rw [if_pos hbefore, if_pos hbefore]
    rcases Nat.lt_or_ge (c + 1) (M - v) with hlt | hge
    · rw [if_pos hlt, if_neg (by omega)]
    · rw [if_neg (Nat.not_lt.mpr hge), if_pos (by omega), show c + 1 - (M - v) = 0 by omega,
        Nat.zero_div]
  · rw [if_neg (Nat.not_lt.mpr hafter), if_neg (Nat.not_lt.mpr hafter), if_neg (by omega),
      show c + 1 - (M - v) = c - (M - v) + 1 by omega,
      (mod_succ _ (Nat.sub_pos_of_lt hL)).2, ← Nat.add_assoc]
    congr 1
    split <;> split <;> omega

/-- Reloading with 0 is counting modulo `g`. -/
theorem value_modulo (hv : v < g) (c : Nat) : value g 0 v c = (v + c) % g := by
  unfold value
  split
  · exact (Nat.mod_eq_of_lt (by omega)).symm
  · rw [Nat.sub_zero, Nat.zero_add, show v + c = c - (g - v) + g by omega, Nat.add_mod_right]

theorem overflows_modulo (hv : v < g) (c : Nat) : overflows g 0 v c = (v + c) / g := by
  unfold overflows
  split
  · exact (Nat.div_eq_of_lt (by omega)).symm
  · rw [Nat.sub_zero, show v + c = c - (g - v) + g by omega,
      Nat.add_div_right _ (Nat.zero_lt_of_lt hv), Nat.add_comm]

end Reload

-- ---------------------------------------------------------------------------
-- Ticks among other steps
-- ---------------------------------------------------------------------------

/-- A step is a tick, labelled with whether its event happened, or any other
step that keeps what the ticks depend on. -/
inductive Ticks (tick : σ → σ) (event : σ → Bool) (Kept : σ → σ → Prop) : σ → Option Bool → σ → Prop
  | tick (s : σ) : Ticks tick event Kept s (some (event s)) (tick s)
  | elsewhere {s t : σ} : Kept s t → Ticks tick event Kept s none t

def tickCount (es : List (Option Bool)) : Nat := es.countP Option.isSome

def eventCount (es : List (Option Bool)) : Nat := es.count (some true)

@[simp] theorem tickCount_elsewhere (es : List (Option Bool)) :
    tickCount (es ++ [none]) = tickCount es := by simp [tickCount]

@[simp] theorem eventCount_elsewhere (es : List (Option Bool)) :
    eventCount (es ++ [none]) = eventCount es := by simp [eventCount]

@[simp] theorem tickCount_tick (es : List (Option Bool)) (b : Bool) :
    tickCount (es ++ [some b]) = tickCount es + 1 := by simp [tickCount]

@[simp] theorem eventCount_tick (es : List (Option Bool)) (b : Bool) :
    eventCount (es ++ [some b]) = eventCount es + b.toNat := by
  cases b <;> simp [eventCount]

end PokeStroller
