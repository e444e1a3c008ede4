import Mathlib.Order.Defs.Unbundled

/-!
# Programs with state and exceptions

A program of `EStateM` returns or throws, and leaves a state either way. `Along`
relates the state it leaves to the one it starts from, `Returns` and `Throws` speak
of what it returns and what it throws.
-/

namespace PokeStroller

namespace Exec

def left : EStateM.Result ε σ α → σ
  | .ok _ s => s
  | .error _ s => s

@[simp] theorem left_ok (a : α) (s : σ) : left (.ok a s : EStateM.Result ε σ α) = s := rfl
@[simp] theorem left_error (e : ε) (s : σ) : left (.error e s : EStateM.Result ε σ α) = s := rfl

theorem bind_ok {x : EStateM ε σ α} {f : α → EStateM ε σ β} (h : x s = .ok a t) :
    (x >>= f) s = f a t := by
  simp only [bind, EStateM.bind, h]

theorem bind_error {x : EStateM ε σ α} {f : α → EStateM ε σ β} (h : x s = .error e t) :
    (x >>= f) s = .error e t := by
  simp only [bind, EStateM.bind, h]

theorem bind_eq_ok {x : EStateM ε σ α} {f : α → EStateM ε σ β} :
    (x >>= f) s = .ok b u ↔ ∃ a t, x s = .ok a t ∧ f a t = .ok b u := by
  cases h : x s with
  | ok a t =>
    rw [bind_ok h]
    constructor
    · rintro hb
      exact ⟨a, t, rfl, hb⟩
    · rintro ⟨a, t, heq, hb⟩
      cases heq
      exact hb
  | error e t => rw [bind_error h]; simp

theorem bind_eq_error {x : EStateM ε σ α} {f : α → EStateM ε σ β} :
    (x >>= f) s = .error e u ↔ x s = .error e u ∨ ∃ a t, x s = .ok a t ∧ f a t = .error e u := by
  cases h : x s with
  | ok a t =>
    rw [bind_ok h]
    constructor
    · rintro hb
      exact .inr ⟨a, t, rfl, hb⟩
    · rintro (heq | ⟨a, t, heq, hb⟩)
      · cases heq
      · cases heq
        exact hb
  | error e t => rw [bind_error h]; simp

theorem ite_pos {p : Prop} [Decidable p] {x y : EStateM ε σ α} (h : p) (s : σ) :
    (if p then x else y : EStateM ε σ α) s = x s := congrFun (if_pos h) s

theorem ite_neg {p : Prop} [Decidable p] {x y : EStateM ε σ α} (h : ¬p) (s : σ) :
    (if p then x else y : EStateM ε σ α) s = y s := congrFun (if_neg h) s

@[simp] theorem pure_apply (a : α) (s : σ) : (pure a : EStateM ε σ α) s = .ok a s := rfl
@[simp] theorem get_apply (s : σ) : (get : EStateM ε σ σ) s = .ok s s := rfl
@[simp] theorem set_apply (t s : σ) : (set t : EStateM ε σ PUnit) s = .ok ⟨⟩ t := rfl
@[simp] theorem modify_apply (f : σ → σ) (s : σ) :
    (modify f : EStateM ε σ PUnit) s = .ok ⟨⟩ (f s) := rfl
@[simp] theorem throw_apply (e : ε) (s : σ) : (throw e : EStateM ε σ α) s = .error e s := rfl

-- ---------------------------------------------------------------------------
-- Results
-- ---------------------------------------------------------------------------

def Returns (P : α → Prop) (x : EStateM ε σ α) : Prop := ∀ s a t, x s = .ok a t → P a

def Throws (F : ε → Prop) (x : EStateM ε σ α) : Prop := ∀ s e t, x s = .error e t → F e

theorem Returns.pure {P : α → Prop} (h : P a) : Returns P (pure a : EStateM ε σ α) := by
  rintro s b t hb
  cases hb
  exact h

theorem Returns.throw {P : α → Prop} (e : ε) : Returns P (throw e : EStateM ε σ α) := nofun

theorem Returns.trivial (x : EStateM ε σ α) : Returns (fun _ => True) x := fun _ _ _ _ => ⟨⟩

theorem Returns.bind_of {x : EStateM ε σ α} {f : α → EStateM ε σ β} (hx : Returns P x)
    (hf : ∀ a, P a → Returns Q (f a)) : Returns Q (x >>= f) := by
  intro s b u h
  obtain ⟨a, t, ha, hb⟩ := bind_eq_ok.mp h
  exact hf a (hx s a t ha) t b u hb

theorem Returns.bind {x : EStateM ε σ α} {f : α → EStateM ε σ β}
    (hf : ∀ a, Returns Q (f a)) : Returns Q (x >>= f) :=
  (Returns.trivial x).bind_of fun a _ => hf a

section

variable {F : ε → Prop}

theorem Throws.pure (a : α) : Throws F (pure a : EStateM ε σ α) := nofun

theorem Throws.get : Throws F (get : EStateM ε σ σ) := nofun

theorem Throws.modify (f : σ → σ) : Throws F (modify f : EStateM ε σ PUnit) := nofun

theorem Throws.set (t : σ) : Throws F (set t : EStateM ε σ PUnit) := nofun

theorem Throws.ite {p : Prop} [Decidable p] {x y : EStateM ε σ α} (hx : Throws F x)
    (hy : Throws F y) : Throws F (if p then x else y) := by
  split
  · exact hx
  · exact hy

theorem Throws.throw (h : F e) : Throws F (throw e : EStateM ε σ α) := by
  rintro s e' t he
  cases he
  exact h

theorem Throws.bind_of {x : EStateM ε σ α} {f : α → EStateM ε σ β} (hx : Throws F x)
    (hreturns : Returns P x) (hf : ∀ a, P a → Throws F (f a)) : Throws F (x >>= f) := by
  intro s e u h
  rcases bind_eq_error.mp h with h | ⟨a, t, ha, h⟩
  · exact hx s e u h
  · exact hf a (hreturns s a t ha) t e u h

theorem Throws.bind {x : EStateM ε σ α} {f : α → EStateM ε σ β} (hx : Throws F x)
    (hf : ∀ a, Throws F (f a)) : Throws F (x >>= f) :=
  hx.bind_of (.trivial x) fun a _ => hf a

end

-- ---------------------------------------------------------------------------
-- States along a program
-- ---------------------------------------------------------------------------

/-- However the program ends, the state it leaves is related to its start. -/
def Along (R : σ → σ → Prop) (x : EStateM ε σ α) : Prop := ∀ s, R s (left (x s))

section

variable {R : σ → σ → Prop}

theorem Along.of_ok {x : EStateM ε σ α} (hx : Along R x) (h : x s = .ok a t) : R s t := by
  have hs := hx s
  rwa [h] at hs

theorem Along.of_error {x : EStateM ε σ α} (hx : Along R x) (h : x s = .error e t) : R s t := by
  have hs := hx s
  rwa [h] at hs

theorem Along.modify {f : σ → σ} (h : ∀ s, R s (f s)) : Along R (modify f : EStateM ε σ PUnit) := h

theorem Along.mono {R' : σ → σ → Prop} {x : EStateM ε σ α} (hx : Along R x)
    (h : ∀ s t, R s t → R' s t) : Along R' x := fun s => h _ _ (hx s)

theorem Along.ite {p : Prop} [Decidable p] {x y : EStateM ε σ α} (hx : Along R x)
    (hy : Along R y) : Along R (if p then x else y) := by
  split
  · exact hx
  · exact hy

variable [IsPreorder σ R]

theorem Along.pure (a : α) : Along R (pure a : EStateM ε σ α) := refl_of R

theorem Along.get : Along R (get : EStateM ε σ σ) := refl_of R

theorem Along.throw (e : ε) : Along R (throw e : EStateM ε σ α) := refl_of R

/-- What follows may rely on what the first program returns. -/
theorem Along.bind_of {x : EStateM ε σ α} {f : α → EStateM ε σ β} (hx : Along R x)
    (hreturns : Returns P x) (hf : ∀ a, P a → Along R (f a)) : Along R (x >>= f) := by
  intro s
  cases h : x s with
  | ok a t =>
    rw [bind_ok h]
    exact trans_of R (hx.of_ok h) (hf a (hreturns s a t h) t)
  | error e t =>
    rw [bind_error h]
    exact hx.of_error h

theorem Along.bind {x : EStateM ε σ α} {f : α → EStateM ε σ β} (hx : Along R x)
    (hf : ∀ a, Along R (f a)) : Along R (x >>= f) :=
  hx.bind_of (.trivial x) fun a _ => hf a

end

end Exec

end PokeStroller
