/-!
# Outcomes of status-returning steps

A step of an imperative program on a state `σ` either completes, stops early
with the state it had reached, or runs into an operation whose language gives
no next state. `Holds` is the partial-correctness reading of an outcome: a
property of every state the step can leave behind.
-/

namespace PokeStroller

inductive Outcome (φ σ : Type) where
  /-- The step completed. -/
  | ok (s : σ)
  /-- The step returned early and left this state. -/
  | error (s : σ)
  /-- The program has no defined next state. -/
  | fault (f : φ)
  deriving Repr, DecidableEq

namespace Outcome

def andThen : Outcome φ σ → (σ → Outcome φ σ) → Outcome φ σ
  | .ok s, f => f s
  | .error s, _ => .error s
  | .fault e, _ => .fault e

def map (g : σ → τ) : Outcome φ σ → Outcome φ τ
  | .ok s => .ok (g s)
  | .error s => .error (g s)
  | .fault e => .fault e

/-- A checked access: the value continues, a failed check is the fault. -/
def ofOption (f : φ) : Option σ → Outcome φ σ
  | some s => .ok s
  | none => .fault f

def toOption : Outcome φ σ → Option σ
  | .ok s => some s
  | .error _ => none
  | .fault _ => none

/-- `P` holds in every state the outcome leaves. -/
def Holds (P : σ → Prop) : Outcome φ σ → Prop
  | .ok s => P s
  | .error s => P s
  | .fault _ => True

@[simp] theorem andThen_ok (s : σ) (f : σ → Outcome φ σ) : (ok s).andThen f = f s := rfl
@[simp] theorem andThen_error (s : σ) (f : σ → Outcome φ σ) :
    (error s).andThen f = .error s := rfl
@[simp] theorem andThen_fault (e : φ) (f : σ → Outcome φ σ) :
    (fault e).andThen f = .fault e := rfl

@[simp] theorem map_ok (g : σ → τ) (s : σ) : (ok s : Outcome φ σ).map g = .ok (g s) := rfl
@[simp] theorem map_error (g : σ → τ) (s : σ) :
    (error s : Outcome φ σ).map g = .error (g s) := rfl
@[simp] theorem map_fault (g : σ → τ) (e : φ) : (fault e : Outcome φ σ).map g = .fault e := rfl

@[simp] theorem ofOption_some (f : φ) (s : σ) : ofOption f (some s) = .ok s := rfl
@[simp] theorem ofOption_none (f : φ) : ofOption f (none : Option σ) = .fault f := rfl

theorem ofOption_eq_ok {f : φ} {x : Option σ} : ofOption f x = .ok s ↔ x = some s := by
  cases x <;> simp

theorem not_fault_eq_ok (e : φ) : ¬ ∃ s, (fault e : Outcome φ σ) = .ok s := by
  rintro ⟨s, h⟩
  cases h

theorem toOption_eq_some {x : Outcome φ σ} : x.toOption = some s ↔ x = .ok s := by
  cases x <;> simp [toOption]

theorem toOption_map (x : Outcome φ σ) (g : σ → τ) : (x.map g).toOption = x.toOption.map g := by
  cases x <;> rfl

@[simp] theorem holds_ok (P : σ → Prop) (s : σ) : (ok s : Outcome φ σ).Holds P ↔ P s := .rfl
@[simp] theorem holds_error (P : σ → Prop) (s : σ) :
    (error s : Outcome φ σ).Holds P ↔ P s := .rfl
@[simp] theorem holds_fault (P : σ → Prop) (e : φ) : (fault e).Holds P ↔ True := .rfl

theorem andThen_eq_ok {x : Outcome φ σ} {f : σ → Outcome φ σ} :
    x.andThen f = .ok t ↔ ∃ s, x = .ok s ∧ f s = .ok t := by
  cases x <;> simp

theorem map_eq_ok {x : Outcome φ σ} {g : σ → τ} :
    x.map g = .ok t ↔ ∃ s, x = .ok s ∧ g s = t := by
  cases x <;> simp

theorem map_eq_fault {x : Outcome φ σ} {g : σ → τ} : x.map g = .fault e ↔ x = .fault e := by
  cases x <;> simp

@[simp] theorem map_map (x : Outcome φ σ) (g : σ → τ) (h : τ → υ) :
    (x.map g).map h = x.map fun s => h (g s) := by
  cases x <;> rfl

theorem map_same {x : Outcome φ σ} {g : σ → σ} (h : ∀ s, g s = s) : x.map g = x := by
  cases x <;> simp [h]

theorem map_andThen {x : Outcome φ σ} {f : σ → Outcome φ σ} {g : σ → τ} {k : τ → Outcome φ τ}
    (h : ∀ t, x = .ok t → (f t).map g = k (g t)) : (x.andThen f).map g = (x.map g).andThen k := by
  cases x with
  | ok t => exact h t rfl
  | error => rfl
  | fault => rfl

theorem map_andThen_ok {x : Outcome φ σ} {f : σ → Outcome φ σ} {g : σ → τ}
    (hg : ∀ s, (f s).map g = .ok (g s)) : (x.andThen f).map g = x.map g := by
  cases x <;> simp [hg]

theorem andThen_eq_self {x : Outcome φ σ} {f : σ → Outcome φ σ} (h : ∀ t, x = .ok t → f t = .ok t) :
    x.andThen f = x := by
  cases x with
  | ok t => exact h t rfl
  | error => rfl
  | fault => rfl

theorem andThen_assoc (x : Outcome φ σ) (f g : σ → Outcome φ σ) :
    (x.andThen f).andThen g = x.andThen fun s => (f s).andThen g := by
  cases x <;> rfl

theorem Holds.mono {x : Outcome φ σ} (h : x.Holds P) (hpq : ∀ s, P s → Q s) : x.Holds Q := by
  cases x with
  | ok s => exact hpq s h
  | error s => exact hpq s h
  | fault => trivial

theorem Holds.andThen {x : Outcome φ σ} {f : σ → Outcome φ σ} (h : x.Holds P)
    (hs : ∀ s, P s → Q s) (hf : ∀ s, P s → (f s).Holds Q) : (x.andThen f).Holds Q := by
  cases x with
  | ok s => exact hf s h
  | error s => exact hs s h
  | fault => trivial

theorem holds_map {x : Outcome φ σ} {g : σ → τ} {P : τ → Prop} :
    (x.map g).Holds P ↔ x.Holds fun s => P (g s) := by
  cases x <;> rfl

theorem Holds.ok {x : Outcome φ σ} (h : x.Holds P) (hx : x = .ok s) : P s := by
  subst hx; exact h

def Leaves (t : σ) : Outcome φ σ → Prop
  | .ok s => s = t
  | .error s => s = t
  | .fault _ => False

theorem Holds.leaves {x : Outcome φ σ} (h : x.Holds P) (hx : x.Leaves t) : P t := by
  cases x with
  | ok s => exact hx ▸ h
  | error s => exact hx ▸ h
  | fault => exact hx.elim

theorem leaves_of_ok {x : Outcome φ σ} (h : x = .ok t) : x.Leaves t := by
  subst h; rfl

theorem Leaves.map {x : Outcome φ σ} (h : x.Leaves s) (g : σ → τ) : (x.map g).Leaves (g s) := by
  cases x with
  | ok => exact congrArg g h
  | error => exact congrArg g h
  | fault => exact h

/-- What is known of an outcome that did not complete. -/
def Stops (P : σ → Prop) (F : φ → Prop) : Outcome φ σ → Prop
  | .ok _ => True
  | .error s => P s
  | .fault e => F e

@[simp] theorem stops_ok (P : σ → Prop) (F : φ → Prop) (s : σ) : (ok s).Stops P F := trivial
@[simp] theorem stops_error (P : σ → Prop) (F : φ → Prop) (s : σ) :
    (error s).Stops P F ↔ P s := .rfl
@[simp] theorem stops_fault (P : σ → Prop) (F : φ → Prop) (e : φ) :
    (fault e).Stops P F ↔ F e := .rfl

/-- The outcome is not this fault, and `P` holds in every state it leaves. -/
def Avoids (f : φ) (P : σ → Prop) : Outcome φ σ → Prop
  | .ok s => P s
  | .error s => P s
  | .fault e => e ≠ f

theorem avoids_map {x : Outcome φ σ} {g : σ → τ} {P : τ → Prop} :
    (x.map g).Avoids f P ↔ x.Avoids f fun s => P (g s) := by
  cases x <;> rfl

theorem Holds.avoids {x : Outcome φ σ} (h : x.Holds P) (hx : x.Stops Q F) (hf : ¬ F f) :
    x.Avoids f P := by
  cases x with
  | ok s => exact h
  | error s => exact h
  | fault e =>
    rintro rfl
    exact hf hx

theorem Stops.mono {x : Outcome φ σ} (h : x.Stops P F) (hpq : ∀ s, P s → Q s) :
    x.Stops Q F := by
  cases x with
  | ok s => trivial
  | error s => exact hpq s h
  | fault e => exact h

theorem Stops.map {x : Outcome φ σ} (h : x.Stops (fun s => P (g s)) F) : (x.map g).Stops P F := by
  cases x with
  | ok s => trivial
  | error s => exact h
  | fault e => exact h

theorem Avoids.mono {x : Outcome φ σ} (h : x.Avoids f P) (hpq : ∀ s, P s → Q s) :
    x.Avoids f Q := by
  cases x with
  | ok s => exact hpq s h
  | error s => exact hpq s h
  | fault => exact h

theorem Avoids.andThen {x : Outcome φ σ} {g : σ → Outcome φ σ} (h : x.Avoids f P)
    (hs : ∀ s, P s → Q s) (hg : ∀ s, P s → (g s).Avoids f Q) : (x.andThen g).Avoids f Q := by
  cases x with
  | ok s => exact hg s h
  | error s => exact hs s h
  | fault => exact h

theorem Avoids.leaves {x : Outcome φ σ} (h : x.Avoids f P) (hx : x.Leaves t) : P t := by
  cases x with
  | ok s => exact hx ▸ h
  | error s => exact hx ▸ h
  | fault => exact hx.elim

theorem Avoids.ne_fault {x : Outcome φ σ} (h : x.Avoids f P) : x ≠ .fault f := by
  rintro rfl
  exact h rfl

def okWith (p : σ → Bool) : Outcome φ σ → Bool
  | .ok s => p s
  | _ => false

theorem okWith_iff {x : Outcome φ σ} {p : σ → Bool} :
    x.okWith p = true ↔ ∃ s, x = .ok s ∧ p s = true := by
  cases x <;> simp [okWith]

end Outcome

end PokeStroller
