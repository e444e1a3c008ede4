import Mathlib.Data.Nat.Digits.Lemmas

/-!
# Digit-wise subtraction

Subtraction of two numbers digit by digit in a base, the lowest digits first,
with a borrow from each column to the next.
-/

namespace PokeStroller

/-- A digit of the minuend and the digit under it. -/
structure Column where
  x : Nat
  y : Nat
  deriving DecidableEq, Repr

namespace Column

def Below (b : Nat) (p : Column) : Prop := p.x < b ∧ p.y < b

/-- The borrow out of a column, from the borrow into it. -/
def borrow (p : Column) (c : Bool) : Bool := decide (p.x < p.y + c.toNat)

def digit (b : Nat) (p : Column) (c : Bool) : Nat := (p.x + b - (p.y + c.toNat)) % b

theorem digit_add (hp : Below b p) (c : Bool) :
    p.digit b c + p.y + c.toNat = p.x + b * (p.borrow c).toNat := by
  obtain ⟨hx, hy⟩ := hp
  have hc := Bool.toNat_le c
  unfold digit borrow
  by_cases h : p.x < p.y + c.toNat
  · rw [Nat.mod_eq_of_lt (by omega), decide_eq_true h]
    simp only [Bool.toNat_true]
    omega
  · have hsub : p.x + b - (p.y + c.toNat) = p.x - (p.y + c.toNat) + b := by omega
    rw [hsub, Nat.add_mod_right, Nat.mod_eq_of_lt (by omega), decide_eq_false h]
    simp only [Bool.toNat_false]
    omega

theorem digit_lt (hp : Below b p) (c : Bool) : p.digit b c < b :=
  Nat.mod_lt _ (Nat.zero_lt_of_lt hp.1)

theorem digit_inj (hb : 1 < b) (hp : Below b p) : p.digit b c = p.digit b c' ↔ c = c' := by
  refine ⟨fun h => ?_, fun h => by rw [h]⟩
  have hsum := digit_add hp c
  have hsum' := digit_add hp c'
  rw [h] at hsum
  have hc := Bool.toNat_le c
  have hc' := Bool.toNat_le c'
  have hnat : c.toNat = c'.toNat := by
    generalize p.borrow c = out at hsum
    generalize p.borrow c' = out' at hsum'
    cases out <;> cases out' <;>
      simp only [Bool.toNat_false, Bool.toNat_true] at hsum hsum' <;> omega
  cases c <;> cases c' <;> first | rfl | cases hnat

/-- A borrow into a column that comes out of it again. -/
theorem borrow_eq_iff (p : Column) (c : Bool) :
    p.borrow c = c ↔ if c then p.x ≤ p.y else p.y ≤ p.x := by
  cases c <;> simp [borrow]

end Column

namespace Limbs

def borrowOut : List Column → Bool → Bool
  | [], c => c
  | p :: ps, c => borrowOut ps (p.borrow c)

/-- The digits of the difference. -/
def difference (b : Nat) : List Column → Bool → List Nat
  | [], _ => []
  | p :: ps, c => p.digit b c :: difference b ps (p.borrow c)

def minuend (b : Nat) (ps : List Column) : Nat := Nat.ofDigits b (ps.map Column.x)

def subtrahend (b : Nat) (ps : List Column) : Nat := Nat.ofDigits b (ps.map Column.y)

@[simp] theorem length_difference (b : Nat) (ps : List Column) (c : Bool) :
    (difference b ps c).length = ps.length := by
  induction ps generalizing c with
  | nil => rfl
  | cons p ps ih => simp [difference, ih]

theorem difference_lt (hps : ∀ p ∈ ps, Column.Below b p) (c : Bool) :
    ∀ d ∈ difference b ps c, d < b := by
  induction ps generalizing c with
  | nil => simp [difference]
  | cons p ps ih =>
    intro d hd
    rcases List.mem_cons.mp hd with rfl | hd
    · exact Column.digit_lt (hps p (by simp)) c
    · exact ih (fun q hq => hps q (by simp [hq])) _ d hd

theorem difference_add (hps : ∀ p ∈ ps, Column.Below b p) (c : Bool) :
    Nat.ofDigits b (difference b ps c) + subtrahend b ps + c.toNat =
      minuend b ps + b ^ ps.length * (borrowOut ps c).toNat := by
  induction ps generalizing c with
  | nil => simp [difference, subtrahend, minuend, borrowOut]
  | cons p ps ih =>
    have hdigit := Column.digit_add (hps p (by simp)) c
    have hrest := congrArg (b * ·) (ih (fun q hq => hps q (by simp [hq])) (p.borrow c))
    simp only [subtrahend, minuend, difference, borrowOut, List.map_cons, Nat.ofDigits_cons,
      List.length_cons, Nat.pow_succ', Nat.mul_assoc, Nat.mul_add] at hrest ⊢
    omega

theorem difference_lt_pow (hb : 1 < b) (hps : ∀ p ∈ ps, Column.Below b p) (c : Bool) :
    Nat.ofDigits b (difference b ps c) < b ^ ps.length := by
  have hlt := Nat.ofDigits_lt_base_pow_length hb (difference_lt hps c)
  rwa [length_difference] at hlt

theorem borrowOut_eq (hb : 1 < b) (hps : ∀ p ∈ ps, Column.Below b p) (c : Bool) :
    borrowOut ps c = decide (minuend b ps < subtrahend b ps + c.toNat) := by
  have hsum := difference_add hps c
  have hlt := difference_lt_pow hb hps c
  cases hout : borrowOut ps c with
  | false =>
    rw [hout, Bool.toNat_false, Nat.mul_zero] at hsum
    exact (decide_eq_false (by omega)).symm
  | true =>
    rw [hout, Bool.toNat_true, Nat.mul_one] at hsum
    exact (decide_eq_true (by omega)).symm

theorem ofDigits_eq_iff (hb : 1 < b) (hps : ∀ p ∈ ps, Column.Below b p) (c : Bool)
    (hlength : ds.length = ps.length) (hds : ∀ d ∈ ds, d < b) :
    ((Nat.ofDigits b ds : Nat) : Int) =
        (minuend b ps - subtrahend b ps - c.toNat) % (b ^ ps.length : Nat) ↔
      ds = difference b ps c := by
  have hsum := difference_add hps c
  have hlt := difference_lt_pow hb hps c
  have hvalue : (minuend b ps - subtrahend b ps - c.toNat : Int) % (b ^ ps.length : Nat) =
      (Nat.ofDigits b (difference b ps c) : Nat) := by
    rw [← Int.add_mul_emod_self_left _ _ ((borrowOut ps c).toNat : Int), ← Int.natCast_mul]
    have heq : (minuend b ps - subtrahend b ps - c.toNat +
        (b ^ ps.length * (borrowOut ps c).toNat : Nat) : Int) =
          (Nat.ofDigits b (difference b ps c) : Nat) := by omega
    rw [heq]
    exact Int.emod_eq_of_lt (Int.natCast_nonneg _) (Int.ofNat_lt.mpr hlt)
  rw [hvalue, Nat.cast_inj]
  constructor
  · intro h
    exact Nat.ofDigits_inj_of_len_eq hb (by rw [hlength, length_difference]) hds
      (difference_lt hps c) h
  · rintro rfl
    rfl

end Limbs

end PokeStroller
