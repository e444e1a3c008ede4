import Mathlib.Algebra.Order.Ring.Int

/-!
# Checked integer arithmetic

Arithmetic of a signed type of `w` bits as C defines it: an operation has its
mathematical value if the type holds it, and no value otherwise. Unsigned
types wrap, so only a division by zero is without a value there.
-/

namespace PokeStroller.HostInt

variable {w : Nat} {x y : BitVec w}

def Fits (w : Nat) (v : Int) : Prop := -(2 ^ w : Nat) ≤ v * 2 ∧ v * 2 < (2 ^ w : Nat)

instance (w : Nat) (v : Int) : Decidable (Fits w v) := inferInstanceAs (Decidable (_ ∧ _))

theorem fits_toInt (x : BitVec w) : Fits w x.toInt := by
  have hlow := BitVec.le_two_mul_toInt (x := x)
  have hhigh := BitVec.two_mul_toInt_lt (x := x)
  exact ⟨by push_cast; omega, by push_cast; omega⟩

theorem Fits.mono (h : Fits v n) (hvw : v ≤ w) : Fits w n := by
  have hpow := Nat.pow_le_pow_right (show 0 < 2 by decide) hvw
  obtain ⟨hlow, hhigh⟩ := h
  exact ⟨by omega, by omega⟩

def value? (w : Nat) (v : Int) : Option (BitVec w) :=
  if Fits w v then some (BitVec.ofInt w v) else none

def mul (x y : BitVec w) : Option (BitVec w) := value? w (x.toInt * y.toInt)

def shl (x : BitVec w) (k : Nat) : Option (BitVec w) := value? w (x.toInt * 2 ^ k)

def div (x y : BitVec w) : Option (BitVec w) :=
  if y = 0 then none else value? w (x.toInt.tdiv y.toInt)

/-- `x % y`, which needs the quotient as well. -/
def rem (x y : BitVec w) : Option (BitVec w) :=
  if y = 0 then none
  else (value? w (x.toInt.tdiv y.toInt)).map fun _ => BitVec.ofInt w (x.toInt.tmod y.toInt)

def udiv (x y : BitVec w) : Option (BitVec w) := if y = 0 then none else some (x / y)

def umod (x y : BitVec w) : Option (BitVec w) := if y = 0 then none else some (x % y)

theorem value?_of_fits (h : Fits w v) : value? w v = some (BitVec.ofInt w v) := if_pos h

theorem value?_of_not_fits (h : ¬ Fits w v) : value? w v = none := if_neg h

theorem mul_of_fits (h : Fits w (x.toInt * y.toInt)) : mul x y = some (x * y) := by
  rw [mul, value?_of_fits h, BitVec.ofInt_mul, BitVec.ofInt_toInt, BitVec.ofInt_toInt]

theorem ofInt_two_pow (w k : Nat) : BitVec.ofInt w (2 ^ k) = BitVec.twoPow w k := by
  have hcast : (2 ^ k : Int) = ((2 ^ k : Nat) : Int) := by push_cast; rfl
  rw [hcast, BitVec.ofInt_natCast]
  exact BitVec.eq_of_toNat_eq ((BitVec.toNat_ofNat _ _).trans (BitVec.toNat_twoPow _ _).symm)

theorem shl_of_fits (h : Fits w (x.toInt * 2 ^ k)) : shl x k = some (x <<< k) := by
  rw [shl, value?_of_fits h, BitVec.ofInt_mul, BitVec.ofInt_toInt, ofInt_two_pow,
    BitVec.shiftLeft_eq_mul_twoPow]

theorem div_of_fits (hy : y ≠ 0) (h : Fits w (x.toInt.tdiv y.toInt)) :
    div x y = some (x.sdiv y) := by
  have hquotient : BitVec.ofInt w (x.toInt.tdiv y.toInt) = x.sdiv y :=
    BitVec.eq_of_toInt_eq ((BitVec.toInt_ofInt _).trans (BitVec.toInt_sdiv x y).symm)
  rw [div, if_neg hy, value?_of_fits h, hquotient]

theorem rem_of_fits (hy : y ≠ 0) (h : Fits w (x.toInt.tdiv y.toInt)) :
    rem x y = some (x.srem y) := by
  rw [rem, if_neg hy, value?_of_fits h, Option.map_some, ← BitVec.toInt_srem, BitVec.ofInt_toInt]

theorem udiv_of_ne (x : BitVec w) (hy : y ≠ 0) : udiv x y = some (x / y) := if_neg hy

theorem umod_of_ne (x : BitVec w) (hy : y ≠ 0) : umod x y = some (x % y) := if_neg hy

end PokeStroller.HostInt
