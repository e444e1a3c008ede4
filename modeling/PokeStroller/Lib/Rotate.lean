import Mathlib.Logic.Function.Basic

/-!
# Rotations

Rotations of a bit vector as a permutation of its positions, and how they
compose.
-/

namespace PokeStroller

variable {w : Nat}

theorem add_sub_mod (hi : i < w) (hb : b < w) :
    (i + (w - b)) % w = if i < b then i + w - b else i - b := by
  split
  · rw [Nat.mod_eq_of_lt (by omega)]
    omega
  · rw [Nat.mod_eq_sub_mod (by omega), Nat.mod_eq_of_lt (by omega)]
    omega

/-- The position a bit of a rotated vector comes from. -/
theorem getLsbD_rotateLeft_mod (x : BitVec w) (k : Nat) (hi : i < w) :
    (x.rotateLeft k).getLsbD i = x.getLsbD ((i + (w - k % w)) % w) := by
  have hk := Nat.mod_lt k (Nat.zero_lt_of_lt hi)
  rw [BitVec.getLsbD_rotateLeft, add_sub_mod hi hk]
  by_cases h : i < k % w
  · simp only [h, decide_true, cond_true, if_true]
    congr 1
    omega
  · simp [h, hi]

theorem rotateLeft_rotateLeft (x : BitVec w) (j k : Nat) :
    (x.rotateLeft j).rotateLeft k = x.rotateLeft (j + k) := by
  apply BitVec.eq_of_getLsbD_eq
  intro i hi
  have hpos := Nat.zero_lt_of_lt hi
  have hj := Nat.mod_lt j hpos
  have hk := Nat.mod_lt k hpos
  rw [getLsbD_rotateLeft_mod _ _ hi, getLsbD_rotateLeft_mod _ _ (Nat.mod_lt _ hpos),
    getLsbD_rotateLeft_mod _ _ hi, Nat.add_mod j k]
  congr 1
  generalize j % w = a at hj
  generalize k % w = b at hk
  rw [add_sub_mod (Nat.mod_lt _ hpos) hj, add_sub_mod hi hk, add_sub_mod hi (Nat.mod_lt _ hpos)]
  by_cases hwrap : a + b < w
  · rw [Nat.mod_eq_of_lt hwrap]
    repeat' split
    all_goals omega
  · rw [Nat.mod_eq_sub_mod (by omega), Nat.mod_eq_of_lt (by omega)]
    repeat' split
    all_goals omega

theorem rotateLeft_zero (x : BitVec w) : x.rotateLeft 0 = x := by
  apply BitVec.eq_of_getLsbD_eq
  intro i hi
  rw [getLsbD_rotateLeft_mod _ _ hi, Nat.zero_mod, Nat.sub_zero, Nat.add_mod_right,
    Nat.mod_eq_of_lt hi]

theorem rotateLeft_self (x : BitVec w) : x.rotateLeft w = x := by
  rw [← BitVec.rotateLeft_mod_eq_rotateLeft, Nat.mod_self, rotateLeft_zero]

theorem rotateLeft_injective (k : Nat) :
    Function.Injective fun x : BitVec w => x.rotateLeft k := by
  intro x y h
  have hround (z : BitVec w) : (z.rotateLeft k).rotateLeft (k * (w - 1)) = z := by
    cases w with
    | zero => exact BitVec.eq_of_getLsbD_eq nofun
    | succ n =>
      have hmul : k + k * (n + 1 - 1) = (n + 1) * k := by
        rw [Nat.add_sub_cancel, Nat.mul_comm k n, Nat.succ_mul, Nat.add_comm]
      rw [rotateLeft_rotateLeft, hmul, ← BitVec.rotateLeft_mod_eq_rotateLeft, Nat.mul_mod_right,
        rotateLeft_zero]
  rw [← hround x, ← hround y]
  exact congrArg (fun z : BitVec w => z.rotateLeft (k * (w - 1))) h

end PokeStroller
