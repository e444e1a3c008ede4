/-!
# Single bits

A bit vector with one bit replaced.
-/

namespace PokeStroller

variable {w : Nat}

def withBit (v : BitVec w) (i : Nat) (b : Bool) : BitVec w :=
  if b then v ||| BitVec.twoPow w i else v &&& ~~~BitVec.twoPow w i

theorem getLsbD_withBit (v : BitVec w) (hi : i < w) (b : Bool) (j : Nat) :
    (withBit v i b).getLsbD j = if j = i then b else v.getLsbD j := by
  by_cases hj : j < w
  · by_cases h : j = i
    · subst h
      cases b <;> simp [withBit, hj]
    · cases b <;> simp [withBit, hj, h]
  · rw [BitVec.getLsbD_of_ge _ _ (Nat.le_of_not_lt hj),
      BitVec.getLsbD_of_ge _ _ (Nat.le_of_not_lt hj), if_neg (by omega)]

@[simp] theorem getLsbD_withBit_self (v : BitVec w) (hi : i < w) (b : Bool) :
    (withBit v i b).getLsbD i = b := by
  rw [getLsbD_withBit v hi, if_pos rfl]

theorem withBit_eq_self_iff {v : BitVec w} (hi : i < w) :
    withBit v i b = v ↔ v.getLsbD i = b := by
  constructor
  · intro h
    rw [← h, getLsbD_withBit_self v hi]
  · rintro rfl
    apply BitVec.eq_of_getLsbD_eq
    intro j _
    rw [getLsbD_withBit v hi]
    split
    · subst j
      rfl
    · rfl

theorem withBit_inj {v : BitVec w} (hi : i < w) : withBit v i b = withBit v i c ↔ b = c := by
  constructor
  · intro h
    rw [← getLsbD_withBit_self v hi b, h, getLsbD_withBit_self v hi]
  · rintro rfl
    rfl

theorem withBit_withBit (v : BitVec w) (hi : i < w) (b c : Bool) :
    withBit (withBit v i b) i c = withBit v i c := by
  apply BitVec.eq_of_getLsbD_eq
  intro j _
  rw [getLsbD_withBit _ hi, getLsbD_withBit _ hi, getLsbD_withBit _ hi]
  split <;> rfl

theorem withBit_of_le (v : BitVec w) (hi : w ≤ i) (b : Bool) : withBit v i b = v := by
  have hzero : BitVec.twoPow w i = 0#w := by
    apply BitVec.eq_of_getLsbD_eq
    intro j hj
    rw [BitVec.getLsbD_twoPow, BitVec.getLsbD_zero]
    simp [show i ≠ j by omega]
  cases b <;> simp [withBit, hzero]

theorem getLsbD_withBit_ne (v : BitVec w) (b : Bool) (h : j ≠ i) :
    (withBit v i b).getLsbD j = v.getLsbD j := by
  by_cases hi : i < w
  · rw [getLsbD_withBit v hi, if_neg h]
  · rw [withBit_of_le v (Nat.le_of_not_lt hi)]

theorem getLsbD_withBit_true (v : BitVec w) (i : Nat) (h : v.getLsbD j = true) :
    (withBit v i true).getLsbD j = true := by
  by_cases hj : j = i
  · subst hj
    exact getLsbD_withBit_self v (BitVec.lt_of_getLsbD h) true
  · rwa [getLsbD_withBit_ne v true hj]

end PokeStroller
