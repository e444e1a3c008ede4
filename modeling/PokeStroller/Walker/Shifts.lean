import Mathlib.Algebra.Order.Ring.Int
import PokeStroller.Lib.Rotate
import PokeStroller.Walker.Sums

/-!
# Shifts and rotations

What SHLL, SHAL, SHLR and SHAR leave of an operand, and what any number of
ROTL and ROTXL does to the ring of its bits, to which ROTXL adds the carry.
SHAL has an overflow of a negative operand in V and misses that of a positive.
-/

namespace PokeStroller

-- ---------------------------------------------------------------------------
-- Shifts
-- ---------------------------------------------------------------------------

/-- The shifts that bring in no bit from the other end. -/
inductive PlainShift
  | SHLL
  | SHAL
  | SHLR
  | SHAR
  deriving DecidableEq, Repr

namespace PlainShift

def op : PlainShift → Shift
  | SHLL => .shll
  | SHAL => .shal
  | SHLR => .shlr
  | SHAR => .shar

def Value (sz : Size) (v result : BitVec 32) : PlainShift → Prop
  | SHLL | SHAL => result.toNat = 2 * v.toNat % sz.modulus
  | SHLR => result.toNat = v.toNat / 2
  | SHAR => sz.toInt result = sz.toInt v / 2

def carry (sz : Size) (v : BitVec 32) : PlainShift → Bool
  | SHLL | SHAL => decide (sz.modulus ≤ 2 * v.toNat)
  | SHLR | SHAR => decide (v.toNat % 2 = 1)

def overflow (sz : Size) (v : BitVec 32) : PlainShift → Bool
  | SHAL => decide (¬ sz.InRange (2 * sz.toInt v))
  | _ => false

end PlainShift

/-- What a shift is to leave of an operand. -/
structure Shifted (op : PlainShift) (sz : Size) (v result : BitVec 32) (flags : Flags) : Prop where
  value : op.Value sz v result
  C : flags.C = op.carry sz v
  Z : flags.Z = decide (result = 0)
  N : flags.N = decide (sz.toInt result < 0)
  V : flags.V = op.overflow sz v

section
variable {sz : Size} {v result : BitVec 32}

theorem and_negativeFlag_of_lt (hv : v.toNat < sz.modulus) :
    (v &&& sz.negativeFlag != 0) = decide (sz.modulus ≤ 2 * v.toNat) := by
  rw [and_negativeFlag, Bool.eq_iff_iff, decide_eq_true_iff]
  exact sign_iff_of_lt hv

theorem and_one (v : BitVec 32) : (v &&& 1 != 0) = decide (v.toNat % 2 = 1) := by
  have hand : (v &&& 1).toNat = v.toNat % 2 := (BitVec.toNat_and v 1).trans (Nat.and_one_is_mod _)
  rw [Bool.eq_iff_iff, bne_iff_ne, decide_eq_true_iff, Ne, toNat_eq_zero, hand]
  omega

theorem toNat_shar (hv : v.toNat < sz.modulus) :
    2 * ((v >>> 1) ||| (v &&& sz.negativeFlag)).toNat =
      2 * (v.toNat / 2) + if sz.modulus ≤ 2 * v.toNat then sz.modulus else 0 := by
  have hbit : sz.negativeFlag = BitVec.twoPow 32 (sz.numberOfBits - 1) := by cases sz <;> rfl
  have hmodulus : sz.modulus = 2 * 2 ^ (sz.numberOfBits - 1) := by cases sz <;> rfl
  have hword : (2 : Nat) ^ (sz.numberOfBits - 1) < 2 ^ 32 := by cases sz <;> decide
  have hsign := sign_iff_of_lt hv
  have hhalf : v.toNat / 2 < 2 ^ (sz.numberOfBits - 1) := by omega
  rw [hbit, BitVec.and_twoPow, BitVec.toNat_or, BitVec.toNat_ushiftRight, Nat.shiftRight_eq_div_pow, Nat.pow_one]
  split
  · rw [if_pos (hsign.mp ‹_›), BitVec.toNat_twoPow, Nat.mod_eq_of_lt hword, Nat.or_comm]
    have hor := Nat.two_pow_add_eq_or_of_lt hhalf 1
    rw [Nat.mul_one] at hor
    omega
  · rw [if_neg (mt hsign.mpr ‹_›)]
    simp

theorem toNat_shl (v : BitVec 32) (sz : Size) :
    (v <<< 1).toNat % sz.modulus = 2 * v.toNat % sz.modulus := by
  have hdvd : sz.modulus ∣ 2 ^ 32 := by cases sz <;> decide
  rw [BitVec.toNat_shiftLeft, Nat.mod_mod_of_dvd _ hdvd, Nat.shiftLeft_eq, Nat.pow_one,
    Nat.mul_comm]

theorem toNat_shr (v : BitVec 32) : (v >>> 1).toNat = v.toNat / 2 := by
  rw [BitVec.toNat_ushiftRight, Nat.shiftRight_eq_div_pow, Nat.pow_one]

theorem toInt_neg_iff (hv : v.toNat < sz.modulus) :
    sz.toInt v < 0 ↔ sz.modulus ≤ 2 * v.toNat := by
  rw [toInt_cond hv]
  split <;> omega

end

namespace Walker

variable {sz : Size}

theorem opcodeSwitch_shift (s : Walker) (op : Shift) (sz : Size) (rd : BitVec 4) :
    ∃ t, s.opcodeSwitch (.shift op sz rd) = .ok t ∧
      let v := getReg s.registers sz rd
      let result := getReg t.registers sz rd
      result.toNat = (Cpu.shiftValue op sz s.flags v).1.toNat % sz.modulus ∧
      t.flags.C = (Cpu.shiftValue op sz s.flags v).2 ∧
      t.flags.Z = decide (result = 0) ∧
      t.flags.N = decide (sz.modulus ≤ 2 * result.toNat) ∧
      t.flags.V = match op with
        | .shal => (Cpu.shiftValue op sz s.flags v).2 && !(decide (sz.modulus ≤ 2 * result.toNat))
        | _ => false := by
  refine ⟨_, rfl, ?_⟩
  have hlt := getReg_lt (s.toCpu.shift op sz rd).registers sz rd
  have hN := and_negativeFlag_of_lt hlt
  refine ⟨getReg_setReg s.registers sz rd _, ?_, ?_, ?_, ?_⟩
  · cases op <;> rfl
  · cases op <;> exact Bool.beq_eq_decide_eq _ _
  · cases op <;> exact hN
  · cases op with
    | shal => exact congrArg (_ && !·) hN
    | _ => rfl

end Walker

namespace PlainShift

variable {sz : Size} {v result : BitVec 32}

theorem value_of_eq (flags : Flags) (op : PlainShift) (hv : v.toNat < sz.modulus)
    (hlt : result.toNat < sz.modulus)
    (hresult : result.toNat = (Cpu.shiftValue op.op sz flags v).1.toNat % sz.modulus) :
    op.Value sz v result := by
  cases op with
  | SHLL => exact hresult.trans (toNat_shl v sz)
  | SHAL => exact hresult.trans (toNat_shl v sz)
  | SHLR =>
    refine hresult.trans ?_
    change (v >>> 1).toNat % sz.modulus = v.toNat / 2
    rw [toNat_shr]
    exact Nat.mod_eq_of_lt (by omega)
  | SHAR =>
    have hshar := toNat_shar hv
    change result.toNat = ((v >>> 1) ||| (v &&& sz.negativeFlag)).toNat % sz.modulus at hresult
    have heven : sz.modulus % 2 = 0 := by cases sz <;> rfl
    rw [Nat.mod_eq_of_lt (by split at hshar <;> omega)] at hresult
    rw [← hresult] at hshar
    change sz.toInt result = sz.toInt v / 2
    rw [toInt_cond hv, toInt_cond hlt]
    split at hshar
    · rw [if_neg (by omega), if_neg (by omega)]
      omega
    · rw [if_pos (by omega), if_pos (by omega)]
      omega

theorem carry_eq (flags : Flags) (op : PlainShift) (hv : v.toNat < sz.modulus) :
    (Cpu.shiftValue op.op sz flags v).2 = op.carry sz v := by
  cases op with
  | SHLL => exact and_negativeFlag_of_lt hv
  | SHAL => exact and_negativeFlag_of_lt hv
  | SHLR => exact and_one v
  | SHAR => exact and_one v

/-- The V of SHAL is the carry out without a sign bit in the result. -/
theorem shal_overflow_iff (hv : v.toNat < sz.modulus) (hvalue : Value sz v result SHAL) :
    (decide (sz.modulus ≤ 2 * v.toNat) && !decide (sz.modulus ≤ 2 * result.toNat)) =
        decide (¬ sz.InRange (2 * sz.toInt v)) ↔
      ¬ (2 * v.toNat < sz.modulus ∧ sz.modulus ≤ 4 * v.toNat) := by
  change result.toNat = 2 * v.toNat % sz.modulus at hvalue
  rw [toInt_cond hv, Bool.eq_iff_iff, decide_eq_true_iff, Bool.and_eq_true, Bool.not_eq_true',
    decide_eq_true_iff, decide_eq_false_iff_not]
  unfold Size.InRange
  by_cases hneg : sz.modulus ≤ 2 * v.toNat
  · rw [Nat.mod_eq_sub_mod hneg, Nat.mod_eq_of_lt (by omega)] at hvalue
    rw [if_neg (by omega)]
    exact iff_of_true (by omega) (by omega)
  · rw [if_pos (by omega)]
    by_cases hquarter : sz.modulus ≤ 4 * v.toNat
    · exact iff_of_false (fun h => hneg (h.mpr (by omega)).1) (by omega)
    · exact iff_of_true (by omega) (by omega)

end PlainShift

namespace Walker

/-- A shift meets its description, but for a positive operand that SHAL doubles
out of range. Of the twelve shifts SHAR.B is never executed: it is not decoded. -/
theorem shift_iff (s : Walker) (op : PlainShift) (sz : Size) (rd : BitVec 4) :
    ∃ t, s.opcodeSwitch (.shift op.op sz rd) = .ok t ∧
      let v := getReg s.registers sz rd
      (Shifted op sz v (getReg t.registers sz rd) t.flags ↔
        ¬ (op = .SHAL ∧ 2 * v.toNat < sz.modulus ∧ sz.modulus ≤ 4 * v.toNat)) := by
  obtain ⟨t, ht, hresult, hC, hZ, hN, hV⟩ := s.opcodeSwitch_shift op.op sz rd
  refine ⟨t, ht, ?_⟩
  intro v
  have hv := getReg_lt s.registers sz rd
  have hlt := getReg_lt t.registers sz rd
  have hvalue := op.value_of_eq s.flags hv hlt hresult
  have hcarry := op.carry_eq s.flags hv
  rw [← decide_eq_decide.mpr (toInt_neg_iff hlt)] at hN
  have hparts : Shifted op sz v (getReg t.registers sz rd) t.flags ↔
      t.flags.V = op.overflow sz v :=
    ⟨Shifted.V, fun h => ⟨hvalue, hC.trans hcarry, hZ, hN, h⟩⟩
  rw [hparts, hV]
  cases op with
  | SHLL => exact iff_of_true rfl nofun
  | SHLR => exact iff_of_true rfl nofun
  | SHAR => exact iff_of_true rfl nofun
  | SHAL =>
    change ((Cpu.shiftValue PlainShift.SHAL.op sz s.flags v).2 && _) = _ ↔ _
    rw [hcarry]
    refine (PlainShift.shal_overflow_iff hv hvalue).trans ?_
    rw [eq_self, true_and]

/-- `SHAL.B R0L` with R0L = 0x40: 128 is no signed byte, and V is clear. -/
theorem shift_overflow_missed : ¬ ∀ (s : Walker) (op : PlainShift) (sz : Size) (rd : BitVec 4),
    ∃ t, s.opcodeSwitch (.shift op.op sz rd) = .ok t ∧
      Shifted op sz (getReg s.registers sz rd) (getReg t.registers sz rd) t.flags := by
  intro claim
  obtain ⟨t, ht, h⟩ := claim { registers := fun _ => 0x40 } .SHAL .b 8
  cases ht
  exact absurd h.V (by decide)

end Walker

-- ---------------------------------------------------------------------------
-- Rotations
-- ---------------------------------------------------------------------------

theorem modulus_eq (sz : Size) : sz.modulus = 2 ^ sz.numberOfBits := by cases sz <;> rfl

theorem one_lt_numberOfBits (sz : Size) : 1 < sz.numberOfBits := by cases sz <;> decide

theorem getLsbD_rotated (v : BitVec 32) (b : Bool) (hi : i < 32) :
    ((v <<< 1) ||| (BitVec.ofBool b).setWidth 32).getLsbD i =
      if i = 0 then b else v.getLsbD (i - 1) := by
  cases i with
  | zero => simp
  | succ i => simp [hi, BitVec.getLsbD_eq_getElem (show i < 32 by omega)]

namespace Walker

variable {s t : Walker} {sz : Size}

def word (s : Walker) (sz : Size) (rd : BitVec 4) : BitVec sz.numberOfBits :=
  (getReg s.registers sz rd).setWidth sz.numberOfBits

def ring (s : Walker) (sz : Size) (rd : BitVec 4) : BitVec (sz.numberOfBits + 1) :=
  BitVec.cons s.flags.C (s.word sz rd)

/-- A number of applications of an instruction. -/
def applications (s : Walker) (i : Instr) : Nat → Outcome Fault Walker
  | 0 => .ok s
  | k + 1 => (s.applications i k).andThen fun t => t.opcodeSwitch i

theorem getLsbD_word (s : Walker) (rd : BitVec 4) (hi : i < sz.numberOfBits) :
    (s.word sz rd).getLsbD i = (getReg s.registers sz rd).getLsbD i := by
  simp [word, hi]

theorem word_inj (h : s.word sz rd = t.word sz rd) :
    getReg s.registers sz rd = getReg t.registers sz rd := by
  have hnat := congrArg BitVec.toNat h
  unfold word at hnat
  rw [BitVec.toNat_setWidth, BitVec.toNat_setWidth, ← modulus_eq,
    Nat.mod_eq_of_lt (getReg_lt s.registers sz rd),
    Nat.mod_eq_of_lt (getReg_lt t.registers sz rd)] at hnat
  exact BitVec.eq_of_toNat_eq hnat

theorem word_of_toNat {value : BitVec 32}
    (h : (getReg t.registers sz rd).toNat = value.toNat % sz.modulus) :
    t.word sz rd = value.setWidth sz.numberOfBits := by
  apply BitVec.eq_of_toNat_eq
  rw [word, BitVec.toNat_setWidth, BitVec.toNat_setWidth, h, ← modulus_eq, Nat.mod_mod]

/-- A rotation shifts its bits up by one, below them the bit rotated in. -/
theorem opcodeSwitch_rotate (s : Walker) (op : Shift) (sz : Size) (rd : BitVec 4) {b : Bool}
    (hvalue : Cpu.shiftValue op sz s.flags (getReg s.registers sz rd) =
      ((getReg s.registers sz rd <<< 1) ||| (BitVec.ofBool b).setWidth 32,
        getReg s.registers sz rd &&& sz.negativeFlag != 0)) :
    ∃ t, s.opcodeSwitch (.shift op sz rd) = .ok t ∧ t.flags.C = (s.word sz rd).msb ∧
      ∀ i < sz.numberOfBits, (t.word sz rd).getLsbD i =
        if i = 0 then b else (s.word sz rd).getLsbD (i - 1) := by
  obtain ⟨t, ht, hresult, hC, -⟩ := s.opcodeSwitch_shift op sz rd
  have hbits : sz.numberOfBits ≤ 32 := by cases sz <;> decide
  rw [hvalue] at hresult hC
  refine ⟨t, ht, ?_, ?_⟩
  · rw [hC, and_negativeFlag, BitVec.msb_eq_getLsbD_last,
      getLsbD_word s rd (by cases sz <;> decide)]
    rfl
  · intro i hi
    have hvalue := congrArg (BitVec.getLsbD · i) (word_of_toNat hresult)
    simp only [BitVec.getLsbD_setWidth, hi, decide_true, Bool.true_and] at hvalue
    rw [hvalue, getLsbD_rotated _ _ (by omega)]
    by_cases h : i = 0
    · rw [if_pos h, if_pos h]
    · rw [if_neg h, if_neg h, getLsbD_word s rd (by omega)]

theorem rotl_step (s : Walker) (sz : Size) (rd : BitVec 4) :
    ∃ t, s.opcodeSwitch (.shift .rotl sz rd) = .ok t ∧ t.flags.C = (s.word sz rd).msb ∧
      t.word sz rd = (s.word sz rd).rotateLeft 1 := by
  obtain ⟨t, ht, hC, hbits⟩ := s.opcodeSwitch_rotate .rotl sz rd rfl
  refine ⟨t, ht, hC, ?_⟩
  apply BitVec.eq_of_getLsbD_eq
  intro i hi
  have hone := one_lt_numberOfBits sz
  rw [hbits i hi, getLsbD_rotateLeft_mod _ _ hi, Nat.mod_eq_of_lt hone, add_sub_mod hi hone]
  by_cases h : i = 0
  · subst h
    rw [if_pos rfl, if_pos Nat.zero_lt_one, Nat.zero_add, getLsbD_word s rd (by omega),
      and_negativeFlag]
    rfl
  · rw [if_neg h, if_neg (by omega)]

theorem rotxl_step (s : Walker) (sz : Size) (rd : BitVec 4) :
    ∃ t, s.opcodeSwitch (.shift .rotxl sz rd) = .ok t ∧
      t.ring sz rd = (s.ring sz rd).rotateLeft 1 := by
  obtain ⟨t, ht, hC, hbits⟩ := s.opcodeSwitch_rotate .rotxl sz rd rfl
  refine ⟨t, ht, ?_⟩
  apply BitVec.eq_of_getLsbD_eq
  intro i hi
  have hone := one_lt_numberOfBits sz
  rw [getLsbD_rotateLeft_mod _ _ hi, Nat.mod_eq_of_lt (show 1 < sz.numberOfBits + 1 by omega),
    add_sub_mod hi (by omega)]
  simp only [ring, BitVec.getLsbD_cons]
  by_cases hzero : i = 0
  · subst hzero
    rw [if_pos Nat.zero_lt_one, if_neg (by omega), if_pos (by omega), hbits 0 (by omega),
      if_pos rfl]
  · rw [if_neg (show ¬ i < 1 by omega), if_neg (show ¬ i - 1 = sz.numberOfBits by omega)]
    by_cases htop : i = sz.numberOfBits
    · rw [if_pos htop, hC, BitVec.msb_eq_getLsbD_last, htop]
    · rw [if_neg htop, hbits i (by omega), if_neg hzero]

theorem rotl_run (s : Walker) (sz : Size) (rd : BitVec 4) (k : Nat) :
    ∃ t, s.applications (.shift .rotl sz rd) k = .ok t ∧
      t.word sz rd = (s.word sz rd).rotateLeft k ∧
      (0 < k → t.flags.C = ((s.word sz rd).rotateLeft (k - 1)).msb) := by
  induction k with
  | zero => exact ⟨s, rfl, (rotateLeft_zero _).symm, nofun⟩
  | succ k ih =>
    obtain ⟨t, ht, hword, -⟩ := ih
    obtain ⟨u, hu, hC, hstep⟩ := t.rotl_step sz rd
    refine ⟨u, ?_, ?_, ?_⟩
    · rw [applications, ht]
      exact hu
    · rw [hstep, hword, rotateLeft_rotateLeft]
    · rintro -
      rw [hC, hword]
      rfl

theorem rotxl_run (s : Walker) (sz : Size) (rd : BitVec 4) (k : Nat) :
    ∃ t, s.applications (.shift .rotxl sz rd) k = .ok t ∧
      t.ring sz rd = (s.ring sz rd).rotateLeft k := by
  induction k with
  | zero => exact ⟨s, rfl, (rotateLeft_zero _).symm⟩
  | succ k ih =>
    obtain ⟨t, ht, hring⟩ := ih
    obtain ⟨u, hu, hstep⟩ := t.rotxl_step sz rd
    refine ⟨u, ?_, ?_⟩
    · rw [applications, ht]
      exact hu
    · rw [hstep, hring, rotateLeft_rotateLeft]

theorem ring_inj (h : s.ring sz rd = t.ring sz rd) :
    getReg s.registers sz rd = getReg t.registers sz rd ∧ s.flags.C = t.flags.C := by
  have hword := congrArg (BitVec.setWidth sz.numberOfBits) h
  have hC := congrArg BitVec.msb h
  simp only [ring, BitVec.setWidth_cons, BitVec.msb_cons] at hword hC
  exact ⟨word_inj hword, hC⟩

/-- Rotations turn the ring of their bits, come round after as many steps as it
has bits, and lose none of them. -/
theorem rotations (s : Walker) (sz : Size) (rd : BitVec 4) :
    (∀ k, ∃ t, s.applications (.shift .rotl sz rd) k = .ok t ∧
      t.word sz rd = (s.word sz rd).rotateLeft (k % sz.numberOfBits) ∧
      (0 < k → t.flags.C = ((s.word sz rd).rotateLeft (k - 1)).msb)) ∧
    (∀ k, ∃ t, s.applications (.shift .rotxl sz rd) k = .ok t ∧
      t.ring sz rd = (s.ring sz rd).rotateLeft (k % (sz.numberOfBits + 1))) ∧
    (∃ t, s.applications (.shift .rotl sz rd) sz.numberOfBits = .ok t ∧
      getReg t.registers sz rd = getReg s.registers sz rd) ∧
    (∃ t, s.applications (.shift .rotxl sz rd) (sz.numberOfBits + 1) = .ok t ∧
      getReg t.registers sz rd = getReg s.registers sz rd ∧ t.flags.C = s.flags.C) ∧
    (∀ s' t t' : Walker, s.opcodeSwitch (.shift .rotl sz rd) = .ok t →
      s'.opcodeSwitch (.shift .rotl sz rd) = .ok t' →
      getReg t.registers sz rd = getReg t'.registers sz rd →
      getReg s.registers sz rd = getReg s'.registers sz rd) ∧
    (∀ s' t t' : Walker, s.opcodeSwitch (.shift .rotxl sz rd) = .ok t →
      s'.opcodeSwitch (.shift .rotxl sz rd) = .ok t' →
      getReg t.registers sz rd = getReg t'.registers sz rd → t.flags.C = t'.flags.C →
      getReg s.registers sz rd = getReg s'.registers sz rd ∧ s.flags.C = s'.flags.C) := by
  refine ⟨fun k => ?_, fun k => ?_, ?_, ?_, ?_, ?_⟩
  · rw [BitVec.rotateLeft_mod_eq_rotateLeft]
    exact s.rotl_run sz rd k
  · rw [BitVec.rotateLeft_mod_eq_rotateLeft]
    exact s.rotxl_run sz rd k
  · obtain ⟨t, ht, hword, -⟩ := s.rotl_run sz rd sz.numberOfBits
    rw [rotateLeft_self] at hword
    exact ⟨t, ht, word_inj hword⟩
  · obtain ⟨t, ht, hring⟩ := s.rotxl_run sz rd (sz.numberOfBits + 1)
    rw [rotateLeft_self] at hring
    exact ⟨t, ht, ring_inj hring⟩
  · intro s' t t' ht ht' hregister
    obtain ⟨_, hsome, -, hword⟩ := s.rotl_step sz rd
    obtain ⟨_, hsome', -, hword'⟩ := s'.rotl_step sz rd
    cases ht.symm.trans hsome
    cases ht'.symm.trans hsome'
    refine word_inj (rotateLeft_injective 1 ?_)
    change (s.word sz rd).rotateLeft 1 = (s'.word sz rd).rotateLeft 1
    rw [← hword, ← hword', word, hregister, word]
  · intro s' t t' ht ht' hregister hC
    obtain ⟨_, hsome, hring⟩ := s.rotxl_step sz rd
    obtain ⟨_, hsome', hring'⟩ := s'.rotxl_step sz rd
    cases ht.symm.trans hsome
    cases ht'.symm.trans hsome'
    refine ring_inj (rotateLeft_injective 1 ?_)
    change (s.ring sz rd).rotateLeft 1 = (s'.ring sz rd).rotateLeft 1
    rw [← hring, ← hring', ring, ring, word, word, hregister, hC]

end Walker

end PokeStroller
