import PokeStroller.Lib.HostInt
import PokeStroller.Walker.Multiply

/-!
# Multiplying and dividing on the host

The bodies of MULXU, MULXS, DIVXU and DIVXS in the types C computes them in.
Operands below `int` are promoted to it, which a product of two `uint16_t` and
a `uint16_t` shifted by 16 can leave.
-/

namespace PokeStroller

-- ---------------------------------------------------------------------------
-- The bodies in `int`
-- ---------------------------------------------------------------------------

namespace Cpu

def hostMulxuB (s : Cpu) (rs rd : BitVec 4) : Option Cpu := do
  let lowerBitsRd : Byte := (getReg16 s.registers rd &&& 0x00ff).setWidth 8
  let product ← HostInt.mul ((getReg8 s.registers rs).setWidth 32) (lowerBitsRd.setWidth 32)
  return { s with registers := setReg16 s.registers rd (product.setWidth 16) }

def hostMulxuW (s : Cpu) (rs rd : BitVec 4) : Option Cpu := do
  let lowerBitsRd : BitVec 16 := (getReg32 s.registers rd &&& 0x0000ffff).setWidth 16
  let product ← HostInt.mul ((getReg16 s.registers rs).setWidth 32) (lowerBitsRd.setWidth 32)
  return { s with registers := setReg32 s.registers rd product }

def hostMulxsB (s : Cpu) (rs rd : BitVec 4) : Option Cpu := do
  let lowerBitsRd : Byte := (getReg16 s.registers rd &&& 0x00ff).setWidth 8
  -- `(int16_t)*Rs.ptr * (int16_t)lowerBitsRd`
  let product ← HostInt.mul (((getReg8 s.registers rs).setWidth 16).signExtend 32)
    ((lowerBitsRd.signExtend 16).signExtend 32)
  let registers := setReg16 s.registers rd (product.setWidth 16)
  let result := getReg16 registers rd
  return { s with
    registers := registers
    flags := { s.flags with Z := result == 0, N := result &&& 0x8000 != 0 } }

def hostMulxsW (s : Cpu) (rs rd : BitVec 4) : Option Cpu := do
  let lowerBitsRd : BitVec 16 := (getReg32 s.registers rd &&& 0x0000ffff).setWidth 16
  let product ← HostInt.mul ((getReg16 s.registers rs).setWidth 32) (lowerBitsRd.signExtend 32)
  let registers := setReg32 s.registers rd product
  let result := getReg32 registers rd
  return { s with
    registers := registers
    flags := { s.flags with Z := result == 0, N := result &&& 0x80000000 != 0 } }

def hostDivxuB (s : Cpu) (rs rd : BitVec 4) : Option Cpu := do
  let divisor := (getReg8 s.registers rs).setWidth 32
  let dividend := (getReg16 s.registers rd).setWidth 32
  let quotient ← HostInt.div dividend divisor
  let remainder ← HostInt.rem dividend divisor
  let quotient : Byte := quotient.setWidth 8
  let remainder : Byte := remainder.setWidth 8
  let high ← HostInt.shl (remainder.setWidth 32) 8
  let registers := setReg16 s.registers rd ((high ||| quotient.setWidth 32).setWidth 16)
  return { s with
    registers := registers
    flags := { s.flags with
      Z := getReg8 registers rs == 0
      N := (getReg8 registers rs).setWidth 32 &&& 0x8000 != 0#32 } }

def hostDivxuW (s : Cpu) (rs rd : BitVec 4) : Option Cpu := do
  let divisor := (getReg16 s.registers rs).setWidth 32
  let dividend := getReg32 s.registers rd
  let quotient ← HostInt.udiv dividend divisor
  let remainder ← HostInt.umod dividend divisor
  let quotient : BitVec 16 := quotient.setWidth 16
  let remainder : BitVec 16 := remainder.setWidth 16
  let high ← HostInt.shl (remainder.setWidth 32) 16
  let registers := setReg32 s.registers rd (high ||| quotient.setWidth 32)
  return { s with
    registers := registers
    flags := { s.flags with
      Z := getReg16 registers rs == 0
      N := (getReg16 registers rs).setWidth 32 &&& 0x80000000 != 0#32 } }

def hostDivxsB (s : Cpu) (rs rd : BitVec 4) : Option Cpu := do
  let divisor := (getReg8 s.registers rs).signExtend 32
  let dividend := (getReg16 s.registers rd).signExtend 32
  let quotient ← HostInt.div dividend divisor
  let remainder ← HostInt.rem dividend divisor
  let quotient : Byte := quotient.setWidth 8
  let remainder : Byte := remainder.setWidth 8
  let high ← HostInt.shl (remainder.signExtend 32) 8
  let registers := setReg16 s.registers rd ((high ||| quotient.signExtend 32).setWidth 16)
  return { s with
    registers := registers
    flags := { s.flags with
      Z := getReg8 registers rs == 0
      N := !(BitVec.slt 0 quotient) } }

def hostDivxsW (s : Cpu) (rs rd : BitVec 4) : Option Cpu := do
  let divisor := (getReg16 s.registers rs).signExtend 32
  let dividend := getReg32 s.registers rd
  let quotient ← HostInt.div dividend divisor
  let remainder ← HostInt.rem dividend divisor
  let quotient : BitVec 16 := quotient.setWidth 16
  let remainder : BitVec 16 := remainder.setWidth 16
  let high ← HostInt.shl (remainder.signExtend 32) 16
  let registers := setReg32 s.registers rd (high ||| quotient.signExtend 32)
  return { s with
    registers := registers
    flags := { s.flags with
      Z := getReg16 registers rs == 0
      N := quotient.signExtend 32 &&& 0x80000000 != 0 } }

end Cpu

-- ---------------------------------------------------------------------------
-- Their values
-- ---------------------------------------------------------------------------

theorem setWidth_ne_zero {x : BitVec n} (h : n ≤ m) (hx : x ≠ 0) : x.setWidth m ≠ 0 := by
  intro hzero
  have hnat := congrArg BitVec.toNat hzero
  rw [BitVec.toNat_setWidth_of_le h] at hnat
  exact hx (BitVec.eq_of_toNat_eq (by simpa using hnat))

theorem fits_mul_iff {x y : BitVec n} (hn : n < 32) :
    HostInt.Fits 32 ((x.setWidth 32).toInt * (y.setWidth 32).toInt) ↔
      x.toNat * y.toNat < 2 ^ 31 := by
  rw [toInt_setWidth_of_lt x hn, toInt_setWidth_of_lt y hn, ← Int.natCast_mul]
  unfold HostInt.Fits
  omega

theorem mul_of_toNat {x y : BitVec n} (hn : n < 32) (h : x.toNat * y.toNat < 2 ^ 31) :
    HostInt.mul (x.setWidth 32) (y.setWidth 32) = some (x.setWidth 32 * y.setWidth 32) :=
  HostInt.mul_of_fits ((fits_mul_iff hn).mpr h)

theorem fits_shl_iff {x : BitVec n} (hn : n < 32) :
    HostInt.Fits 32 ((x.setWidth 32).toInt * 2 ^ k) ↔ x.toNat * 2 ^ k < 2 ^ 31 := by
  have hcast : (2 ^ k : Int) = ((2 ^ k : Nat) : Int) := by push_cast; rfl
  rw [toInt_setWidth_of_lt x hn, hcast, ← Int.natCast_mul]
  unfold HostInt.Fits
  omega

theorem msb_setWidth_of_lt (x : BitVec n) (hn : n < 32) : (x.setWidth 32).msb = false := by
  rw [BitVec.msb_setWidth]
  simp only [BitVec.getLsbD_of_ge x (32 - 1) (by omega), Bool.and_false]

section
variable {x : BitVec m} {y : BitVec n}

theorem tdiv_of_toNat (hm : m < 32) (hn : n < 32) :
    HostInt.Fits 32 ((x.setWidth 32).toInt.tdiv (y.setWidth 32).toInt) := by
  have hx : x.toNat < 2 ^ 31 :=
    Nat.lt_of_lt_of_le x.isLt (Nat.pow_le_pow_right (by decide) (by omega))
  have hle := Nat.div_le_self x.toNat y.toNat
  rw [toInt_setWidth_of_lt x hm, toInt_setWidth_of_lt y hn, ← Int.ofNat_tdiv]
  generalize x.toNat / y.toNat = quotient at hle
  unfold HostInt.Fits
  omega

theorem div_of_toNat (hm : m < 32) (hn : n < 32) (hy : y.setWidth 32 ≠ 0) :
    HostInt.div (x.setWidth 32) (y.setWidth 32) = some (x.setWidth 32 / y.setWidth 32) := by
  rw [HostInt.div_of_fits hy (tdiv_of_toNat hm hn), BitVec.sdiv_eq, msb_setWidth_of_lt x hm,
    msb_setWidth_of_lt y hn]
  rfl

theorem rem_of_toNat (hm : m < 32) (hn : n < 32) (hy : y.setWidth 32 ≠ 0) :
    HostInt.rem (x.setWidth 32) (y.setWidth 32) = some (x.setWidth 32 % y.setWidth 32) := by
  rw [HostInt.rem_of_fits hy (tdiv_of_toNat hm hn), BitVec.srem_eq, msb_setWidth_of_lt x hm,
    msb_setWidth_of_lt y hn]

end

theorem lower8_lt (v : BitVec 16) : (v &&& 0x00ff).toNat < 2 ^ 8 := by
  rw [BitVec.toNat_and]
  exact Nat.lt_of_le_of_lt Nat.and_le_right (by decide)

theorem lower16_lt (v : BitVec 32) : (v &&& 0x0000ffff).toNat < 2 ^ 16 := by
  rw [BitVec.toNat_and]
  exact Nat.lt_of_le_of_lt Nat.and_le_right (by decide)

section
variable {x : BitVec m} {y : BitVec n} (hn : n ≤ m) (hm : m ≤ k)
include hn hm

theorem setWidth_udiv : (x.setWidth k / y.setWidth k).setWidth j = (x / y.setWidth m).setWidth j := by
  apply BitVec.eq_of_toNat_eq
  rw [BitVec.toNat_setWidth, BitVec.toNat_setWidth, BitVec.toNat_udiv, BitVec.toNat_udiv,
    BitVec.toNat_setWidth_of_le hm, BitVec.toNat_setWidth_of_le (Nat.le_trans hn hm),
    BitVec.toNat_setWidth_of_le hn]

theorem setWidth_umod : (x.setWidth k % y.setWidth k).setWidth j = (x % y.setWidth m).setWidth j := by
  apply BitVec.eq_of_toNat_eq
  rw [BitVec.toNat_setWidth, BitVec.toNat_setWidth, BitVec.toNat_umod, BitVec.toNat_umod,
    BitVec.toNat_setWidth_of_le hm, BitVec.toNat_setWidth_of_le (Nat.le_trans hn hm),
    BitVec.toNat_setWidth_of_le hn]

end

theorem signExtend_setWidth (x : Byte) : (x.setWidth 16).signExtend 32 = x.setWidth 32 := by
  have hmsb : (x.setWidth 16).msb = false := by
    rw [BitVec.msb_setWidth]
    simp only [BitVec.getLsbD_of_ge x (16 - 1) (by decide), Bool.and_false]
  rw [BitVec.signExtend_eq_setWidth_of_msb_false hmsb, BitVec.setWidth_setWidth (by decide)]

theorem signExtend_signExtend (x : Byte) : (x.signExtend 16).signExtend 32 = x.signExtend 32 := by
  apply BitVec.eq_of_toInt_eq
  rw [BitVec.toInt_signExtend_of_le (by decide), BitVec.toInt_signExtend_of_le (by decide),
    BitVec.toInt_signExtend_of_le (by decide)]

theorem setWidth_signExtend (x : Byte) : (x.signExtend 32).setWidth 16 = x.signExtend 16 := by
  apply BitVec.eq_of_getLsbD_eq
  intro i hi
  have hword : i < 32 := by omega
  simp [BitVec.getElem_signExtend, hi, hword]

theorem lower8_setWidth (v : BitVec 16) : (v &&& 0x00ff).setWidth 8 = v.setWidth 8 := by
  rw [BitVec.setWidth_and]
  exact BitVec.and_allOnes

theorem lower16_setWidth (v : BitVec 32) : (v &&& 0x0000ffff).setWidth 16 = v.setWidth 16 := by
  rw [BitVec.setWidth_and]
  exact BitVec.and_allOnes

namespace Cpu

variable (s : Cpu) (rs rd : BitVec 4)

theorem hostMulxuB_eq : s.hostMulxuB rs rd = some (s.mulxuB rs rd) := by
  have hproduct := Nat.mul_lt_mul_of_lt_of_lt (getReg8 s.registers rs).isLt
    ((getReg16 s.registers rd &&& 0x00ff).setWidth 8).isLt
  simp only [hostMulxuB, mul_of_toNat (by decide) (Nat.lt_trans hproduct (by decide)),
    Option.bind_eq_bind, Option.bind_some, Option.pure_def, mulxuB]
  rw [BitVec.setWidth_mul _ _ (by decide), BitVec.setWidth_setWidth_of_le _ (by decide),
    BitVec.setWidth_setWidth_of_le _ (by decide), setWidth_setWidth_of_lt (lower8_lt _)]

theorem hostMulxuW_eq : s.hostMulxuW rs rd =
    if (getReg16 s.registers rs).toNat * ((getReg32 s.registers rd).toNat % 2 ^ 16) < 2 ^ 31
    then some (s.mulxuW rs rd) else none := by
  have hlower := BitVec.toNat_setWidth 16 (getReg32 s.registers rd)
  rw [← hlower, ← lower16_setWidth]
  by_cases h : (getReg16 s.registers rs).toNat *
      ((getReg32 s.registers rd &&& 0x0000ffff).setWidth 16).toNat < 2 ^ 31
  · simp only [hostMulxuW, mul_of_toNat (by decide) h, Option.bind_eq_bind, Option.bind_some,
      Option.pure_def, mulxuW, if_pos h]
    rw [setWidth_setWidth_of_lt (lower16_lt _)]
  · have hnone := HostInt.value?_of_not_fits (mt (fits_mul_iff (by decide)).mp h)
    simp only [hostMulxuW, HostInt.mul, hnone, if_neg h]
    rfl

theorem fits_mulxs (hn : 0 < n) (hword : n + n ≤ 32) (x y : BitVec n) :
    HostInt.Fits 32 ((x.setWidth 32).toInt * (y.signExtend 32).toInt) := by
  rw [toInt_setWidth_of_lt x (by omega), BitVec.toInt_signExtend_of_le (by omega),
    ← toInt_mul_signExtend x y hn]
  exact (HostInt.fits_toInt _).mono hword

theorem hostMulxsB_eq : s.hostMulxsB rs rd = some (s.mulxsB rs rd) := by
  have hfits := fits_mulxs (by decide) (by decide) (getReg8 s.registers rs)
    ((getReg16 s.registers rd).setWidth 8)
  simp only [hostMulxsB, lower8_setWidth, signExtend_setWidth, signExtend_signExtend,
    HostInt.mul_of_fits hfits, Option.bind_eq_bind, Option.bind_some, Option.pure_def, mulxsB,
    getReg16_setReg16, BitVec.setWidth_mul _ _ (show 16 ≤ 32 by decide), setWidth_signExtend,
    BitVec.setWidth_setWidth_of_le _ (show 16 ≤ 32 by decide)]

theorem hostMulxsW_eq : s.hostMulxsW rs rd = some (s.mulxsW rs rd) := by
  have hfits := fits_mulxs (by decide) (by decide) (getReg16 s.registers rs)
    ((getReg32 s.registers rd).setWidth 16)
  simp only [hostMulxsW, lower16_setWidth, HostInt.mul_of_fits hfits, Option.bind_eq_bind,
    Option.bind_some, Option.pure_def, mulxsW, getReg32_setReg32]

theorem hostDivxuB_eq : s.hostDivxuB rs rd = (s.divxuB rs rd).toOption := by
  by_cases hzero : getReg8 s.registers rs = 0
  · simp only [hostDivxuB, divxuB, hzero]
    rfl
  · have hword : (getReg8 s.registers rs).setWidth 32 ≠ 0 := setWidth_ne_zero (by decide) hzero
    have hhalf : (getReg8 s.registers rs).setWidth 16 ≠ 0 := setWidth_ne_zero (by decide) hzero
    have hfits (r : Byte) : HostInt.Fits 32 ((r.setWidth 32).toInt * 2 ^ 8) := by
      rw [fits_shl_iff (by decide)]
      have hr := r.isLt
      omega
    have hdiv := div_of_toNat (x := getReg16 s.registers rd) (by decide) (by decide) hword
    have hrem := rem_of_toNat (x := getReg16 s.registers rd) (by decide) (by decide) hword
    simp only [hostDivxuB, hdiv, hrem, HostInt.shl_of_fits (hfits _), Option.bind_eq_bind,
      Option.bind_some, Option.pure_def, divxuB, if_neg hhalf, Outcome.toOption,
      setWidth_udiv (show 8 ≤ 16 by decide) (show 16 ≤ 32 by decide),
      setWidth_umod (show 8 ≤ 16 by decide) (show 16 ≤ 32 by decide),
      BitVec.setWidth_or, BitVec.setWidth_shiftLeft_of_le (show 16 ≤ 32 by decide),
      BitVec.setWidth_setWidth_of_le _ (show 16 ≤ 32 by decide)]

theorem hostDivxuW_eq : s.hostDivxuW rs rd =
    if (getReg32 s.registers rd).toNat % (getReg16 s.registers rs).toNat * 2 ^ 16 < 2 ^ 31
    then (s.divxuW rs rd).toOption else none := by
  by_cases hzero : getReg16 s.registers rs = 0
  · simp only [hostDivxuW, divxuW, hzero]
    exact (ite_self none).symm
  · have hword : (getReg16 s.registers rs).setWidth 32 ≠ 0 := setWidth_ne_zero (by decide) hzero
    have hmod := Nat.mod_lt (getReg32 s.registers rd).toNat
      (Nat.pos_of_ne_zero (mt (fun h => BitVec.eq_of_toNat_eq h) hzero))
    have hremainder : ((getReg32 s.registers rd %
        (getReg16 s.registers rs).setWidth 32).setWidth 16).toNat =
        (getReg32 s.registers rd).toNat % (getReg16 s.registers rs).toNat := by
      rw [BitVec.toNat_setWidth, BitVec.toNat_umod, BitVec.toNat_setWidth_of_le (by decide)]
      exact Nat.mod_eq_of_lt (Nat.lt_trans hmod (BitVec.isLt _))
    rw [← hremainder]
    simp only [hostDivxuW, HostInt.udiv_of_ne _ hword, HostInt.umod_of_ne _ hword,
      Option.bind_eq_bind, Option.bind_some, Option.pure_def, divxuW, if_neg hword,
      Outcome.toOption]
    split
    · rename_i h
      rw [HostInt.shl_of_fits ((fits_shl_iff (by decide)).mpr h)]
      rfl
    · rename_i h
      rw [HostInt.shl, HostInt.value?_of_not_fits (mt (fits_shl_iff (by decide)).mp h)]
      rfl

theorem fits_shl_signExtend (hword : n + n ≤ 32) (r : BitVec n) :
    HostInt.Fits 32 ((r.signExtend 32).toInt * 2 ^ n) := by
  have hpos : (0 : Int) < 2 ^ n := Int.pow_pos (by decide)
  have hlow := Int.mul_le_mul_of_nonneg_right (BitVec.le_two_mul_toInt (x := r)) hpos.le
  have hhigh := Int.mul_lt_mul_of_pos_right (BitVec.two_mul_toInt_lt (x := r)) hpos
  have hpow : ((2 ^ (n + n) : Nat) : Int) = 2 ^ n * 2 ^ n := by
    rw [Nat.pow_add]
    push_cast
    rfl
  have hfits : HostInt.Fits (n + n) (r.toInt * 2 ^ n) := by
    rw [Int.neg_mul, Int.mul_assoc, ← hpow] at hlow
    rw [Int.mul_assoc, ← hpow] at hhigh
    exact ⟨by omega, by omega⟩
  rw [BitVec.toInt_signExtend_of_le (by omega)]
  exact hfits.mono hword

theorem fits_tdiv_signExtend (hm : m < 32) (x : BitVec m) (y : BitVec 32) :
    HostInt.Fits 32 ((x.signExtend 32).toInt.tdiv y.toInt) := by
  have hx := HostInt.fits_toInt x
  have hpow : 2 * 2 ^ m ≤ 2 ^ 32 := by
    rw [← Nat.pow_succ']
    exact Nat.pow_le_pow_right (by decide) hm
  have hle : (x.toInt.tdiv y.toInt).natAbs ≤ x.toInt.natAbs := by
    rw [Int.natAbs_tdiv]
    exact Nat.div_le_self _ _
  rw [BitVec.toInt_signExtend_of_le hm.le]
  obtain ⟨hlow, hhigh⟩ := hx
  exact ⟨by omega, by omega⟩

theorem hostDivxsB_eq : s.hostDivxsB rs rd = (s.divxsB rs rd).toOption := by
  by_cases hzero : (getReg8 s.registers rs).signExtend 32 = 0
  · simp only [hostDivxsB, divxsB, hzero]
    rfl
  · have hfits := fits_tdiv_signExtend (by decide) (getReg16 s.registers rd)
      ((getReg8 s.registers rs).signExtend 32)
    simp only [hostDivxsB, HostInt.div_of_fits hzero hfits, HostInt.rem_of_fits hzero hfits,
      HostInt.shl_of_fits (fits_shl_signExtend (show 8 + 8 ≤ 32 by decide) _),
      Option.bind_eq_bind, Option.bind_some, Option.pure_def, divxsB, if_neg hzero,
      Outcome.toOption]

theorem fits_tdiv_iff {x y : BitVec 32} :
    HostInt.Fits 32 (x.toInt.tdiv y.toInt) ↔ ¬ (x = 0x80000000 ∧ y = -1) := by
  constructor
  · rintro h ⟨rfl, rfl⟩
    revert h
    decide
  · intro h
    rw [← BitVec.toInt_sdiv_of_ne_or_ne x y (not_and_or.mp h)]
    exact HostInt.fits_toInt _

theorem hostDivxsW_eq : s.hostDivxsW rs rd = (s.divxsW rs rd).toOption := by
  by_cases hzero : (getReg16 s.registers rs).signExtend 32 = 0
  · simp only [hostDivxsW, divxsW, hzero]
    rfl
  · by_cases hover : getReg32 s.registers rd = 0x80000000 ∧
        (getReg16 s.registers rs).signExtend 32 = -1
    · simp only [hostDivxsW, HostInt.div, divxsW, if_neg hzero, if_pos hover,
        HostInt.value?_of_not_fits (mt fits_tdiv_iff.mp (not_not_intro hover))]
      rfl
    · have hfits := fits_tdiv_iff.mpr hover
      simp only [hostDivxsW, HostInt.div_of_fits hzero hfits, HostInt.rem_of_fits hzero hfits,
        HostInt.shl_of_fits (fits_shl_signExtend (show 16 + 16 ≤ 32 by decide) _),
        Option.bind_eq_bind, Option.bind_some, Option.pure_def, divxsW, if_neg hzero,
        if_neg hover, Outcome.toOption]

end Cpu

-- ---------------------------------------------------------------------------
-- The eight instructions
-- ---------------------------------------------------------------------------

inductive MulDiv
  | MULXU
  | MULXS
  | DIVXU
  | DIVXS
  deriving DecidableEq, Repr

namespace MulDiv

def instr (w : Width) (rs rd : BitVec 4) : MulDiv → Instr
  | MULXU => w.mulxu rs rd
  | MULXS => w.mulxs rs rd
  | DIVXU => w.divxu rs rd
  | DIVXS => w.divxs rs rd

/-- The case in C's arithmetic, with the `pc += 2` of the prefixed forms. -/
def host (s : Cpu) (w : Width) (rs rd : BitVec 4) (op : MulDiv) : Option Cpu :=
  match op, w with
  | MULXU, .B => s.hostMulxuB rs rd
  | MULXU, .W => s.hostMulxuW rs rd
  | MULXS, .B => (s.hostMulxsB rs rd).map (·.addPc 2)
  | MULXS, .W => (s.hostMulxsW rs rd).map (·.addPc 2)
  | DIVXU, .B => s.hostDivxuB rs rd
  | DIVXU, .W => s.hostDivxuW rs rd
  | DIVXS, .B => (s.hostDivxsB rs rd).map (·.addPc 2)
  | DIVXS, .W => (s.hostDivxsW rs rd).map (·.addPc 2)

def Divides (op : MulDiv) : Prop := op = DIVXU ∨ op = DIVXS

/-- Everything the case computes from `x` in `Rs` and `y` in `Rd` has a value:
there is a divisor, and products, quotients and shifted remainders fit. -/
def Representable (w : Width) (x y : BitVec 32) : MulDiv → Prop
  | MULXU => x.toNat * (y.toNat % w.base) < 2 ^ 31
  | MULXS => True
  | DIVXU => x ≠ 0 ∧ y.toNat % x.toNat * w.base < 2 ^ 31
  | DIVXS => x ≠ 0 ∧ ¬ (w.full.toInt y = -2 ^ 31 ∧ w.half.toInt x = -1)

end MulDiv

theorem toNat_getReg_b (registers : Registers) (r : BitVec 4) :
    (getReg registers .b r).toNat = (getReg8 registers r).toNat :=
  BitVec.toNat_setWidth_of_le (by decide)

theorem toNat_getReg_w (registers : Registers) (r : BitVec 4) :
    (getReg registers .w r).toNat = (getReg16 registers r).toNat :=
  BitVec.toNat_setWidth_of_le (by decide)

theorem setWidth_eq_zero_iff {x : BitVec n} (h : n ≤ m) : x.setWidth m = 0 ↔ x = 0 := by
  constructor
  · intro hzero
    by_contra hne
    exact setWidth_ne_zero h hne hzero
  · rintro rfl
    exact BitVec.setWidth_zero m n

theorem signExtend_eq_zero_iff {x : BitVec n} (h : n ≤ m) : x.signExtend m = 0 ↔ x = 0 := by
  rw [← BitVec.toInt_inj, ← BitVec.toInt_inj, BitVec.toInt_signExtend_of_le h]
  simp

namespace Cpu

variable (s : Cpu) (rs rd : BitVec 4)

theorem divxuB_ok_iff : (∃ cpu, s.divxuB rs rd = .ok cpu) ↔ getReg s.registers .b rs ≠ 0 := by
  simp only [getReg, divxuB, ne_eq, setWidth_eq_zero_iff (show 8 ≤ 32 by decide),
    setWidth_eq_zero_iff (show 8 ≤ 16 by decide)]
  split
  · exact iff_of_false (Outcome.not_fault_eq_ok _) (not_not_intro ‹_›)
  · exact iff_of_true ⟨_, rfl⟩ ‹_›

theorem divxuW_ok_iff : (∃ cpu, s.divxuW rs rd = .ok cpu) ↔ getReg s.registers .w rs ≠ 0 := by
  simp only [getReg, divxuW]
  split
  · exact iff_of_false (Outcome.not_fault_eq_ok _) (not_not_intro ‹_›)
  · exact iff_of_true ⟨_, rfl⟩ ‹_›

theorem divxsB_ok_iff : (∃ cpu, s.divxsB rs rd = .ok cpu) ↔ getReg s.registers .b rs ≠ 0 := by
  simp only [getReg, divxsB, ne_eq, setWidth_eq_zero_iff (show 8 ≤ 32 by decide),
    signExtend_eq_zero_iff (show 8 ≤ 32 by decide)]
  split
  · exact iff_of_false (Outcome.not_fault_eq_ok _) (not_not_intro ‹_›)
  · exact iff_of_true ⟨_, rfl⟩ ‹_›

theorem divxsW_ok_iff : (∃ cpu, s.divxsW rs rd = .ok cpu) ↔ getReg s.registers .w rs ≠ 0 ∧
    ¬ (getReg32 s.registers rd = 0x80000000 ∧ (getReg16 s.registers rs).signExtend 32 = -1) := by
  simp only [getReg, divxsW, ne_eq, setWidth_eq_zero_iff (show 16 ≤ 32 by decide),
    signExtend_eq_zero_iff (show 16 ≤ 32 by decide)]
  split
  · exact iff_of_false (Outcome.not_fault_eq_ok _) fun h => h.1 ‹_›
  · split
    · exact iff_of_false (Outcome.not_fault_eq_ok _) fun h => h.2 ‹_›
    · exact iff_of_true ⟨_, rfl⟩ ⟨‹_›, ‹_›⟩

end Cpu

namespace MulDiv

variable (s : Cpu) (saved : BitVec 16) (savedFlags : Flags) (rs rd : BitVec 4)

theorem host_mulxu (w : Width) :
    (∃ cpu, MULXU.host s w rs rd = some cpu ∧
      execute saved savedFlags s (MULXU.instr w rs rd) = .ok cpu) ↔
      MULXU.Representable w (getReg s.registers w.half rs) (getReg s.registers w.full rd) := by
  cases w with
  | B =>
    have hrs := (getReg8 s.registers rs).isLt
    have hmod := Nat.mod_lt (getReg s.registers .w rd).toNat (show 0 < 256 by decide)
    have hlt := Nat.mul_lt_mul_of_lt_of_lt hrs hmod
    rw [← toNat_getReg_b] at hlt
    exact iff_of_true ⟨_, s.hostMulxuB_eq rs rd, rfl⟩ (Nat.lt_trans hlt (by decide))
  | W =>
    change (∃ cpu, s.hostMulxuW rs rd = some cpu ∧ _) ↔
      (getReg s.registers .w rs).toNat * ((getReg32 s.registers rd).toNat % 2 ^ 16) < 2 ^ 31
    rw [toNat_getReg_w, Cpu.hostMulxuW_eq]
    split
    · exact iff_of_true ⟨_, rfl, rfl⟩ ‹_›
    · refine iff_of_false ?_ ‹_›
      rintro ⟨cpu, h, -⟩
      cases h

theorem host_mulxs (w : Width) :
    (∃ cpu, MULXS.host s w rs rd = some cpu ∧
      execute saved savedFlags s (MULXS.instr w rs rd) = .ok cpu) ↔
      MULXS.Representable w (getReg s.registers w.half rs) (getReg s.registers w.full rd) := by
  refine iff_of_true ?_ trivial
  cases w with
  | B => exact ⟨_, congrArg (Option.map _) (s.hostMulxsB_eq rs rd), rfl⟩
  | W => exact ⟨_, congrArg (Option.map _) (s.hostMulxsW_eq rs rd), rfl⟩

theorem toOption_ok_iff {x : Outcome Fault Cpu} :
    (∃ cpu, x.toOption = some cpu ∧ x = .ok cpu) ↔ ∃ cpu, x = .ok cpu := by
  simp only [Outcome.toOption_eq_some, and_self]

theorem map_ok_iff {x : Outcome Fault Cpu} {g : Cpu → Cpu} :
    (∃ cpu, x.map g = .ok cpu) ↔ ∃ cpu, x = .ok cpu := by
  cases x <;> simp

theorem host_divxu (w : Width) :
    (∃ cpu, DIVXU.host s w rs rd = some cpu ∧
      execute saved savedFlags s (DIVXU.instr w rs rd) = .ok cpu) ↔
      DIVXU.Representable w (getReg s.registers w.half rs) (getReg s.registers w.full rd) := by
  cases w with
  | B =>
    change (∃ cpu, s.hostDivxuB rs rd = some cpu ∧ s.divxuB rs rd = .ok cpu) ↔
      getReg s.registers .b rs ≠ 0 ∧ _ * 256 < 2 ^ 31
    rw [Cpu.hostDivxuB_eq, toOption_ok_iff, Cpu.divxuB_ok_iff]
    have hrd := getReg_lt s.registers .w rd
    have hmod := Nat.mod_le (getReg s.registers .w rd).toNat (getReg s.registers .b rs).toNat
    refine ⟨fun h => ⟨h, ?_⟩, And.left⟩
    exact Nat.lt_of_le_of_lt (Nat.mul_le_mul_right 256 (hmod.trans hrd.le)) (by decide)
  | W =>
    change (∃ cpu, s.hostDivxuW rs rd = some cpu ∧ s.divxuW rs rd = .ok cpu) ↔
      getReg s.registers .w rs ≠ 0 ∧
        (getReg32 s.registers rd).toNat % (getReg s.registers .w rs).toNat * 2 ^ 16 < 2 ^ 31
    rw [toNat_getReg_w, Cpu.hostDivxuW_eq]
    split
    · rw [toOption_ok_iff, Cpu.divxuW_ok_iff]
      exact (and_iff_left ‹_›).symm
    · refine iff_of_false ?_ fun h => absurd h.2 ‹_›
      rintro ⟨cpu, h, -⟩
      cases h

theorem host_divxs (w : Width) :
    (∃ cpu, DIVXS.host s w rs rd = some cpu ∧
      execute saved savedFlags s (DIVXS.instr w rs rd) = .ok cpu) ↔
      DIVXS.Representable w (getReg s.registers w.half rs) (getReg s.registers w.full rd) := by
  cases w with
  | B =>
    change (∃ cpu, (s.hostDivxsB rs rd).map _ = some cpu ∧ (s.divxsB rs rd).map _ = .ok cpu) ↔
      getReg s.registers .b rs ≠ 0 ∧
        ¬ (Size.w.toInt (getReg s.registers .w rd) = -2 ^ 31 ∧ _)
    rw [Cpu.hostDivxsB_eq, ← Outcome.toOption_map, toOption_ok_iff, map_ok_iff,
      Cpu.divxsB_ok_iff, toInt_getReg_w]
    have hlow := BitVec.le_two_mul_toInt (x := getReg16 s.registers rd)
    refine ⟨fun h => ⟨h, fun hint => ?_⟩, And.left⟩
    omega
  | W =>
    change (∃ cpu, (s.hostDivxsW rs rd).map _ = some cpu ∧ (s.divxsW rs rd).map _ = .ok cpu) ↔
      getReg s.registers .w rs ≠ 0 ∧
        ¬ (Size.l.toInt (getReg s.registers .l rd) = -2 ^ 31 ∧
          Size.w.toInt (getReg s.registers .w rs) = -1)
    rw [Cpu.hostDivxsW_eq, ← Outcome.toOption_map, toOption_ok_iff, map_ok_iff,
      Cpu.divxsW_ok_iff, toInt_getReg_w, toInt_getReg_l, ← BitVec.toInt_inj, ← BitVec.toInt_inj,
      BitVec.toInt_signExtend_of_le (by decide)]
    rfl

theorem host_iff (op : MulDiv) (w : Width) :
    (∃ cpu, op.host s w rs rd = some cpu ∧
      execute saved savedFlags s (op.instr w rs rd) = .ok cpu) ↔
      op.Representable w (getReg s.registers w.half rs) (getReg s.registers w.full rd) := by
  cases op with
  | MULXU => exact host_mulxu s saved savedFlags rs rd w
  | MULXS => exact host_mulxs s saved savedFlags rs rd w
  | DIVXU => exact host_divxu s saved savedFlags rs rd w
  | DIVXS => exact host_divxs s saved savedFlags rs rd w

theorem Representable.nonzero {op : MulDiv} (h : op.Representable w x y) (hop : op.Divides) :
    x ≠ 0 := by
  obtain rfl | rfl := hop
  · exact h.1
  · exact h.1

end MulDiv

namespace Walker

/-- No operation of the case is undefined, and a zero divisor completes it, sets
Z and keeps `Rd`. -/
structure HostDefined (s : Walker) (op : MulDiv) (w : Width) (rs rd : BitVec 4) : Prop where
  host : ∃ cpu, op.host s.toCpu w rs rd = some cpu ∧
    s.opcodeSwitch (op.instr w rs rd) = .ok { s with toCpu := cpu }
  zero : op.Divides → getReg s.registers w.half rs = 0 →
    ∃ t, s.opcodeSwitch (op.instr w rs rd) = .ok t ∧ t.flags.Z = true ∧
      getReg t.registers w.full rd = getReg s.registers w.full rd

/-- Multiplication and division stay within C's arithmetic exactly on the
operands whose intermediate results have a value. -/
theorem host_defined_iff (s : Walker) (op : MulDiv) (w : Width) (rs rd : BitVec 4) :
    s.HostDefined op w rs rd ↔
      op.Representable w (getReg s.registers w.half rs) (getReg s.registers w.full rd) := by
  have hhost := MulDiv.host_iff s.toCpu s.interruptSavedAddress s.interruptSavedFlags rs rd op w
  rw [← hhost]
  constructor
  · rintro ⟨⟨cpu, hsome, hok⟩, -⟩
    obtain ⟨cpu', hexec, heq⟩ := Outcome.map_eq_ok.mp hok
    obtain rfl : cpu' = cpu := congrArg Walker.toCpu heq
    exact ⟨cpu', hsome, hexec⟩
  · rintro ⟨cpu, hsome, hexec⟩
    refine ⟨⟨cpu, hsome, ?_⟩, fun hop hzero => ?_⟩
    · rw [opcodeSwitch, hexec]
      rfl
    · exact absurd hzero ((hhost.mp ⟨cpu, hsome, hexec⟩).nonzero hop)

/-- `MULXU.W R0,ER1` with 0xffff in both: the product leaves `int`. -/
theorem host_overflow :
    ¬ ∀ (s : Walker) (op : MulDiv) (w : Width) (rs rd : BitVec 4), s.HostDefined op w rs rd := by
  intro claim
  obtain ⟨⟨cpu, hsome, -⟩, -⟩ := claim { registers := fun _ => 0xffff } .MULXU .W 0 1
  cases hsome

end Walker

end PokeStroller
