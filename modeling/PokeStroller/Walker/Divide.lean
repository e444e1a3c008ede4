import Mathlib.Algebra.Order.Ring.Int
import PokeStroller.Walker.Sums

/-!
# Multiplying and dividing

The values of MULXU, DIVXU and DIVXS. A division packs its remainder above its
quotient in the register of the dividend; DIVXS packs the two as promoted
`int`s, and the sign of a negative quotient covers the remainder.
-/

namespace PokeStroller

inductive Width
  | B
  | W
  deriving DecidableEq, Repr

namespace Width

def half : Width → Size
  | B => .b
  | W => .w

def full : Width → Size
  | B => .w
  | W => .l

def base (w : Width) : Nat := w.half.modulus

def mulxu (rs rd : BitVec 4) : Width → Instr
  | B => .mulxuB rs rd
  | W => .mulxuW rs rd

def divxu (rs rd : BitVec 4) : Width → Instr
  | B => .divxuB rs rd
  | W => .divxuW rs rd

def divxs (rs rd : BitVec 4) : Width → Instr
  | B => .divxsB rs rd
  | W => .divxsW rs rd

def Apart (rs rd : BitVec 4) : Width → Prop
  | B => regIdx rs ≠ regIdx rd ∨ regHigh rd = true
  | W => regIdx rs ≠ regIdx rd

end Width

-- ---------------------------------------------------------------------------
-- Registers apart
-- ---------------------------------------------------------------------------

theorem getReg8_setReg16_of_ne (registers : Registers) (v : BitVec 16)
    (h : regIdx rs ≠ regIdx rd ∨ regHigh rd = true) :
    getReg8 (setReg16 registers rd v) rs = getReg8 registers rs := by
  unfold getReg8 setReg16
  by_cases hidx : regIdx rs = regIdx rd
  · have hhigh : regHigh rd = true := h.resolve_left (not_not_intro hidx)
    rw [hidx, Function.update_self, if_pos hhigh]
    split
    · apply BitVec.eq_of_getLsbD_eq
      intro i hi
      rw [BitVec.getLsbD_extractLsb', BitVec.getLsbD_extractLsb']
      grind
    · apply BitVec.eq_of_getLsbD_eq
      intro i hi
      rw [BitVec.getLsbD_extractLsb', BitVec.getLsbD_extractLsb']
      grind
  · rw [Function.update_of_ne hidx]

theorem getReg16_setReg32_of_ne (registers : Registers) (v : BitVec 32)
    (h : regIdx rs ≠ regIdx rd) :
    getReg16 (setReg32 registers rd v) rs = getReg16 registers rs := by
  unfold getReg16 setReg32
  rw [Function.update_of_ne h]

-- ---------------------------------------------------------------------------
-- MULXU and DIVXU
-- ---------------------------------------------------------------------------

theorem toNat_pack (r q : BitVec n) :
    ((r.setWidth (n + n) <<< n) ||| q.setWidth (n + n)).toNat = r.toNat * 2 ^ n + q.toNat := by
  have hr : r.toNat <<< n < 2 ^ (n + n) := by
    rw [Nat.shiftLeft_eq, Nat.pow_add]
    exact Nat.mul_lt_mul_of_pos_right r.isLt (Nat.two_pow_pos n)
  rw [BitVec.toNat_or, BitVec.toNat_shiftLeft, BitVec.toNat_setWidth_of_le (Nat.le_add_right n n),
    BitVec.toNat_setWidth_of_le (Nat.le_add_right n n), Nat.mod_eq_of_lt hr,
    ← Nat.shiftLeft_add_eq_or_of_lt q.isLt, Nat.shiftLeft_eq]

theorem toNat_pack_udiv (dividend : BitVec (n + n)) (divisor : BitVec n) :
    ((((dividend % divisor.setWidth (n + n)).setWidth n).setWidth (n + n) <<< n) |||
        ((dividend / divisor.setWidth (n + n)).setWidth n).setWidth (n + n)).toNat =
      dividend.toNat % divisor.toNat % 2 ^ n * 2 ^ n + dividend.toNat / divisor.toNat % 2 ^ n := by
  rw [toNat_pack, BitVec.toNat_setWidth, BitVec.toNat_setWidth, BitVec.toNat_umod,
    BitVec.toNat_udiv, BitVec.toNat_setWidth_of_le (Nat.le_add_right n n)]

theorem toNat_mul_lower (rs : BitVec n) (rd mask : BitVec (n + n))
    (hmask : (rd &&& mask).toNat = rd.toNat &&& (2 ^ n - 1)) :
    (rs.setWidth (n + n) * (rd &&& mask)).toNat = rd.toNat % 2 ^ n * rs.toNat := by
  rw [Nat.and_two_pow_sub_one_eq_mod] at hmask
  have hlt : rs.toNat * (rd.toNat % 2 ^ n) < 2 ^ (n + n) := by
    rw [Nat.pow_add]
    exact Nat.mul_lt_mul_of_lt_of_lt rs.isLt (Nat.mod_lt _ (Nat.two_pow_pos n))
  rw [BitVec.toNat_mul, hmask, BitVec.toNat_setWidth_of_le (Nat.le_add_right n n),
    Nat.mod_eq_of_lt hlt, Nat.mul_comm]

/-- What DIVXU is to leave of a dividend and a divisor. -/
structure Divided (w : Width) (dividend divisor result : Nat) : Prop where
  value : dividend = result % w.base * divisor + result / w.base
  remainder : result / w.base < divisor

theorem divided_of_eq (w : Width) {dividend divisor result : Nat} (hpos : 0 < divisor)
    (hdivisor : divisor < w.base) (hfits : dividend / divisor < w.base)
    (hresult : result =
      dividend % divisor % w.base * w.base + dividend / divisor % w.base) :
    Divided w dividend divisor result := by
  have hmod := Nat.mod_lt dividend hpos
  have hbase : 0 < w.base := modulus_pos w.half
  rw [Nat.mod_eq_of_lt (Nat.lt_trans hmod hdivisor), Nat.mod_eq_of_lt hfits] at hresult
  have hquotient : result % w.base = dividend / divisor := by
    rw [hresult, Nat.mul_add_mod_of_lt hfits]
  have hremainder : result / w.base = dividend % divisor := by
    rw [hresult, Nat.add_comm, Nat.add_mul_div_right _ _ hbase, Nat.div_eq_of_lt hfits,
      Nat.zero_add]
  refine ⟨?_, ?_⟩
  · rw [hquotient, hremainder, Nat.mul_comm, Nat.div_add_mod]
  · rw [hremainder]
    exact hmod

namespace Walker

theorem opcodeSwitch_divxu (s : Walker) (w : Width) (rs rd : BitVec 4)
    (hdivisor : getReg s.registers w.half rs ≠ 0) :
    ∃ t, s.opcodeSwitch (w.divxu rs rd) = .ok t ∧
      (getReg t.registers w.full rd).toNat =
        (getReg s.registers w.full rd).toNat % (getReg s.registers w.half rs).toNat % w.base *
            w.base +
          (getReg s.registers w.full rd).toNat / (getReg s.registers w.half rs).toNat % w.base := by
  rw [Ne, toNat_eq_zero] at hdivisor
  cases w with
  | B =>
    have hne : ¬ (getReg8 s.registers rs).setWidth 16 = 0 := fun h => hdivisor <| by
      have hzero := congrArg BitVec.toNat h
      rw [BitVec.toNat_setWidth_of_le (by decide)] at hzero
      exact (BitVec.toNat_setWidth_of_le (by decide)).trans hzero
    refine ⟨_, by simp only [opcodeSwitch, Width.divxu, execute, Cpu.divxuB, if_neg hne]; rfl, ?_⟩
    simp only [Width.full, Width.half, getReg, getReg16_setReg16,
      BitVec.toNat_setWidth_of_le (show 16 ≤ 32 by decide),
      BitVec.toNat_setWidth_of_le (show 8 ≤ 32 by decide)]
    exact toNat_pack_udiv _ _
  | W =>
    have hne : ¬ (getReg16 s.registers rs).setWidth 32 = 0 := fun h =>
      hdivisor (congrArg BitVec.toNat h)
    refine ⟨_, by simp only [opcodeSwitch, Width.divxu, execute, Cpu.divxuW, if_neg hne]; rfl, ?_⟩
    simp only [Width.full, Width.half, getReg, getReg32_setReg32,
      BitVec.toNat_setWidth_of_le (show 16 ≤ 32 by decide)]
    exact toNat_pack_udiv _ _

theorem opcodeSwitch_mulxu (s : Walker) (w : Width) (rs rd : BitVec 4) :
    ∃ t, s.opcodeSwitch (w.mulxu rs rd) = .ok t ∧
      (getReg t.registers w.full rd).toNat =
        (getReg s.registers w.full rd).toNat % w.base * (getReg s.registers w.half rs).toNat ∧
      (w.Apart rs rd → getReg t.registers w.half rs = getReg s.registers w.half rs) := by
  cases w with
  | B =>
    refine ⟨{ s with toCpu := s.mulxuB rs rd }, rfl, ?_, fun hapart => ?_⟩
    · simp only [Cpu.mulxuB, Width.full, Width.half, getReg, getReg16_setReg16,
        BitVec.toNat_setWidth_of_le (show 16 ≤ 32 by decide),
        BitVec.toNat_setWidth_of_le (show 8 ≤ 32 by decide)]
      exact toNat_mul_lower _ _ _ (BitVec.toNat_and _ _)
    · simp only [Cpu.mulxuB, Width.half, getReg, getReg8_setReg16_of_ne s.registers _ hapart]
  | W =>
    refine ⟨{ s with toCpu := s.mulxuW rs rd }, rfl, ?_, fun hapart => ?_⟩
    · simp only [Cpu.mulxuW, Width.full, Width.half, getReg, getReg32_setReg32,
        BitVec.toNat_setWidth_of_le (show 16 ≤ 32 by decide)]
      exact toNat_mul_lower _ _ _ (BitVec.toNat_and _ _)
    · simp only [Cpu.mulxuW, Width.half, getReg, getReg16_setReg32_of_ne s.registers _ hapart]

/-- A division of every dividend whose quotient fits leaves both parts, and it
undoes a multiplication by a register that is no part of the product's. -/
theorem divide_multiply :
    (∀ (s : Walker) (w : Width) (rs rd : BitVec 4), getReg s.registers w.half rs ≠ 0 →
      (getReg s.registers w.full rd).toNat / (getReg s.registers w.half rs).toNat < w.base →
        ∃ t, s.opcodeSwitch (w.divxu rs rd) = .ok t ∧
          Divided w (getReg s.registers w.full rd).toNat (getReg s.registers w.half rs).toNat
            (getReg t.registers w.full rd).toNat) ∧
    ∀ (s : Walker) (w : Width) (rs rd : BitVec 4), w.Apart rs rd →
      getReg s.registers w.half rs ≠ 0 →
        ∃ t u, s.opcodeSwitch (w.mulxu rs rd) = .ok t ∧ t.opcodeSwitch (w.divxu rs rd) = .ok u ∧
          (getReg u.registers w.full rd).toNat % w.base =
            (getReg s.registers w.full rd).toNat % w.base ∧
          (getReg u.registers w.full rd).toNat / w.base = 0 := by
  refine ⟨fun s w rs rd hne hfits => ?_, fun s w rs rd hapart hne => ?_⟩
  · obtain ⟨t, ht, hresult⟩ := opcodeSwitch_divxu s w rs rd hne
    have hpos := Nat.pos_of_ne_zero (mt toNat_eq_zero.mpr hne)
    exact ⟨t, ht, divided_of_eq w hpos (getReg_lt s.registers w.half rs) hfits hresult⟩
  · obtain ⟨t, ht, hproduct, hkeep⟩ := opcodeSwitch_mulxu s w rs rd
    have hpos := Nat.pos_of_ne_zero (mt toNat_eq_zero.mpr hne)
    rw [← hkeep hapart] at hne hpos hproduct
    obtain ⟨u, hu, hresult⟩ := opcodeSwitch_divxu t w rs rd hne
    have hlt : (getReg s.registers w.full rd).toNat % w.base < w.base :=
      Nat.mod_lt _ (modulus_pos w.half)
    rw [hproduct, Nat.mul_mod_left, Nat.mul_div_cancel _ hpos, Nat.zero_mod, Nat.zero_mul,
      Nat.zero_add, Nat.mod_mod] at hresult
    refine ⟨t, u, ht, hu, ?_, ?_⟩
    · rw [hresult, Nat.mod_mod]
    · rw [hresult]
      exact Nat.div_eq_of_lt hlt

/-- `DIVXU.B R0L,R0` with R0 = 0x0107, and `MULXU.B R1L,R0` with R1L = 7 before
`DIVXU.B R1L,R0`. -/
theorem divide_multiply_overlap :
    (∃ t, Walker.opcodeSwitch { registers := fun _ => 0x107 } (.divxuB 8 0) = .ok t ∧
      Divided .B 0x107 7 (getReg t.registers .w 0).toNat) ∧
    ∃ t u, Walker.opcodeSwitch { registers := fun _ => 0x107 } (.mulxuB 9 0) = .ok t ∧
      t.opcodeSwitch (.divxuB 9 0) = .ok u ∧ (getReg u.registers .w 0).toNat % 256 = 7 := by
  obtain ⟨hdivide, hmultiply⟩ := divide_multiply
  obtain ⟨t, u, ht, hu, hquotient, -⟩ :=
    hmultiply { registers := fun _ => 0x107 } .B 9 0 (.inl (by decide)) (by decide)
  exact ⟨hdivide { registers := fun _ => 0x107 } .B 8 0 (by decide) (by decide), t, u, ht, hu,
    hquotient⟩

end Walker

-- ---------------------------------------------------------------------------
-- Truncated division
-- ---------------------------------------------------------------------------

theorem tdiv_neg_iff {D d : Int} (hd : d ≠ 0) :
    D.tdiv d < 0 ↔ d.natAbs ≤ D.natAbs ∧ ¬ (D < 0 ↔ d < 0) := by
  rw [← Int.sign_neg_iff, Int.sign_tdiv]
  split
  · simp only [Int.lt_irrefl, false_iff]
    omega
  · rw [← Int.sign_mul, Int.sign_neg_iff, mul_neg_iff]
    omega

theorem tdiv_eq_zero_iff {D d : Int} (hd : d ≠ 0) : D.tdiv d = 0 ↔ D.natAbs < d.natAbs := by
  rw [← Int.natAbs_eq_zero, Int.natAbs_tdiv]
  exact Nat.div_eq_zero_iff_lt (Int.natAbs_pos.mpr hd)

theorem tmod_eq_neg_one_iff {D d : Int} (hd : d ≠ 0) :
    D.tmod d = -1 ↔ D < 0 ∧ 1 < d.natAbs ∧ d ∣ D + 1 := by
  have hdiv := Int.tmod_add_tdiv_mul D d
  have hlt : (D.tmod d).natAbs < d.natAbs := by
    rw [Int.natAbs_tmod]
    exact Nat.mod_lt _ (Int.natAbs_pos.mpr hd)
  constructor
  · intro h
    rw [h] at hdiv hlt
    refine ⟨?_, hlt, D.tdiv d, ?_⟩
    · by_contra hD
      have hnonneg := Int.tmod_nonneg d (Int.not_lt.mp hD)
      omega
    · rw [Int.mul_comm]
      omega
  · rintro ⟨hneg, habs, hdvd⟩
    have hle := Int.tmod_nonneg d (show 0 ≤ -D by omega)
    rw [Int.neg_tmod] at hle
    have hsum : d ∣ D.tmod d + 1 := by
      have heq : D.tmod d + 1 = D + 1 - D.tdiv d * d := by omega
      rw [heq]
      exact Int.dvd_sub hdvd (Int.dvd_mul_left _ _)
    have hzero := Int.eq_zero_of_dvd_of_natAbs_lt_natAbs hsum (by omega)
    omega

-- ---------------------------------------------------------------------------
-- DIVXS
-- ---------------------------------------------------------------------------

theorem pack_low (hn : n ≤ 32) (r q : BitVec n) :
    ((r.signExtend 32 <<< n) ||| q.signExtend 32).setWidth n = q := by
  apply BitVec.eq_of_getLsbD_eq
  intro i hi
  have hword := Nat.lt_of_lt_of_le hi hn
  simp [BitVec.getElem_signExtend, hi, hword]

theorem pack_high (hn : n + n ≤ 32) (r q : BitVec n) :
    (((r.signExtend 32 <<< n) ||| q.signExtend 32) >>> n).setWidth n =
      if q.msb then BitVec.allOnes n else r := by
  apply BitVec.eq_of_getLsbD_eq
  intro i hi
  have hword : n + i < 32 := by omega
  have hhalf : i < 32 := by omega
  have hnot : ¬ n + i < n := by omega
  cases hq : q.msb <;> simp [BitVec.getElem_signExtend, hi, hword, hhalf, hnot, hq]

theorem toInt_setWidth_of_le {v : BitVec 32} (hn : n ≤ 32) (hlow : -(2 ^ n : Nat) ≤ v.toInt * 2)
    (hhigh : v.toInt * 2 < (2 ^ n : Nat)) : (v.setWidth n).toInt = v.toInt := by
  rw [← BitVec.signExtend_eq_setWidth_of_le v hn, BitVec.toInt_signExtend_eq_toInt_bmod_of_le v hn]
  exact Int.bmod_eq_of_le_mul_two hlow hhigh

theorem toInt_pack (hpos : 0 < n) (hn : n + n ≤ 32) {dividend divisor : BitVec 32}
    (hD : dividend.toInt = D) (hd : divisor.toInt = d) (hne : d ≠ 0)
    (hint : dividend ≠ BitVec.intMin 32 ∨ divisor ≠ -1#32)
    (hlow : -(2 ^ n : Nat) ≤ 2 * D.tdiv d) (hhigh : 2 * D.tdiv d < (2 ^ n : Nat))
    (hdivisor : 2 * d.natAbs ≤ 2 ^ n)
    (hquotient : (dividend.sdiv divisor).setWidth n = quotient)
    (hremainder : (dividend.srem divisor).setWidth n = remainder)
    (hresult : (remainder.signExtend 32 <<< n) ||| quotient.signExtend 32 = result) :
    quotient.toInt = D.tdiv d ∧ (result.setWidth n).toInt = D.tdiv d ∧
      ((result >>> n).setWidth n).toInt = if D.tdiv d < 0 then -1 else D.tmod d := by
  have hword : n ≤ 32 := Nat.le_trans (Nat.le_add_right n n) hn
  have hdiv : quotient.toInt = D.tdiv d := by
    have hsdiv := BitVec.toInt_sdiv_of_ne_or_ne dividend divisor hint
    rw [hD, hd] at hsdiv
    rw [← hquotient, toInt_setWidth_of_le hword (by omega) (by omega), hsdiv]
  have hmod : remainder.toInt = D.tmod d := by
    have hsrem := BitVec.toInt_srem dividend divisor
    rw [hD, hd] at hsrem
    have hlt : (D.tmod d).natAbs < d.natAbs := by
      rw [Int.natAbs_tmod]
      exact Nat.mod_lt _ (Int.natAbs_pos.mpr hne)
    rw [← hremainder, toInt_setWidth_of_le hword (by omega) (by omega), hsrem]
  refine ⟨hdiv, ?_, ?_⟩
  · rw [← hresult, pack_low hword, hdiv]
  · rw [← hresult, pack_high hn, BitVec.msb_eq_toInt, hdiv]
    by_cases hneg : D.tdiv d < 0
    · simp [hneg, hpos]
    · simp [hneg, hmod]

/-- The numbers in the halves of a register, in two's complement. -/
def Width.low (w : Width) (result : BitVec 32) : Int := w.half.toInt result

def Width.high (w : Width) (result : BitVec 32) : Int :=
  w.half.toInt (result >>> w.half.numberOfBits)

/-- What DIVXS is to leave of a dividend and a divisor. -/
structure DividedSigned (w : Width) (dividend divisor : Int) (result : BitVec 32) (N : Bool) :
    Prop where
  value : dividend = w.low result * divisor + w.high result
  remainder : (w.high result).natAbs < divisor.natAbs
  sign : w.high result = 0 ∨ (w.high result).sign = dividend.sign
  N : N = decide (w.low result < 0)

/-- The dividends and divisors that DIVXS packs right: the two of one sign, or
a remainder of -1 below a negative quotient. `B` has N set for a zero quotient. -/
def Width.Packs (dividend divisor : Int) : Width → Prop
  | .B => divisor.natAbs ≤ dividend.natAbs ∧ (dividend < 0 ↔ divisor < 0) ∨
      dividend < 0 ∧ 1 < divisor ∧ divisor ≤ -dividend ∧ divisor ∣ dividend + 1
  | .W => dividend.natAbs < divisor.natAbs ∨ (dividend < 0 ↔ divisor < 0) ∨
      dividend < 0 ∧ 1 < divisor ∧ divisor ∣ dividend + 1

def Width.negative (quotient : Int) : Width → Bool
  | .B => decide (¬ 0 < quotient)
  | .W => decide (quotient < 0)

theorem dividedSigned_iff (w : Width) {result : BitVec 32} (hne : d ≠ 0)
    (hlow : w.low result = D.tdiv d)
    (hhigh : w.high result = if D.tdiv d < 0 then -1 else D.tmod d)
    (hN : N = w.negative (D.tdiv d)) :
    DividedSigned w D d result N ↔ w.Packs D d := by
  have hdiv := Int.tmod_add_tdiv_mul D d
  have hlt : (D.tmod d).natAbs < d.natAbs := by
    rw [Int.natAbs_tmod]
    exact Nat.mod_lt _ (Int.natAbs_pos.mpr hne)
  have hsign : D.tmod d = 0 ∨ (D.tmod d).sign = D.sign := by
    have h := Int.sign_tmod D d
    split at h
    · exact .inl (Int.sign_eq_zero_iff_zero.mp h)
    · exact .inr h
  have hneg := tdiv_neg_iff (D := D) hne
  have hmod := tmod_eq_neg_one_iff (D := D) hne
  have hzero : D.tdiv d = 0 ↔ D.natAbs < d.natAbs := tdiv_eq_zero_iff hne
  have hparts : DividedSigned w D d result N ↔
      (D.tdiv d < 0 → D.tmod d = -1) ∧ (w.negative (D.tdiv d) = decide (D.tdiv d < 0)) := by
    constructor
    · intro h
      refine ⟨fun hq => ?_, ?_⟩
      · have hvalue := h.value
        rw [hlow, hhigh, if_pos hq] at hvalue
        omega
      · rw [← hN, h.N, hlow]
    · rintro ⟨hq, hflag⟩
      have hhigh' : w.high result = D.tmod d := by
        rw [hhigh]
        split
        · exact (hq ‹_›).symm
        · rfl
      refine ⟨?_, ?_, ?_, ?_⟩
      · rw [hlow, hhigh']
        omega
      · rwa [hhigh']
      · rwa [hhigh']
      · rw [hN, hflag, hlow]
  rw [hparts]
  -- what is left is about the signs and sizes
  clear hdiv hlow hhigh hN hparts
  generalize D.tdiv d = quotient at hneg hzero
  by_cases hdvd : d ∣ D + 1
  · simp only [hdvd, and_true] at hmod
    cases w <;> simp only [Width.negative, Width.Packs, decide_eq_decide, hdvd, and_true] <;> omega
  · simp only [hdvd, and_false, iff_false] at hmod
    cases w <;>
      simp only [Width.negative, Width.Packs, decide_eq_decide, hdvd, hmod, imp_false, and_false,
        or_false, and_true] <;>
      omega

theorem toInt_getReg_b (registers : Registers) (operand : BitVec 4) :
    Size.b.toInt (getReg registers .b operand) = (getReg8 registers operand).toInt := by
  simp [Size.toInt, Size.numberOfBits, getReg]

theorem toInt_getReg_w (registers : Registers) (operand : BitVec 4) :
    Size.w.toInt (getReg registers .w operand) = (getReg16 registers operand).toInt := by
  simp [Size.toInt, Size.numberOfBits, getReg]

theorem toInt_getReg_l (registers : Registers) (operand : BitVec 4) :
    Size.l.toInt (getReg registers .l operand) = (getReg32 registers operand).toInt := by
  simp [Size.toInt, Size.numberOfBits, getReg]

theorem low_setReg16 (registers : Registers) (rd : BitVec 4) (v : BitVec 32) :
    Width.B.low (getReg (setReg16 registers rd (v.setWidth 16)) .w rd) = (v.setWidth 8).toInt := by
  simp [Width.low, Width.half, Size.toInt, Size.numberOfBits, getReg, getReg16_setReg16]

theorem high_setReg16 (registers : Registers) (rd : BitVec 4) (v : BitVec 32) :
    Width.B.high (getReg (setReg16 registers rd (v.setWidth 16)) .w rd) =
      ((v >>> 8).setWidth 8).toInt := by
  simp only [Width.high, Width.half, Size.toInt, Size.numberOfBits, getReg, getReg16_setReg16]
  congr 1
  apply BitVec.eq_of_getLsbD_eq
  intro i hi
  have hword : 8 + i < 16 := by omega
  have hlt : 8 + i < 32 := by omega
  simp [hi, hword, hlt]

theorem low_setReg32 (registers : Registers) (rd : BitVec 4) (v : BitVec 32) :
    Width.W.low (getReg (setReg32 registers rd v) .l rd) = (v.setWidth 16).toInt := by
  simp [Width.low, Width.half, Size.toInt, Size.numberOfBits, getReg, getReg32_setReg32]

theorem high_setReg32 (registers : Registers) (rd : BitVec 4) (v : BitVec 32) :
    Width.W.high (getReg (setReg32 registers rd v) .l rd) = ((v >>> 16).setWidth 16).toInt := by
  simp [Width.high, Width.half, Size.toInt, Size.numberOfBits, getReg, getReg32_setReg32]

theorem slt_zero_eq {quotient : Byte} (hquotient : quotient.toInt = q) :
    (!BitVec.slt 0 quotient) = Width.B.negative q := by
  rw [BitVec.slt_eq_decide, ← decide_not]
  exact decide_eq_decide.mpr (by rw [hquotient]; exact Iff.rfl)

theorem sign_bit_eq {quotient : BitVec 16} (hquotient : quotient.toInt = q) :
    (quotient.signExtend 32 &&& 0x80000000 != 0) = Width.W.negative q := by
  have hmsb : Size.l.sign (quotient.signExtend 32) = quotient.msb := by
    simp [Size.sign, Size.numberOfBits, BitVec.getElem_signExtend]
  rw [BitVec.msb_eq_toInt, hquotient] at hmsb
  exact (and_negativeFlag .l _).trans hmsb

theorem extended_divisor {divisor : BitVec n} (hn : n ≤ 32) (hd : divisor.toInt = d)
    (hne : d ≠ 0) :
    (divisor.signExtend 32).toInt = d ∧ ¬ divisor.signExtend 32 = 0 ∧ 2 * d.natAbs ≤ 2 ^ n := by
  have hextended : (divisor.signExtend 32).toInt = d := (BitVec.toInt_signExtend_of_le hn).trans hd
  refine ⟨hextended, fun hzero => hne ?_, ?_⟩
  · rw [← hextended, hzero]
    rfl
  · have hlow := BitVec.le_two_mul_toInt (x := divisor)
    have hhigh := BitVec.two_mul_toInt_lt (x := divisor)
    have hcast : ((2 ^ n : Nat) : Int) = (2 : Int) ^ n := Int.natCast_pow 2 n
    rw [hd] at hlow hhigh
    omega

namespace Walker

theorem opcodeSwitch_divxs (s : Walker) (w : Width) (rs rd : BitVec 4)
    (hD : w.full.toInt (getReg s.registers w.full rd) = D)
    (hd : w.half.toInt (getReg s.registers w.half rs) = d) (hne : d ≠ 0)
    (hfits : w.half.InRange (D.tdiv d)) :
    ∃ t, s.opcodeSwitch (w.divxs rs rd) = .ok t ∧
      w.low (getReg t.registers w.full rd) = D.tdiv d ∧
      w.high (getReg t.registers w.full rd) = (if D.tdiv d < 0 then -1 else D.tmod d) ∧
      t.flags.N = w.negative (D.tdiv d) := by
  obtain ⟨hlow, hhigh⟩ := hfits
  cases w with
  | B =>
    simp only [Width.full, Width.half, toInt_getReg_w, toInt_getReg_b] at hD hd
    have hdividend : ((getReg16 s.registers rd).signExtend 32).toInt = D :=
      (BitVec.toInt_signExtend_of_le (by decide)).trans hD
    obtain ⟨hdivisor, hzero, hsmall⟩ := extended_divisor (by decide) hd hne
    have hword := BitVec.le_toInt (getReg16 s.registers rd)
    rw [hD] at hword
    obtain ⟨hquotient, hlow, hhigh⟩ := toInt_pack (n := 8) (by decide) (by decide) hdividend
      hdivisor hne (.inl fun h => by
        rw [h] at hdividend
        have hint : (BitVec.intMin 32).toInt = -2147483648 := by decide
        omega) hlow hhigh hsmall rfl rfl rfl
    refine ⟨_, by
      simp only [opcodeSwitch, Width.divxs, execute, Cpu.divxsB, if_neg hzero]
      rfl, ?_, ?_, ?_⟩
    · exact (low_setReg16 s.registers rd _).trans hlow
    · exact (high_setReg16 s.registers rd _).trans hhigh
    · exact slt_zero_eq hquotient
  | W =>
    simp only [Width.full, Width.half, toInt_getReg_l, toInt_getReg_w] at hD hd
    obtain ⟨hdivisor, hzero, hsmall⟩ := extended_divisor (by decide) hd hne
    have hover : ¬ (getReg32 s.registers rd = 0x80000000 ∧
        (getReg16 s.registers rs).signExtend 32 = -1) := by
      rintro ⟨hint, hminus⟩
      rw [← hD, ← hdivisor, hint, hminus] at hhigh
      exact absurd hhigh (by decide)
    obtain ⟨hquotient, hlow, hhigh⟩ := toInt_pack (n := 16) (by decide) (by decide) hD
      hdivisor hne (not_and_or.mp hover) hlow hhigh hsmall rfl rfl rfl
    refine ⟨_, by
      simp only [opcodeSwitch, Width.divxs, execute, Cpu.divxsW, if_neg hzero, if_neg hover]
      rfl, ?_, ?_, ?_⟩
    · exact (low_setReg32 s.registers rd _).trans hlow
    · exact (high_setReg32 s.registers rd _).trans hhigh
    · exact sign_bit_eq hquotient

/-- A signed division leaves both parts and their sign exactly on the dividends
and divisors it packs right. -/
theorem divide_signed_iff (s : Walker) (w : Width) (rs rd : BitVec 4)
    (hne : w.half.toInt (getReg s.registers w.half rs) ≠ 0)
    (hfits : w.half.InRange ((w.full.toInt (getReg s.registers w.full rd)).tdiv
      (w.half.toInt (getReg s.registers w.half rs)))) :
    ∃ t, s.opcodeSwitch (w.divxs rs rd) = .ok t ∧
      (DividedSigned w (w.full.toInt (getReg s.registers w.full rd))
          (w.half.toInt (getReg s.registers w.half rs)) (getReg t.registers w.full rd) t.flags.N ↔
        w.Packs (w.full.toInt (getReg s.registers w.full rd))
          (w.half.toInt (getReg s.registers w.half rs))) := by
  obtain ⟨t, ht, hlow, hhigh, hN⟩ := opcodeSwitch_divxs s w rs rd rfl rfl hne hfits
  exact ⟨t, ht, dividedSigned_iff w hne hlow hhigh hN⟩

/-- `DIVXS.B R1L,R0` with R0 = -7 and R1L = -2. -/
theorem divide_signed_iff_negative :
    ∃ t, Walker.opcodeSwitch { registers := fun r => if r = 0 then 0xfff9 else 0xfe }
        (.divxsB 9 0) = .ok t ∧
      DividedSigned .B (-7) (-2) (getReg t.registers .w 0) t.flags.N := by
  obtain ⟨t, ht, hpacks⟩ := divide_signed_iff
    { registers := fun r => if r = 0 then 0xfff9 else 0xfe } .B 9 0 (by decide) (by decide)
  exact ⟨t, ht, hpacks.mpr (.inl (by decide))⟩

/-- `DIVXS.B R1L,R0` with R0 = -8 and R1L = 2: the quotient is -4, and the high
half holds -1 for the remainder 0. -/
theorem quotient_covers_remainder : ¬ ∀ (s : Walker) (w : Width) (rs rd : BitVec 4),
    w.half.toInt (getReg s.registers w.half rs) ≠ 0 →
      w.half.InRange ((w.full.toInt (getReg s.registers w.full rd)).tdiv
        (w.half.toInt (getReg s.registers w.half rs))) →
      ∃ t, s.opcodeSwitch (w.divxs rs rd) = .ok t ∧
        DividedSigned w (w.full.toInt (getReg s.registers w.full rd))
          (w.half.toInt (getReg s.registers w.half rs)) (getReg t.registers w.full rd)
          t.flags.N := by
  intro claim
  obtain ⟨t, ht, h⟩ := claim { registers := fun r => if r = 0 then 0xfff8 else 2 } .B 9 0
    (by decide) (by decide)
  cases ht
  exact absurd h.value (by decide)

end Walker

end PokeStroller
