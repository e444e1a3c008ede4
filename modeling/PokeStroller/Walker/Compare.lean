import Mathlib.Algebra.Order.Ring.Int
import PokeStroller.Walker.Phase

/-!
# Compare and branch

CMP leaves the order of its operands in the flags, and the conditions of Bcc
read it back: C and Z for unsigned operands, N, V and Z for signed ones.
-/

namespace PokeStroller

-- ---------------------------------------------------------------------------
-- Flags
-- ---------------------------------------------------------------------------

def Size.sign (sz : Size) (v : BitVec 32) : Bool := v.getLsbD (sz.numberOfBits - 1)

def Size.toInt (sz : Size) (v : BitVec 32) : Int := (v.setWidth sz.numberOfBits).toInt

theorem and_negativeFlag (sz : Size) (v : BitVec 32) :
    (v &&& sz.negativeFlag != 0) = sz.sign v := by
  have hbit : sz.negativeFlag = BitVec.twoPow 32 (sz.numberOfBits - 1) := by
    cases sz <;> rfl
  have hne : BitVec.twoPow 32 (sz.numberOfBits - 1) ≠ 0 := by
    cases sz <;> decide
  rw [hbit, BitVec.and_twoPow]
  unfold Size.sign
  cases v.getLsbD (sz.numberOfBits - 1) with
  | true => simpa using hne
  | false => rfl

theorem truncate_and_negativeFlag (sz : Size) (v : BitVec 32) :
    sz.truncate v &&& sz.negativeFlag = v &&& sz.negativeFlag := by
  cases sz with
  | b => exact BitVec.and_assoc _ _ _
  | w => exact BitVec.and_assoc _ _ _
  | l => rfl

theorem sign_xor (sz : Size) (v w : BitVec 32) : sz.sign (v ^^^ w) = (sz.sign v ^^ sz.sign w) :=
  BitVec.getLsbD_xor

theorem sign_not (sz : Size) (v : BitVec 32) : sz.sign (~~~v) = !sz.sign v := by
  have hbit : sz.numberOfBits - 1 < 32 := by cases sz <;> decide
  unfold Size.sign
  rw [BitVec.getLsbD_not]
  simp [hbit]

theorem sign_iff (sz : Size) (v : BitVec 32) :
    sz.sign v = true ↔ sz.modulus ≤ 2 * (v.toNat % sz.modulus) := by
  have hv := v.isLt
  unfold Size.sign
  rw [BitVec.getLsbD, Nat.testBit_eq_decide_div_mod_eq, decide_eq_true_iff]
  cases sz with
  | b => change v.toNat / 128 % 2 = 1 ↔ 256 ≤ 2 * (v.toNat % 256); omega
  | w => change v.toNat / 32768 % 2 = 1 ↔ 65536 ≤ 2 * (v.toNat % 65536); omega
  | l => change v.toNat / 2147483648 % 2 = 1 ↔ 4294967296 ≤ 2 * (v.toNat % 4294967296); omega

variable {sz : Size} {d v : BitVec 32}

theorem toInt_cond (hv : v.toNat < sz.modulus) :
    sz.toInt v = if 2 * v.toNat < sz.modulus then (v.toNat : Int) else v.toNat - sz.modulus := by
  have hcond := BitVec.toInt_eq_toNat_cond (v.setWidth sz.numberOfBits)
  have hnat : (v.setWidth sz.numberOfBits).toNat = v.toNat := by
    rw [BitVec.toNat_setWidth]
    cases sz <;> exact Nat.mod_eq_of_lt hv
  rw [hnat] at hcond
  cases sz <;> exact hcond

theorem toInt_eq (hv : v.toNat < sz.modulus) :
    sz.toInt v = if sz.sign v then (v.toNat : Int) - sz.modulus else v.toNat := by
  have hsign := sign_iff sz v
  rw [Nat.mod_eq_of_lt hv] at hsign
  rw [toInt_cond hv]
  by_cases h : sz.modulus ≤ 2 * v.toNat
  · rw [if_neg (Nat.not_lt.mpr h), if_pos (hsign.mpr h)]
  · rw [if_pos (Nat.lt_of_not_le h), if_neg (fun hs => h (hsign.mp hs))]

theorem toNat_sub_mod (hd : d.toNat < sz.modulus) (hv : v.toNat < sz.modulus) :
    (d - v).toNat % sz.modulus =
      if d.toNat < v.toNat then d.toNat + sz.modulus - v.toNat else d.toNat - v.toNat := by
  rw [BitVec.toNat_sub]
  cases sz <;> simp only [Size.modulus] at hd hv ⊢ <;> split <;> omega

theorem sign_iff_of_lt (hd : d.toNat < sz.modulus) :
    sz.sign d = true ↔ sz.modulus ≤ 2 * d.toNat := by
  rw [sign_iff, Nat.mod_eq_of_lt hd]

theorem sign_sub_iff (hd : d.toNat < sz.modulus) (hv : v.toNat < sz.modulus)
    (hsame : sz.sign d = sz.sign v) : sz.sign (d - v) = true ↔ d.toNat < v.toNat := by
  have hhalf : sz.modulus ≤ 2 * d.toNat ↔ sz.modulus ≤ 2 * v.toNat := by
    rw [← sign_iff_of_lt hd, ← sign_iff_of_lt hv, hsame]
  rw [sign_iff, toNat_sub_mod hd hv]
  by_cases hless : d.toNat < v.toNat
  · rw [if_pos hless]
    omega
  · rw [if_neg hless]
    omega

theorem toInt_lt_iff (hd : d.toNat < sz.modulus) (hv : v.toNat < sz.modulus) :
    sz.toInt d < sz.toInt v ↔
      (if sz.sign d = sz.sign v then sz.sign (d - v) else sz.sign d) = true := by
  rw [toInt_eq hd, toInt_eq hv]
  by_cases hsame : sz.sign d = sz.sign v
  · rw [if_pos hsame, sign_sub_iff hd hv hsame, hsame]
    split <;> omega
  · rw [if_neg hsame]
    cases hcd : sz.sign d with
    | true =>
      have hcv : sz.sign v = false := by simpa [hcd] using hsame
      rw [hcv, if_pos rfl, if_neg nofun]
      exact iff_of_true (by omega) rfl
    | false =>
      have hcv : sz.sign v = true := by simpa [hcd] using hsame
      rw [hcv, if_pos rfl, if_neg nofun]
      exact iff_of_false (by omega) nofun

theorem setFlagsSUB_order (flags : Flags) (hd : d.toNat < sz.modulus) (hv : v.toNat < sz.modulus) :
    let f := setFlagsSUB flags d v sz
    f.C = decide (d < v) ∧ f.Z = decide (d = v) ∧
      (f.N ^^ f.V) = decide (sz.toInt d < sz.toInt v) := by
  refine ⟨rfl, ?_, ?_⟩
  · have hzero : d - v = 0#32 ↔ d = v := by
      refine ⟨fun h => ?_, fun h => by rw [h, BitVec.sub_self]⟩
      bv_omega
    simp [setFlagsSUB, hzero, Bool.beq_eq_decide_eq]
  · have hlt : decide (sz.toInt d < sz.toInt v) =
        if sz.sign d = sz.sign v then sz.sign (d - v) else sz.sign d := by
      rw [Bool.eq_iff_iff, decide_eq_true_iff]
      exact toInt_lt_iff hd hv
    rw [hlt]
    simp only [setFlagsSUB, truncate_and_negativeFlag, and_negativeFlag, sign_xor, sign_not]
    cases sz.sign d <;> cases sz.sign v <;> cases sz.sign (d - v) <;> rfl

-- ---------------------------------------------------------------------------
-- Branches
-- ---------------------------------------------------------------------------

inductive Comparison
  | BHI
  | BLS
  | BCC
  | BCS
  | BNE
  | BEQ
  | BGE
  | BLT
  | BGT
  | BLE
  deriving DecidableEq, Repr

namespace Comparison

def cc : Comparison → BitVec 4
  | BHI => 0x2
  | BLS => 0x3
  | BCC => 0x4
  | BCS => 0x5
  | BNE => 0x6
  | BEQ => 0x7
  | BGE => 0xc
  | BLT => 0xd
  | BGT => 0xe
  | BLE => 0xf

/-- What it says of the operands `d` and `s` of a preceding CMP. -/
def Holds (sz : Size) (d s : BitVec 32) : Comparison → Prop
  | BHI => s < d
  | BLS => d ≤ s
  | BCC => s ≤ d
  | BCS => d < s
  | BNE => d ≠ s
  | BEQ => d = s
  | BGE => sz.toInt s ≤ sz.toInt d
  | BLT => sz.toInt d < sz.toInt s
  | BGT => sz.toInt s < sz.toInt d
  | BLE => sz.toInt d ≤ sz.toInt s

instance (sz : Size) (d s : BitVec 32) (c : Comparison) : Decidable (c.Holds sz d s) := by
  cases c <;> unfold Holds <;> infer_instance

end Comparison

theorem condition16_eq (cc : BitVec 4) (f : Flags) : Cpu.condition16 cc f = Cpu.condition8 cc f := rfl

theorem toInt_inj (hd : d.toNat < sz.modulus) (hv : v.toNat < sz.modulus) :
    sz.toInt d = sz.toInt v ↔ d = v := by
  refine ⟨fun h => ?_, fun h => h ▸ rfl⟩
  have hsd := sign_iff_of_lt hd
  have hsv := sign_iff_of_lt hv
  rw [toInt_eq hd, toInt_eq hv] at h
  refine BitVec.eq_of_toNat_eq ?_
  split at h <;> split at h <;> omega

theorem condition8_setFlagsSUB (flags : Flags) (c : Comparison) (hd : d.toNat < sz.modulus)
    (hv : v.toNat < sz.modulus) :
    Cpu.condition8 c.cc (setFlagsSUB flags d v sz) = decide (c.Holds sz d v) := by
  obtain ⟨hC, hZ, hNV⟩ := setFlagsSUB_order flags hd hv
  have heq := toInt_inj hd hv
  generalize setFlagsSUB flags d v sz = f at hC hZ hNV
  cases c with
  | BHI =>
    change (!(f.C || f.Z)) = decide (v < d)
    rw [hC, hZ, ← Bool.decide_or, ← decide_not, decide_eq_decide]
    bv_omega
  | BLS =>
    change (f.C || f.Z) = decide (d ≤ v)
    rw [hC, hZ, ← Bool.decide_or, decide_eq_decide]
    bv_omega
  | BCC =>
    change (!f.C) = decide (v ≤ d)
    rw [hC, ← decide_not, decide_eq_decide]
    bv_omega
  | BCS => exact hC
  | BNE =>
    change (!f.Z) = decide (d ≠ v)
    rw [hZ, ← decide_not]
  | BEQ => exact hZ
  | BGE =>
    change (!(f.N ^^ f.V)) = decide (sz.toInt v ≤ sz.toInt d)
    rw [hNV, ← decide_not, decide_eq_decide]
    exact Int.not_lt
  | BLT => exact hNV
  | BGT =>
    change (!(f.Z || (f.N ^^ f.V))) = decide (sz.toInt v < sz.toInt d)
    rw [hZ, hNV, ← Bool.decide_or, ← decide_not, decide_eq_decide, ← heq]
    omega
  | BLE =>
    change (f.Z || (f.N ^^ f.V)) = decide (sz.toInt d ≤ sz.toInt v)
    rw [hZ, hNV, ← Bool.decide_or, decide_eq_decide, ← heq]
    omega

-- ---------------------------------------------------------------------------
-- Two instructions
-- ---------------------------------------------------------------------------

inductive Displacement
  | d8 (disp : Byte)
  | d16 (disp : BitVec 16)
  deriving DecidableEq, Repr

namespace Displacement

def bcc (cc : BitVec 4) : Displacement → Instr
  | d8 disp => .bcc8 cc disp
  | d16 disp => .bcc16 cc disp

def next (pc : BitVec 16) : Displacement → BitVec 16
  | d8 _ => pc + 2
  | d16 _ => pc + 4

def target (pc : BitVec 16) : Displacement → BitVec 16
  | d8 disp => pc + 2 + disp.signExtend 16
  | d16 disp => pc + 4 + disp

end Displacement

theorem execute_bcc (saved : BitVec 16) (savedFlags : Flags) (s : Cpu) {cc : BitVec 4}
    (hcc : cc ≠ 1) (disp : Displacement) :
    ∃ cpu, execute saved savedFlags s (disp.bcc cc) = .ok cpu ∧
      cpu.addPc 2 = { s with
        pc := if Cpu.condition8 cc s.flags then disp.target s.pc else disp.next s.pc } := by
  cases disp with
  | d8 disp =>
    refine ⟨_, rfl, ?_⟩
    unfold Cpu.bcc8 Cpu.addPc
    by_cases hcond : Cpu.condition8 cc s.flags
    · rw [if_pos hcond, if_pos hcond]
      simp only [Displacement.target]
      congr 1
      bv_omega
    · rw [if_neg hcond, if_neg hcond]
      rfl
  | d16 disp =>
    refine ⟨_, rfl, ?_⟩
    unfold Cpu.bcc16 Cpu.addPc
    rw [if_neg hcc, condition16_eq]
    by_cases hcond : Cpu.condition8 cc s.flags
    · rw [if_pos hcond, if_pos hcond]
      simp only [Displacement.target]
      congr 1
      bv_omega
    · rw [if_neg hcond, if_neg hcond]
      simp only [Displacement.next]
      congr 1
      bv_omega

theorem Comparison.cc_ne (c : Comparison) : c.cc ≠ 1 := by cases c <;> decide

theorem getReg_lt (registers : Registers) (sz : Size) (r : BitVec 4) :
    (getReg registers sz r).toNat < sz.modulus := by
  cases sz with
  | b =>
    change ((getReg8 registers r).setWidth 32).toNat < 256
    rw [BitVec.toNat_setWidth_of_le (by decide)]
    exact BitVec.isLt _
  | w =>
    change ((getReg16 registers r).setWidth 32).toNat < 65536
    rw [BitVec.toNat_setWidth_of_le (by decide)]
    exact BitVec.isLt _
  | l => exact BitVec.isLt _

theorem setWidth_setWidth_of_lt {v : BitVec m} (h : v.toNat < 2 ^ n) :
    (v.setWidth n).setWidth m = v := by
  apply BitVec.eq_of_toNat_eq
  rw [BitVec.toNat_setWidth, BitVec.toNat_setWidth, Nat.mod_eq_of_lt h, Nat.mod_eq_of_lt v.isLt]

theorem value_lt (registers : Registers) {src : Source} (h : (Instr.cmp sz src rd).Fits) :
    (src.value registers sz).toNat < sz.modulus := by
  cases src with
  | reg rs => exact getReg_lt registers sz rs
  | imm v => exact h

namespace Walker

/-- A CMP of any size with a register or an immediate operand, and a Bcc with
an 8-bit or 16-bit displacement after it. -/
theorem compare_branch (s : Walker) (sz : Size) (src : Source) (rd : BitVec 4) (c : Comparison)
    (disp : Displacement) (hpc : HookFree s.pc) (hcmp : s.fetch = .cmp sz src rd)
    (hnext : HookFree (s.pc + 2 + Cpu.immediatePc sz src))
    (hbcc : Walker.fetch { s with pc := s.pc + 2 + Cpu.immediatePc sz src } = disp.bcc c.cc) :
    let pc := s.pc + 2 + Cpu.immediatePc sz src
    ∃ t u, s.instructionPhase = .ok t ∧ t.instructionPhase = .ok u ∧ t.pc = pc ∧
      u.pc = (if c.Holds sz (getReg s.registers sz rd) (src.value s.registers sz)
        then disp.target pc else disp.next pc) ∧
      t.registers = s.registers ∧ u.registers = s.registers := by
  intro pc
  have hfits : (Instr.cmp sz src rd).Fits := hcmp ▸ decode_fits _ _ _
  have hexec : execute s.interruptSavedAddress s.interruptSavedFlags s.toCpu s.fetch =
      .ok (s.toCpu.cmp sz src rd) := by
    rw [hcmp]
    rfl
  obtain ⟨t, ht, hcpu⟩ := instructionPhase_of_execute hpc hexec
  have htpc : t.pc = pc := by
    rw [hcpu]
    change s.pc + _ + 2 = s.pc + 2 + _
    bv_omega
  have htmemory : t.memory = s.memory := by rw [hcpu]; rfl
  have htflags : t.flags = setFlagsSUB s.flags (getReg s.registers sz rd)
      (src.value s.registers sz) sz := by rw [hcpu]; rfl
  have hfetch : t.fetch = disp.bcc c.cc := by
    rw [← hbcc]
    unfold fetch
    rw [htmemory, htpc]
  obtain ⟨cpu, hexec, hbranch⟩ := execute_bcc t.interruptSavedAddress t.interruptSavedFlags
    t.toCpu c.cc_ne disp
  obtain ⟨u, hu, hucpu⟩ := instructionPhase_of_execute (by rwa [htpc]) (by
    rw [hfetch]
    exact hexec)
  have htregs : t.registers = s.registers := by rw [hcpu]; rfl
  refine ⟨t, u, ht, hu, htpc, ?_, htregs, ?_⟩
  · rw [hucpu, hbranch, htpc, htflags,
      condition8_setFlagsSUB s.flags c (getReg_lt s.registers sz rd) (value_lt s.registers hfits)]
    simp only [decide_eq_true_iff]
  · rw [hucpu, hbranch]
    exact htregs

/-- `CMP.B #5,R0L` and `BLT` 16 bytes ahead, with R0L = -1. -/
theorem compare_branch_lt :
    let s : Walker :=
      { pc := 0x100, registers := fun _ => 0xff
        memory := fun a =>
          if a = 0x100 then 0xa8 else if a = 0x101 then 0x05
          else if a = 0x102 then 0x4d else if a = 0x103 then 0x10 else 0 }
    ∃ t u, s.instructionPhase = .ok t ∧ t.instructionPhase = .ok u ∧ u.pc = 0x114 ∧
      u.registers = s.registers := by
  intro s
  obtain ⟨t, u, ht, hu, -, hpc, -, hregs⟩ := compare_branch s .b (.imm 5) 8 .BLT (.d8 0x10)
    (by decide) (by decide) (by decide) (by decide)
  exact ⟨t, u, ht, hu, hpc.trans (by decide), hregs⟩

end Walker

end PokeStroller
