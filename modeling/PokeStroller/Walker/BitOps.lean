import PokeStroller.Lib.Bits
import PokeStroller.Walker.Phase

/-!
# Bit instructions

What BSET, BCLR, BNOT, BST, BTST and BLD are to do with one bit of a byte, and
the operands on which they do it. Register bit numbers are not taken mod 8, no
inverted encoding is recognised, BST takes a register byte for an address, and
BNOT tests the bit number instead of the bit.
-/

namespace PokeStroller

inductive BitOperand
  | imm (n : BitVec 3)
  | reg (rn : BitVec 4)
  deriving DecidableEq, Repr

namespace BitOperand

def source : BitOperand → BitNumber
  | imm n => .imm (n.setWidth 4)
  | reg rn => .reg rn

def number (s : Cpu) : BitOperand → Nat
  | imm n => n.toNat
  | reg rn => (getReg8 s.registers rn).toNat % 8

end BitOperand

def encodedBit (bit : BitVec 4) : Nat := bit.toNat % 8

/-- The bit instructions that are not left out. BST and BNOT have one form each
beside `BST Rd`. -/
inductive BitOp
  | BSET (bit : BitOperand) (target : BitTarget)
  | BCLR (bit : BitOperand) (target : BitTarget)
  | BNOT (n : BitVec 3) (rd : BitVec 4)
  | BSTReg (bit rd : BitVec 4)
  | BSTInd (bit rd : BitVec 4)
  | BTST (n : BitVec 3) (rd : BitVec 4)
  | BLD (bit : BitVec 4) (target : BitTarget)
  deriving DecidableEq, Repr

namespace Cpu

def targetBit (s : Cpu) (target : BitTarget) (n : Nat) : Bool := (s.getBitTarget target).getLsbD n

def replaceBit (s : Cpu) (target : BitTarget) (n : Nat) (b : Bool) : Cpu :=
  s.setBitTarget target (withBit (s.getBitTarget target) n b)

end Cpu

namespace BitOp

def instr : BitOp → Instr
  | BSET bit target => .bset bit.source target
  | BCLR bit target => .bclr bit.source target
  | BNOT n rd => .bnotInd (n.setWidth 4) rd
  | BSTReg bit rd => .bstReg bit rd
  | BSTInd bit rd => .bstInd bit rd
  | BTST n rd => .btst (n.setWidth 4) rd
  | BLD bit target => .bld bit target

def intended (s : Cpu) : BitOp → Cpu
  | BSET bit target => s.replaceBit target (bit.number s) true
  | BCLR bit target => s.replaceBit target (bit.number s) false
  | BNOT n rd => s.replaceBit (.ind rd) n.toNat (!s.targetBit (.ind rd) n.toNat)
  | BSTReg bit rd => s.replaceBit (.reg rd) (encodedBit bit) (s.flags.C ^^ regHigh bit)
  | BSTInd bit rd => s.replaceBit (.ind rd) (encodedBit bit) (s.flags.C ^^ regHigh bit)
  | BTST n rd => { s with flags := { s.flags with Z := !s.targetBit (.reg rd) n.toNat } }
  | BLD bit target =>
    { s with flags := { s.flags with
        C := s.targetBit target (encodedBit bit) ^^ regHigh bit } }.addPc
      (match target with
        | .reg _ => 0
        | _ => 2)

/-- The operands on which the instruction does it. -/
def Meets (s : Cpu) : BitOp → Prop
  | BSET (.imm _) _ | BCLR (.imm _) _ | BTST _ _ => True
  | BSET (.reg rn) target =>
    let n := (getReg8 s.registers rn).toNat
    n < 8 ∨ n < 32 ∧ s.targetBit target (n % 8) = true
  | BCLR (.reg rn) target =>
    let n := (getReg8 s.registers rn).toNat
    n < 8 ∨ n < 32 ∧ s.targetBit target (n % 8) = false
  | BNOT n rd =>
    s.targetBit (.ind rd) n.toNat = ((s.getBitTarget (.ind rd)).setWidth 32 &&& n.setWidth 32 != 0#32)
  | BSTReg bit rd =>
    s.targetBit (.reg rd) (encodedBit bit) = (s.flags.C ^^ regHigh bit) ∧
      (regHigh bit = false →
        (getMemory8 s.memory ((getReg8 s.registers rd).setWidth 32)).getLsbD (encodedBit bit) =
          s.flags.C)
  | BSTInd bit rd =>
    regHigh bit = true → s.targetBit (.ind rd) (encodedBit bit) = !s.flags.C
  | BLD bit target => regHigh bit = true → s.targetBit target (encodedBit bit) = true

end BitOp

-- ---------------------------------------------------------------------------
-- Masks
-- ---------------------------------------------------------------------------

theorem bitMask_eq (n : Nat) : Cpu.bitMask n = BitVec.twoPow 8 n := by
  rw [Cpu.bitMask, BitVec.setWidth_shiftLeft_of_le (by decide), BitVec.twoPow_eq]
  rfl

theorem or_bitMask (v : Byte) (n : Nat) : v ||| Cpu.bitMask n = withBit v n true := by
  rw [bitMask_eq]
  rfl

theorem and_bitMask (v : Byte) (n : Nat) : v &&& ~~~Cpu.bitMask n = withBit v n false := by
  rw [bitMask_eq]
  rfl

theorem test_bitMask (v : Byte) (n : Nat) : (v &&& Cpu.bitMask n != 0) = v.getLsbD n := by
  rw [bitMask_eq, BitVec.and_twoPow]
  by_cases hn : n < 8
  · have hne : BitVec.twoPow 8 n ≠ 0#8 := by
      intro h
      have hbit := congrArg (BitVec.getLsbD · n) h
      simp [hn] at hbit
    cases v.getLsbD n with
    | true => simpa using hne
    | false => rfl
  · rw [BitVec.getLsbD_of_ge v n (by omega)]
    rfl

theorem regHigh_iff (bit : BitVec 4) : regHigh bit = true ↔ 8 ≤ bit.toNat := by
  revert bit
  decide

-- ---------------------------------------------------------------------------
-- Targets
-- ---------------------------------------------------------------------------

theorem setReg8_getReg8 (registers : Registers) (rd : BitVec 4) :
    setReg8 registers rd (getReg8 registers rd) = registers := by
  unfold setReg8 getReg8
  rw [Function.update_eq_self_iff]
  apply BitVec.eq_of_getLsbD_eq
  intro i hi
  split
  · rw [BitVec.getLsbD_append, BitVec.getLsbD_extractLsb', BitVec.getLsbD_extractLsb']
    grind
  · rw [BitVec.getLsbD_append, BitVec.getLsbD_append, BitVec.getLsbD_extractLsb',
      BitVec.getLsbD_extractLsb', BitVec.getLsbD_extractLsb']
    grind

theorem setReg8_eq_self_iff (registers : Registers) (rd : BitVec 4) (v : Byte) :
    setReg8 registers rd v = registers ↔ v = getReg8 registers rd := by
  constructor
  · intro h
    rw [← getReg8_setReg8 registers rd v, h]
  · rintro rfl
    exact setReg8_getReg8 registers rd

theorem setMemory8_eq_self_iff (m : Memory) (address : BitVec 32) (v : Byte) :
    setMemory8 m address v = m ↔ v = getMemory8 m address :=
  Function.update_eq_self_iff

namespace Cpu

variable {s : Cpu} {target : BitTarget}

theorem getBitTarget_setBitTarget (s : Cpu) (target : BitTarget) (v : Byte) :
    (s.setBitTarget target v).getBitTarget target = v := by
  cases target with
  | reg rd => exact getReg8_setReg8 s.registers rd v
  | ind rd => exact setMemory8_self s.memory _ v
  | abs8 b => exact setMemory8_self s.memory _ v

theorem setBitTarget_inj : s.setBitTarget target v = s.setBitTarget target u ↔ v = u := by
  constructor
  · intro h
    rw [← getBitTarget_setBitTarget s target v, h, getBitTarget_setBitTarget]
  · rintro rfl
    rfl

theorem replaceBit_eq_iff :
    s.replaceBit target n b = s.replaceBit target (n % 8) b ↔
      n < 8 ∨ s.targetBit target (n % 8) = b := by
  have hmod := Nat.mod_lt n (show 0 < 8 by decide)
  unfold replaceBit targetBit
  rw [setBitTarget_inj]
  by_cases hn : n < 8
  · rw [Nat.mod_eq_of_lt hn]
    exact iff_of_true rfl (.inl hn)
  · rw [withBit_of_le _ (Nat.le_of_not_lt hn), eq_comm, withBit_eq_self_iff hmod]
    exact (or_iff_right hn).symm

end Cpu

-- ---------------------------------------------------------------------------
-- One instruction
-- ---------------------------------------------------------------------------

theorem toNat_setWidth_imm (n : BitVec 3) : (n.setWidth 4).toNat = n.toNat :=
  BitVec.toNat_setWidth_of_le (by decide)

namespace Cpu

variable (s : Cpu)

theorem bset_eq (bit : BitNumber) (target : BitTarget) :
    s.bset bit target = if 32 ≤ s.bitCount bit then .fault .shiftCount
      else .ok (s.replaceBit target (s.bitCount bit) true) := by
  unfold bset replaceBit
  simp only [or_bitMask]

theorem bclr_eq (bit : BitNumber) (target : BitTarget) :
    s.bclr bit target = if 32 ≤ s.bitCount bit then .fault .shiftCount
      else .ok (s.replaceBit target (s.bitCount bit) false) := by
  unfold bclr replaceBit
  simp only [and_bitMask]

theorem assign_imm (n : BitVec 3) (target : BitTarget) (b : Bool) :
    (if 32 ≤ s.bitCount (.imm (n.setWidth 4)) then .fault .shiftCount
      else .ok (s.replaceBit target (s.bitCount (.imm (n.setWidth 4))) b)) =
      (.ok (s.replaceBit target n.toNat b) : Outcome Fault Cpu) := by
  have hn := n.isLt
  rw [show s.bitCount (.imm (n.setWidth 4)) = n.toNat from toNat_setWidth_imm n,
    if_neg (by omega)]

theorem assign_reg (rn : BitVec 4) (target : BitTarget) (b : Bool) :
    (if 32 ≤ s.bitCount (.reg rn) then .fault .shiftCount
      else .ok (s.replaceBit target (s.bitCount (.reg rn)) b)) =
      (.ok (s.replaceBit target ((getReg8 s.registers rn).toNat % 8) b) : Outcome Fault Cpu) ↔
    (getReg8 s.registers rn).toNat < 8 ∨ (getReg8 s.registers rn).toNat < 32 ∧
      s.targetBit target ((getReg8 s.registers rn).toNat % 8) = b := by
  change (if 32 ≤ (getReg8 s.registers rn).toNat then _
    else Outcome.ok (s.replaceBit target (getReg8 s.registers rn).toNat b)) = _ ↔ _
  by_cases hshift : 32 ≤ (getReg8 s.registers rn).toNat
  · rw [if_pos hshift]
    exact iff_of_false nofun (by omega)
  · rw [if_neg hshift, Outcome.ok.injEq, replaceBit_eq_iff]
    have hlt : (getReg8 s.registers rn).toNat < 32 := Nat.lt_of_not_le hshift
    simp only [hlt, true_and]

theorem storeCarry_eq (bit : BitVec 4) (v : Byte) :
    s.storeCarry bit v = withBit v bit.toNat s.flags.C := by
  unfold storeCarry
  cases s.flags.C with
  | true => exact or_bitMask v bit.toNat
  | false => exact and_bitMask v bit.toNat

theorem withBit_encoded_iff (bit : BitVec 4) (v : Byte) (c : Bool) :
    withBit v bit.toNat c = withBit v (encodedBit bit) (c ^^ regHigh bit) ↔
      (regHigh bit = true → v.getLsbD (encodedBit bit) = !c) := by
  have hmod : encodedBit bit < 8 := Nat.mod_lt _ (by decide)
  cases hhigh : regHigh bit with
  | false =>
    have hn : ¬ 8 ≤ bit.toNat := mt (regHigh_iff bit).mpr (by simp [hhigh])
    rw [encodedBit, Nat.mod_eq_of_lt (by omega), Bool.xor_false]
    exact iff_of_true rfl nofun
  | true =>
    rw [withBit_of_le v ((regHigh_iff bit).mp hhigh), eq_comm, withBit_eq_self_iff hmod,
      Bool.xor_true]
    exact ⟨fun h _ => h, fun h => h rfl⟩

theorem bld_encoded_iff (bit : BitVec 4) (v : Byte) :
    (v &&& bitMask bit.toNat != 0) = (v.getLsbD (encodedBit bit) ^^ regHigh bit) ↔
      (regHigh bit = true → v.getLsbD (encodedBit bit) = true) := by
  rw [test_bitMask]
  cases hhigh : regHigh bit with
  | false =>
    have hn : ¬ 8 ≤ bit.toNat := mt (regHigh_iff bit).mpr (by simp [hhigh])
    rw [encodedBit, Nat.mod_eq_of_lt (by omega), Bool.xor_false]
    exact iff_of_true rfl nofun
  | true =>
    rw [BitVec.getLsbD_of_ge v _ ((regHigh_iff bit).mp hhigh), Bool.xor_true]
    simp

theorem bnotInd_eq (n : BitVec 3) (rd : BitVec 4) :
    s.bnotInd (n.setWidth 4) rd = s.replaceBit (.ind rd) n.toNat
      (!((s.getBitTarget (.ind rd)).setWidth 32 &&& n.setWidth 32 != 0#32)) := by
  have hwide : (n.setWidth 4).setWidth 32 = n.setWidth 32 :=
    BitVec.setWidth_setWidth (by decide)
  unfold bnotInd replaceBit
  simp only [toNat_setWidth_imm, or_bitMask, and_bitMask, hwide]
  split
  · rename_i h
    rw [h]
    rfl
  · rename_i h
    rw [Bool.not_eq_true] at h
    rw [h]
    rfl

theorem bstReg_eq_iff (bit rd : BitVec 4) :
    s.bstReg bit rd = s.replaceBit (.reg rd) (encodedBit bit) (s.flags.C ^^ regHigh bit) ↔
      (BitOp.BSTReg bit rd).Meets s := by
  have hmod : encodedBit bit < 8 := Nat.mod_lt _ (by decide)
  have hmemory : setMemory8 s.memory ((getReg8 s.registers rd).setWidth 32)
        (s.storeCarry bit (getMemory8 s.memory ((getReg8 s.registers rd).setWidth 32))) =
        s.memory ↔
      (regHigh bit = false →
        (getMemory8 s.memory ((getReg8 s.registers rd).setWidth 32)).getLsbD (encodedBit bit) =
          s.flags.C) := by
    rw [setMemory8_eq_self_iff, storeCarry_eq]
    cases hhigh : regHigh bit with
    | false =>
      have hn : ¬ 8 ≤ bit.toNat := mt (regHigh_iff bit).mpr (by simp [hhigh])
      rw [encodedBit, Nat.mod_eq_of_lt (by omega), withBit_eq_self_iff (by omega)]
      exact ⟨fun h _ => h, fun h => h rfl⟩
    | true => exact iff_of_true (withBit_of_le _ ((regHigh_iff bit).mp hhigh) _) nofun
  have hregister : setReg8 s.registers rd (withBit (getReg8 s.registers rd) (encodedBit bit)
        (s.flags.C ^^ regHigh bit)) = s.registers ↔
      s.targetBit (.reg rd) (encodedBit bit) = (s.flags.C ^^ regHigh bit) := by
    rw [setReg8_eq_self_iff, withBit_eq_self_iff hmod]
    rfl
  constructor
  · intro h
    exact ⟨hregister.mp (congrArg Cpu.registers h).symm, hmemory.mp (congrArg Cpu.memory h)⟩
  · rintro ⟨hbit, hkeep⟩
    change { s with memory := setMemory8 s.memory _ _ } = _
    rw [hmemory.mpr hkeep]
    exact congrArg (fun r => { s with registers := r }) (hregister.mpr hbit).symm

end Cpu

namespace BitOp

theorem execute_iff (s : Cpu) (op : BitOp) :
    execute saved savedFlags s op.instr = .ok (op.intended s) ↔ op.Meets s := by
  cases op with
  | BSET bit target =>
    change s.bset bit.source target = _ ↔ _
    rw [Cpu.bset_eq]
    cases bit with
    | imm n => exact iff_of_true (s.assign_imm n target true) trivial
    | reg rn => exact s.assign_reg rn target true
  | BCLR bit target =>
    change s.bclr bit.source target = _ ↔ _
    rw [Cpu.bclr_eq]
    cases bit with
    | imm n => exact iff_of_true (s.assign_imm n target false) trivial
    | reg rn => exact s.assign_reg rn target false
  | BNOT n rd =>
    have hn : n.toNat < 8 := n.isLt
    change Outcome.ok (s.bnotInd (n.setWidth 4) rd) = .ok _ ↔ _
    rw [Outcome.ok.injEq, Cpu.bnotInd_eq]
    unfold intended Cpu.replaceBit
    rw [Cpu.setBitTarget_inj, withBit_inj hn, Bool.not_inj_iff, eq_comm]
    rfl
  | BSTReg bit rd =>
    change Outcome.ok (s.bstReg bit rd) = .ok _ ↔ _
    rw [Outcome.ok.injEq]
    exact s.bstReg_eq_iff bit rd
  | BSTInd bit rd =>
    change Outcome.ok (s.bstInd bit rd) = .ok _ ↔ _
    rw [Outcome.ok.injEq]
    unfold intended Cpu.bstInd Cpu.replaceBit
    rw [Cpu.setBitTarget_inj, Cpu.storeCarry_eq]
    exact Cpu.withBit_encoded_iff bit _ _
  | BTST n rd =>
    refine iff_of_true ?_ trivial
    change Outcome.ok (s.btst (n.setWidth 4) rd) = .ok _
    unfold Cpu.btst
    rw [test_bitMask, toNat_setWidth_imm]
    rfl
  | BLD bit target =>
    have hbit := Cpu.bld_encoded_iff bit (s.getBitTarget target)
    change Outcome.ok (s.bld bit target) = .ok _ ↔ _
    rw [Outcome.ok.injEq]
    refine Iff.trans ?_ hbit
    constructor
    · intro h
      exact congrArg (fun t : Cpu => t.flags.C) h
    · intro h
      let loaded (b : Bool) : Cpu := { s with flags := { s.flags with C := b } }
      cases target with
      | reg rd => exact congrArg (fun b => (loaded b).addPc 0) h
      | ind rd => exact congrArg (fun b => (loaded b).addPc 2) h
      | abs8 b => exact congrArg (fun b => (loaded b).addPc 2) h

end BitOp

-- ---------------------------------------------------------------------------
-- Every bit instruction
-- ---------------------------------------------------------------------------

namespace Walker

theorem opcodeSwitch_eq_ok_iff (s : Walker) (i : Instr) (cpu : Cpu) :
    s.opcodeSwitch i = .ok { s with toCpu := cpu } ↔
      execute s.interruptSavedAddress s.interruptSavedFlags s.toCpu i = .ok cpu := by
  unfold opcodeSwitch
  rw [Outcome.map_eq_ok]
  constructor
  · rintro ⟨cpu', h, heq⟩
    obtain rfl : cpu' = cpu := congrArg Walker.toCpu heq
    exact h
  · intro h
    exact ⟨cpu, h, rfl⟩

theorem bst_bld_ind (s : Walker) (bit rd : BitVec 4) :
    ∃ t u, s.opcodeSwitch (.bstInd bit rd) = .ok t ∧ t.opcodeSwitch (.bld bit (.ind rd)) = .ok u ∧
      (u.flags.C = s.flags.C ↔ (regHigh bit = true → s.flags.C = false)) := by
  refine ⟨_, _, rfl, rfl, ?_⟩
  let address := maskAddress (getReg32 s.registers rd)
  change ((setMemory8 s.memory (getReg32 s.registers rd)
    (s.storeCarry bit (s.memory address)) address &&& Cpu.bitMask bit.toNat != 0) = s.flags.C) ↔ _
  rw [setMemory8_self, Cpu.storeCarry_eq, test_bitMask]
  cases hhigh : regHigh bit with
  | false =>
    have hn : ¬ 8 ≤ bit.toNat := mt (regHigh_iff bit).mpr (by simp [hhigh])
    rw [getLsbD_withBit_self _ (by omega)]
    exact iff_of_true rfl nofun
  | true =>
    rw [BitVec.getLsbD_of_ge _ _ ((regHigh_iff bit).mp hhigh), eq_comm]
    exact ⟨fun h _ => h, fun h => h rfl⟩

theorem bst_bld_reg (s : Walker) (bit rd : BitVec 4) :
    ∃ t u, s.opcodeSwitch (.bstReg bit rd) = .ok t ∧ t.opcodeSwitch (.bld bit (.reg rd)) = .ok u ∧
      (u.flags.C = s.flags.C ↔ (getReg8 s.registers rd).getLsbD bit.toNat = s.flags.C) := by
  refine ⟨_, _, rfl, rfl, ?_⟩
  change ((getReg8 s.registers rd &&& Cpu.bitMask bit.toNat != 0) = s.flags.C) ↔ _
  rw [test_bitMask]

theorem withBit_and_number (v : Byte) (n : BitVec 3) (b : Bool) :
    (withBit v n.toNat b).setWidth 32 &&& n.setWidth 32 = v.setWidth 32 &&& n.setWidth 32 := by
  apply BitVec.eq_of_getLsbD_eq
  intro i hi
  simp only [BitVec.getLsbD_and, BitVec.getLsbD_setWidth, getLsbD_withBit v (show n.toNat < 8 from
    n.isLt)]
  by_cases h : i = n.toNat
  · have hbit : n.getLsbD i = false := by
      rw [h]
      exact Nat.testBit_lt_two_pow Nat.lt_two_pow_self
    rw [hbit, Bool.and_false, Bool.and_false, Bool.and_false]
  · rw [if_neg h]

/-- The number of the bit is no mask of the bit, so a second BNOT does what the
first did. -/
theorem bnot_bnot (s : Walker) (n : BitVec 3) (rd : BitVec 4) :
    ∃ t u, s.opcodeSwitch (.bnotInd (n.setWidth 4) rd) = .ok t ∧
      t.opcodeSwitch (.bnotInd (n.setWidth 4) rd) = .ok u ∧
      (u.memory = s.memory ↔ ¬ (BitOp.BNOT n rd).Meets s.toCpu) := by
  refine ⟨_, _, rfl, rfl, ?_⟩
  have hn : n.toNat < 8 := n.isLt
  let address := getReg32 s.registers rd
  let v := getMemory8 s.memory address
  let test (v : Byte) : Bool := v.setWidth 32 &&& n.setWidth 32 != 0#32
  have htest (b : Bool) : test (withBit v n.toNat b) = test v :=
    congrArg (· != 0#32) (withBit_and_number v n b)
  have honce := Cpu.bnotInd_eq s.toCpu n rd
  have htwice := Cpu.bnotInd_eq (s.bnotInd (n.setWidth 4) rd) n rd
  have hmemory : ((s.bnotInd (n.setWidth 4) rd).bnotInd (n.setWidth 4) rd).memory =
      setMemory8 s.memory address (withBit v n.toNat (!test v)) := by
    rw [htwice, honce]
    let v' := withBit v n.toNat (!test v)
    have hread : getMemory8 (setMemory8 s.memory address v') address = v' :=
      setMemory8_self s.memory address v'
    change setMemory8 (setMemory8 s.memory address v') address
      (withBit (getMemory8 (setMemory8 s.memory address v') address) n.toNat
        (!test (getMemory8 (setMemory8 s.memory address v') address))) = _
    rw [hread, htest, withBit_withBit v hn]
    exact Function.update_idem _ _ _
  change ((s.bnotInd (n.setWidth 4) rd).bnotInd (n.setWidth 4) rd).memory = s.memory ↔
    ¬ v.getLsbD n.toNat = test v
  rw [hmemory, setMemory8_eq_self_iff, withBit_eq_self_iff hn]
  cases v.getLsbD n.toNat <;> cases test v <;> simp

/-- A bit instruction does what it is to do on the operands that meet it, and
what two of them in a row come to. -/
theorem bit_instructions_iff (s : Walker) :
    (∀ op : BitOp, s.opcodeSwitch op.instr = .ok { s with toCpu := op.intended s.toCpu } ↔
      op.Meets s.toCpu) ∧
    (∀ bit rd, ∃ t u, s.opcodeSwitch (.bstInd bit rd) = .ok t ∧
      t.opcodeSwitch (.bld bit (.ind rd)) = .ok u ∧
      (u.flags.C = s.flags.C ↔ (regHigh bit = true → s.flags.C = false))) ∧
    (∀ bit rd, ∃ t u, s.opcodeSwitch (.bstReg bit rd) = .ok t ∧
      t.opcodeSwitch (.bld bit (.reg rd)) = .ok u ∧
      (u.flags.C = s.flags.C ↔ (getReg8 s.registers rd).getLsbD bit.toNat = s.flags.C)) ∧
    (∀ n rd, ∃ t u, s.opcodeSwitch (BitOp.BNOT n rd).instr = .ok t ∧
      t.opcodeSwitch (BitOp.BNOT n rd).instr = .ok u ∧
      (u.memory = s.memory ↔ ¬ (BitOp.BNOT n rd).Meets s.toCpu)) := by
  refine ⟨fun op => ?_, s.bst_bld_ind, s.bst_bld_reg, s.bnot_bnot⟩
  rw [opcodeSwitch_eq_ok_iff]
  exact BitOp.execute_iff s.toCpu op

/-- `BSET R1L,R0L` with R1L = 9: bit 1 of R0L stays clear. -/
theorem register_bit_nine : ¬ ∀ (s : Walker) (op : BitOp),
    s.opcodeSwitch op.instr = .ok { s with toCpu := op.intended s.toCpu } := by
  intro claim
  let s : Walker := { registers := fun r => if r = 1 then 9 else 0 }
  have hmeets := (BitOp.execute_iff s.toCpu _).mp
    ((s.opcodeSwitch_eq_ok_iff _ _).mp (claim s (.BSET (.reg 9) (.reg 8))))
  obtain h | ⟨-, h⟩ := hmeets
  · exact absurd h (by decide)
  · exact absurd h (by decide)

end Walker

end PokeStroller
