import PokeStroller.Walker.Session

/-!
# One instruction

The instruction phase away from the hard-wired hooks: what the opcode switch
makes of the CPU, and then `pc += 2`. Next to it, what the decoder promises
about the operands of the instructions it selects.
-/

namespace PokeStroller

-- ---------------------------------------------------------------------------
-- Hooks
-- ---------------------------------------------------------------------------

namespace Walker

/-- Not one of the addresses `runNextInstruction` compares `pc` with. -/
def HookFree (pc : BitVec 16) : Prop :=
  pc ≠ 0x336 ∧ pc ≠ 0x350 ∧ pc ≠ 0x7700 ∧ pc ≠ 0x9b84 ∧ pc ≠ 0x79b8

instance (pc : BitVec 16) : Decidable (HookFree pc) := by
  unfold HookFree
  infer_instance

variable {s t : Walker}

theorem HookFree.skipHook (h : HookFree s.pc) : s.skipHook = none := by
  obtain ⟨h₁, h₂, h₃, -⟩ := h
  unfold Walker.skipHook
  rw [if_neg h₁, if_neg h₂, if_neg h₃]

theorem HookFree.keyHook (h : HookFree s.pc) : s.keyHook = s :=
  if_neg fun hkey => h.2.2.2.1 hkey.1

theorem HookFree.wattsHook (h : HookFree s.pc) : s.wattsHook = s := if_neg h.2.2.2.2

/-- Away from the hooks an instruction phase is the body of its case and the
common `pc += 2`. -/
theorem instructionPhase_of_execute (hpc : HookFree s.pc)
    (h : execute s.interruptSavedAddress s.interruptSavedFlags s.toCpu s.fetch = .ok cpu) :
    ∃ t, s.instructionPhase = .ok t ∧ t.toCpu = cpu.addPc 2 := by
  have hclean := ssuCleanup_toCpu { s with toCpu := cpu }
  refine ⟨{ Walker.ssuCleanup { s with toCpu := cpu } with pc := cpu.pc + 2 }, ?_, ?_⟩
  · unfold instructionPhase
    dsimp only
    rw [hpc.keyHook, hpc.wattsHook, opcodeSwitch, h]
    simp only [Outcome.map_ok, Outcome.andThen_ok]
    rw [show (Walker.ssuCleanup { s with toCpu := cpu }).pc = cpu.pc from congrArg Cpu.pc hclean]
  · change { (Walker.ssuCleanup { s with toCpu := cpu }).toCpu with pc := cpu.pc + 2 } = _
    rw [hclean]
    rfl

end Walker

-- ---------------------------------------------------------------------------
-- Operands
-- ---------------------------------------------------------------------------

def Size.modulus : Size → Nat
  | .b => 256
  | .w => 65536
  | .l => 4294967296

theorem getReg_setReg (registers : Registers) (sz : Size) (r : BitVec 4) (v : BitVec 32) :
    (getReg (setReg registers sz r v) sz r).toNat = v.toNat % sz.modulus := by
  cases sz with
  | b =>
    change ((getReg8 (setReg8 registers r _) r).setWidth 32).toNat = _
    rw [getReg8_setReg8, BitVec.toNat_setWidth_of_le (by decide), BitVec.toNat_setWidth]
    rfl
  | w =>
    change ((getReg16 (setReg16 registers r _) r).setWidth 32).toNat = _
    rw [getReg16_setReg16, BitVec.toNat_setWidth_of_le (by decide), BitVec.toNat_setWidth]
    rfl
  | l =>
    change (getReg32 (setReg32 registers r _) r).toNat = _
    rw [getReg32_setReg32]
    exact (Nat.mod_eq_of_lt v.isLt).symm
def Instr.Fits : Instr → Prop
  | .mov sz (.imm v) _ | .add sz (.imm v) _ | .sub sz (.imm v) _ | .cmp sz (.imm v) _
  | .logic _ sz (.imm v) _ => v.toNat < sz.modulus
  | _ => True

theorem fits_byte (b : Byte) : (b.setWidth 32).toNat < Size.b.modulus := by
  rw [BitVec.toNat_setWidth_of_le (by decide)]
  exact b.isLt

theorem decodePrefix01_fits (b : Byte) (cd ef : BitVec 16) : (decodePrefix01 b cd ef).Fits := by
  unfold decodePrefix01 decodeLong
  dsimp only
  repeat' split
  all_goals trivial

theorem decode0_fits (aL : BitVec 4) (b : Byte) (cd ef : BitVec 16) :
    (decode0 aL b cd ef).Fits := by
  unfold decode0
  dsimp only
  repeat' split
  all_goals first | exact decodePrefix01_fits b cd ef | trivial

theorem decode1_fits (aL : BitVec 4) (b : Byte) : (decode1 aL b).Fits := by
  unfold decode1
  dsimp only
  repeat' split
  all_goals trivial

theorem decode5_fits (aL : BitVec 4) (b : Byte) (cd : BitVec 16) : (decode5 aL b cd).Fits := by
  unfold decode5
  dsimp only
  repeat' split
  all_goals trivial

theorem decode6_fits (aL : BitVec 4) (b : Byte) (cd : BitVec 16) : (decode6 aL b cd).Fits := by
  unfold decode6
  dsimp only
  repeat' split
  all_goals trivial

theorem decodeImmediate_fits (bH bL : BitVec 4) (hv : v.toNat < sz.modulus) :
    (decodeImmediate sz bH bL v).Fits := by
  unfold decodeImmediate
  split
  all_goals first | exact hv | trivial

theorem decode7_fits (aL : BitVec 4) (b : Byte) (cd ef : BitVec 16) :
    (decode7 aL b cd ef).Fits := by
  have hword : (cd.setWidth 32).toNat < Size.w.modulus := by
    rw [BitVec.toNat_setWidth_of_le (by decide)]
    exact cd.isLt
  unfold decode7
  dsimp only
  repeat' split
  all_goals first
    | exact decodeImmediate_fits _ _ hword
    | exact decodeImmediate_fits _ _ (BitVec.isLt _)
    | trivial

theorem decode_fits (ab cd ef : BitVec 16) : (decode ab cd ef).Fits := by
  unfold decode
  dsimp only
  split
  · exact decode0_fits _ _ _ _
  · exact decode1_fits _ _
  · trivial
  · trivial
  · split
    · trivial
    · trivial
  · exact decode5_fits _ _ _
  · exact decode6_fits _ _ _
  · exact decode7_fits _ _ _ _
  · exact fits_byte _
  · exact fits_byte _
  · exact fits_byte _
  · exact fits_byte _
  · exact fits_byte _
  · exact fits_byte _
  · trivial

end PokeStroller
