import PokeStroller.Walker.Execute

/-!
# Memory-mapped registers and addressing modes

The byte moves in their addressing modes. The side effects of SSTDR, SSRDR and
TLB1 hang on the `@aa:16` forms, so the modes agree only where those effects
change nothing.
-/

namespace PokeStroller

-- ---------------------------------------------------------------------------
-- The moves
-- ---------------------------------------------------------------------------

/-- `MOV.B Rs, ..`, after the byte `v` went to the address `A`. -/
inductive ByteStore (s : Cpu) (A : BitVec 16) (v : Byte) : Cpu → Prop
  | abs16 (hv : getReg8 s.registers rs = v) : ByteStore s A v (s.movAbs16Store .b rs A)
  | ind (hv : getReg8 s.registers rs = v) (ha : maskAddress (getReg32 s.registers rd) = A) :
      ByteStore s A v (s.movIndStore .b rs rd)
  | disp (hv : getReg8 s.registers rs = v)
      (ha : maskAddress (getReg32 s.registers rd + signExtendedDisp d) = A) :
      ByteStore s A v (s.movDispStore .b rs d rd)

/-- `MOV.B .., Rd`, after the byte at the address `A` went to `Rd`. -/
inductive ByteLoad (s : Cpu) (A : BitVec 16) : BitVec 4 → Cpu → Prop
  | abs16 : ByteLoad s A rd (s.movAbs16Load .b A rd)
  | ind (ha : maskAddress (getReg32 s.registers rs) = A) :
      ByteLoad s A rd (s.movIndLoad .b rs rd)
  | postInc (ha : maskAddress (getReg32 s.registers rs) = A) :
      ByteLoad s A rd (s.movPostInc .b rs rd)
  | disp (ha : maskAddress (getReg32 s.registers rs + signExtendedDisp d) = A) :
      ByteLoad s A rd (s.movDispLoad .b d rs rd)

/-- The modes cannot be told apart, and every one has the side effects. -/
structure ModesAgree (s : Cpu) (A : BitVec 16) (v : Byte) : Prop where
  memory : ∀ t u, ByteStore s A v t → ByteStore s A v u → t.memory = u.memory
  latch : ∀ t u, ByteStore s A v t → ByteStore s A v u → t.TimerB.TLBvalue = u.TimerB.TLBvalue
  value : ∀ rd rd' t u, ByteLoad s A rd t → ByteLoad s A rd' u →
    getReg8 t.registers rd = getReg8 u.registers rd'
  status : ∀ rd rd' t u, ByteLoad s A rd t → ByteLoad s A rd' u → t.memory SSSR = u.memory SSSR
  transfer : A = SSTDR → ∀ t, ByteStore s A v t →
    (t.memory SSSR).has TDRE = false ∧ (t.memory SSSR).has TEND = false
  acknowledge : A = SSRDR → ∀ rd t, ByteLoad s A rd t → (t.memory SSSR).has RDRF = false
  reload : A = TCB1 → ∀ t, ByteStore s A v t → t.TimerB.TLBvalue = v

/-- The side effects at `A` change nothing: a transfer is under way, nothing
was received, or the reload value is already `v`. -/
structure Effectless (s : Cpu) (A : BitVec 16) (v : Byte) : Prop where
  transfer : A = SSTDR → (s.memory SSSR).has TDRE = false ∧ (s.memory SSSR).has TEND = false
  acknowledge : A = SSRDR → (s.memory SSSR).has RDRF = false
  reload : A = TCB1 → s.TimerB.TLBvalue = v

-- ---------------------------------------------------------------------------
-- Operands
-- ---------------------------------------------------------------------------

theorem maskAddress_abs16 (A : BitVec 16) : maskAddress (A.setWidth 32 ||| 0x00ff0000) = A := by
  unfold maskAddress
  ext i hi
  simp

theorem maskAddress_disp (base : BitVec 32) (A : BitVec 16) :
    maskAddress (base + signExtendedDisp (A - maskAddress base)) = A := by
  have hsign (d : BitVec 16) : (d.signExtend 32).setWidth 16 = d := by
    apply BitVec.eq_of_getLsbD_eq
    intro i hi
    have hi' : i < 32 := by omega
    rw [BitVec.getLsbD_setWidth, BitVec.getLsbD_signExtend]
    simp [hi, hi']
  unfold maskAddress signExtendedDisp
  rw [BitVec.setWidth_add _ _ (by decide), hsign]
  bv_omega

theorem clear_transfer : ∀ x : Byte, clearBit8 (clearBit8 x 2) 3 = x ↔
    x.has TDRE = false ∧ x.has TEND = false := by
  decide

theorem clear_received : ∀ x : Byte, clearBit8 x 1 = x ↔ x.has RDRF = false := by
  decide

-- ---------------------------------------------------------------------------
-- The side effects
-- ---------------------------------------------------------------------------

section
variable {s t : Cpu} {A : BitVec 16} {v : Byte}

def Cpu.transferring (s : Cpu) (A : BitVec 16) (v : Byte) : Memory :=
  let memory := Function.update s.memory A v
  if A = SSTDR then
    Function.update memory SSSR (clearBit8 (clearBit8 (memory SSSR) 2) 3)
  else memory

def Cpu.acknowledging (s : Cpu) (A : BitVec 16) : Memory :=
  if A = SSRDR then Function.update s.memory SSSR (clearBit8 (s.memory SSSR) 1) else s.memory

theorem setMemory_byte (hv : getReg8 s.registers rs = v) (ha : maskAddress address = A) :
    setMemory s.memory .b address (getReg s.registers .b rs) = Function.update s.memory A v := by
  simp [setMemory, setMemory8, getReg, hv, ha]

theorem movAbs16Store_effects (hv : getReg8 s.registers rs = v) :
    (s.movAbs16Store .b rs A).memory = s.transferring A v ∧
      (s.movAbs16Store .b rs A).TimerB.TLBvalue = if A = TCB1 then v else s.TimerB.TLBvalue := by
  have hvalue : (getReg s.registers .b rs).setWidth 8 = v := by simpa [getReg] using hv
  have hne : SSTDR ≠ TCB1 := by decide
  unfold Cpu.movAbs16Store Cpu.transferring
  simp only [Cpu.storeMem, setMemory, setMemory8, maskAddress_abs16, hvalue, true_and, Cpu.addPc]
  by_cases hsstdr : A = SSTDR
  · simp [hsstdr, hne]
  · by_cases htcb1 : A = TCB1
    · simp [htcb1, hne.symm]
    · simp [hsstdr, htcb1]

theorem ByteStore.effects (h : ByteStore s A v t) :
    (t.memory = Function.update s.memory A v ∧ t.TimerB.TLBvalue = s.TimerB.TLBvalue) ∨
    (t.memory = s.transferring A v ∧
      t.TimerB.TLBvalue = if A = TCB1 then v else s.TimerB.TLBvalue) := by
  cases h with
  | abs16 hv => exact .inr (movAbs16Store_effects hv)
  | ind hv ha => exact .inl ⟨setMemory_byte hv ha, rfl⟩
  | disp hv ha => exact .inl ⟨setMemory_byte hv ha, rfl⟩

theorem movAbs16Load_memory : (s.movAbs16Load .b A rd).memory = s.acknowledging A := by
  unfold Cpu.movAbs16Load Cpu.acknowledging
  by_cases hssrdr : A = SSRDR
  · simp [hssrdr, Cpu.loadReg, Cpu.addPc]
  · simp [hssrdr, Cpu.loadReg, Cpu.addPc]

theorem ByteLoad.effects (h : ByteLoad s A rd t) :
    getReg8 t.registers rd = s.memory A ∧ (t.memory = s.memory ∨ t.memory = s.acknowledging A) := by
  have hvalue (registers : Registers) {address : BitVec 32} (ha : maskAddress address = A) :
      getReg8 (setReg registers .b rd (getMemory s.memory .b address)) rd = s.memory A := by
    simp [setReg, getMemory, getMemory8, getReg8_setReg8, ha]
  cases h with
  | abs16 =>
    refine ⟨?_, .inr ?_⟩
    · have habs := hvalue s.registers (maskAddress_abs16 A)
      unfold Cpu.movAbs16Load
      split
      · exact habs
      · exact habs
    · exact movAbs16Load_memory
  | ind ha => exact ⟨hvalue _ ha, .inl rfl⟩
  | postInc ha => exact ⟨hvalue _ ha, .inl rfl⟩
  | disp ha => exact ⟨hvalue _ ha, .inl rfl⟩

theorem transferring_eq : s.transferring A v = Function.update s.memory A v ↔
    (A = SSTDR → (s.memory SSSR).has TDRE = false ∧ (s.memory SSSR).has TEND = false) := by
  unfold Cpu.transferring
  by_cases hsstdr : A = SSTDR
  · have hsssr : Function.update s.memory A v SSSR = s.memory SSSR :=
      Function.update_of_ne (hsstdr ▸ by decide) _ _
    dsimp only
    rw [if_pos hsstdr, Function.update_eq_self_iff, hsssr, clear_transfer]
    simp [hsstdr]
  · simp [hsstdr]

theorem acknowledging_eq : s.acknowledging A = s.memory ↔
    (A = SSRDR → (s.memory SSSR).has RDRF = false) := by
  unfold Cpu.acknowledging
  by_cases hssrdr : A = SSRDR
  · rw [if_pos hssrdr, Function.update_eq_self_iff, clear_received]
    simp [hssrdr]
  · simp [hssrdr]

theorem ByteStore.plain (h : ByteStore s A v t) (he : Effectless s A v) :
    t.memory = Function.update s.memory A v ∧ t.TimerB.TLBvalue = s.TimerB.TLBvalue := by
  rcases h.effects with hplain | ⟨hmemory, hlatch⟩
  · exact hplain
  · refine ⟨hmemory.trans (transferring_eq.mpr he.transfer), hlatch.trans ?_⟩
    split
    · exact (he.reload ‹_›).symm
    · rfl

theorem ByteLoad.plain (h : ByteLoad s A rd t) (he : Effectless s A v) :
    getReg8 t.registers rd = s.memory A ∧ t.memory = s.memory := by
  obtain ⟨hvalue, hmemory | hmemory⟩ := h.effects
  · exact ⟨hvalue, hmemory⟩
  · exact ⟨hvalue, hmemory.trans (acknowledging_eq.mpr he.acknowledge)⟩

theorem Effectless.modesAgree (h : Effectless s A v) : ModesAgree s A v where
  memory t u ht hu := (ht.plain h).1.trans (hu.plain h).1.symm
  latch t u ht hu := (ht.plain h).2.trans (hu.plain h).2.symm
  value rd rd' t u ht hu := (ht.plain h).1.trans (hu.plain h).1.symm
  status rd rd' t u ht hu := congrFun ((ht.plain h).2.trans (hu.plain h).2.symm) SSSR
  transfer hsstdr t ht := by
    rw [(ht.plain h).1, Function.update_of_ne (hsstdr ▸ by decide)]
    exact h.transfer hsstdr
  acknowledge hssrdr rd t ht := by
    rw [(ht.plain h).2]
    exact h.acknowledge hssrdr
  reload htcb1 t ht := (ht.plain h).2.trans (h.reload htcb1)

/-- The modes agree on a byte and an address, for all registers and
displacements that resolve to it, exactly where the side effects change
nothing. -/
theorem modes_agree_iff (hv : getReg8 s.registers rs = v) :
    ModesAgree s A v ↔ Effectless s A v := by
  refine ⟨fun h => ?_, Effectless.modesAgree⟩
  have reach := maskAddress_disp (getReg32 s.registers 0) A
  have hstores := h.memory _ _ (.abs16 hv) (.disp hv reach)
  have hlatch := h.latch _ _ (.abs16 hv) (.disp hv reach)
  have hstatus := h.status 0 0 _ _ .abs16 (.disp reach)
  obtain ⟨hmemory, htlb⟩ := movAbs16Store_effects (A := A) hv
  refine ⟨?_, fun hssrdr => ?_, fun htcb1 => ?_⟩
  · have hplain : (s.movDispStore .b rs _ 0).memory = Function.update s.memory A v :=
      setMemory_byte hv reach
    exact transferring_eq.mp (hmemory.symm.trans (hstores.trans hplain))
  · rw [movAbs16Load_memory, Cpu.acknowledging, if_pos hssrdr, Function.update_self] at hstatus
    exact (clear_received _).mp hstatus
  · rw [htlb, if_pos htcb1] at hlatch
    exact hlatch.symm

/-- Before anything was sent, the modes agree on a byte of RAM. -/
theorem modes_agree_ram :
    let s : Cpu := { memory := fun a => if a = SSSR then TDRE else 0 }
    ModesAgree s 0xf780 0 := by
  intro s
  have hv : getReg8 s.registers 0 = 0 := by decide
  exact (modes_agree_iff hv).mpr ⟨fun h => absurd h (by decide), fun h => absurd h (by decide),
    fun h => absurd h (by decide)⟩

/-- A byte moved to SSTDR through a register is not sent: TDRE stays set. -/
theorem modes_disagree_transfer : ¬ ∀ (s : Cpu) (A : BitVec 16) (v : Byte), ModesAgree s A v := by
  intro claim
  let s : Cpu :=
    { registers := fun _ => 0x0000f0eb, memory := fun a => if a = SSSR then TDRE else 0 }
  have hind : ByteStore s SSTDR 0xeb (s.movIndStore .b 8 0) := .ind (by decide) (by decide)
  have hsent := (claim s SSTDR 0xeb).transfer rfl _ hind
  exact absurd hsent.1 (by decide)

end

end PokeStroller
