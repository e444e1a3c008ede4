import PokeStroller.Lib.Writes
import PokeStroller.Walker.Phase

/-!
# Stores

What an instruction stores, and the few addresses the emulator writes on its
own. All other memory, the ROM included, holds what the program last stored
there.
-/

namespace PokeStroller

-- ---------------------------------------------------------------------------
-- The stores of an instruction
-- ---------------------------------------------------------------------------

def writes (sz : Size) (address value : BitVec 32) : List (BitVec 16 × Byte) :=
  let a := maskAddress address
  match sz with
  | .b => [(a, value.setWidth 8)]
  | .w => [(a, (value.setWidth 16 >>> 8).setWidth 8), (a + 1, (value.setWidth 16).setWidth 8)]
  | .l => [(a, (value >>> 24).setWidth 8), (a + 1, (value >>> 16).setWidth 8),
      (a + 2, (value >>> 8).setWidth 8), (a + 3, value.setWidth 8)]

theorem setMemory_eq_store (m : Memory) (sz : Size) (address value : BitVec 32) :
    setMemory m sz address value = store m (writes sz address value) := by
  cases sz <;> rfl

namespace Cpu

def pushes (s : Cpu) (value : BitVec 16) : List (BitVec 16 × Byte) :=
  let a := maskAddress (getReg32 s.registers SP - 2)
  [(a, (value >>> 8).setWidth 8), (a + 1, value.setWidth 8)]

theorem push16_memory (s : Cpu) (value : BitVec 16) :
    (s.push16 value).memory = store s.memory (s.pushes value) := by
  simp [push16, pushes, store, setMemory16, getReg32, setReg32]

def targetWrites (s : Cpu) (target : BitTarget) (v : Byte) : List (BitVec 16 × Byte) :=
  match target with
  | .reg _ => []
  | .ind rd => [(maskAddress (getReg32 s.registers rd), v)]
  | .abs8 b => [(maskAddress (abs8Address b), v)]

theorem setBitTarget_memory (s : Cpu) (target : BitTarget) (v : Byte) :
    (s.setBitTarget target v).memory = store s.memory (s.targetWrites target v) := by
  cases target <;> rfl

end Cpu

/-- What the program stores with this instruction. -/
def Instr.stores (s : Cpu) : Instr → List (BitVec 16 × Byte)
  | .movAbs16Store sz rs address =>
    writes sz (address.setWidth 32 ||| 0x00ff0000) (getReg s.registers sz rs)
  | .movAbs8Store rs address =>
    writes .b (address.setWidth 32 ||| 0x00ffff00) (getReg s.registers .b rs)
  | .movIndStore sz rs rd => writes sz (getReg32 s.registers rd) (getReg s.registers sz rs)
  | .movPreDec sz rs rd =>
    let registers := setReg32 s.registers rd (getReg32 s.registers rd - sz.bytes)
    let value := getReg registers sz rs
    writes sz (if sz = .b then value else getReg32 registers rd) value
  | .movDispStore sz rs disp rd =>
    writes sz (getReg32 s.registers rd + signExtendedDisp disp) (getReg s.registers sz rs)
  | .bsr8 _ => s.pushes (s.pc + 2)
  | .bsr16 _ => s.pushes (s.pc + 4)
  | .jsrInd _ => s.pushes (s.pc + 2)
  | .jsrAbs _ => s.pushes (s.pc + 4)
  | .bset bit target =>
    s.targetWrites target (s.getBitTarget target ||| Cpu.bitMask (s.bitCount bit))
  | .bclr bit target =>
    s.targetWrites target (s.getBitTarget target &&& ~~~Cpu.bitMask (s.bitCount bit))
  | .bnotInd bit rd =>
    let v := s.getBitTarget (.ind rd)
    let bitValue := v.setWidth 32 &&& bit.setWidth 32 != 0#32
    s.targetWrites (.ind rd)
      (if bitValue then v &&& ~~~Cpu.bitMask bit.toNat else v ||| Cpu.bitMask bit.toNat)
  | .bstReg bit rd =>
    let address := (getReg8 s.registers rd).setWidth 32
    [(maskAddress address, s.storeCarry bit (getMemory8 s.memory address))]
  | .bstInd bit rd =>
    s.targetWrites (.ind rd) (s.storeCarry bit (s.getBitTarget (.ind rd)))
  | _ => []

-- ---------------------------------------------------------------------------
-- What the emulator writes on its own
-- ---------------------------------------------------------------------------

/-- The SSU, the timers, the interrupt requests and the two hooks. -/
def peripheralRegisters : List (BitVec 16) :=
  [SSSR, SSRDR, TCB1, TSRW, maskAddress TCNT_ADDRESS, maskAddress TCNT_ADDRESS + 1,
    IRQ_IRR1, IRQ_IRR2, RTCFLG, 0xffde, 0xf78e, 0xf78f]

def Plain (a : BitVec 16) : Prop := a ∉ peripheralRegisters

theorem plain_of_rom {a : BitVec 16} (ha : a.toNat < WALKER_ROM_SIZE) : Plain a := by
  have habove : peripheralRegisters.all (0xc000 ≤ ·) = true := by decide
  intro hmem
  have hle : 0xc000 ≤ a.toNat :=
    BitVec.le_def.mp (of_decide_eq_true (List.all_eq_true.mp habove a hmem))
  exact absurd ha (Nat.not_lt.mpr hle)

theorem Plain.ne {a b : BitVec 16} (ha : Plain a) (hb : b ∈ peripheralRegisters) : a ≠ b :=
  fun h => ha (h ▸ hb)

theorem execute_stores (saved : BitVec 16) (savedFlags : Flags) (s : Cpu) (i : Instr)
    (ha : Plain a) :
    (execute saved savedFlags s i).Holds fun t => t.memory a = store s.memory (i.stores s) a := by
  have hmemory (sz : Size) (address value : BitVec 32) :
      setMemory s.memory sz address value a = store s.memory (writes sz address value) a :=
    congrFun (setMemory_eq_store _ _ _ _) a
  have hbit (target : BitTarget) (v : Byte) :
      (s.setBitTarget target v).memory a = store s.memory (s.targetWrites target v) a :=
    congrFun (s.setBitTarget_memory target v) a
  have hpush (value : BitVec 16) :
      (s.push16 value).memory a = store s.memory (s.pushes value) a :=
    congrFun (s.push16_memory value) a
  have hsssr : a ≠ SSSR := ha.ne (by decide)
  cases i with
  | movAbs16Load sz address rd =>
    simp only [execute, Cpu.movAbs16Load, Outcome.holds_ok]
    split
    · exact Function.update_of_ne hsssr _ _
    · rfl
  | movAbs16Store sz rs address =>
    simp only [execute, Cpu.movAbs16Store, Outcome.holds_ok]
    split
    · exact (Function.update_of_ne hsssr _ _).trans (hmemory _ _ _)
    · split
      · exact hmemory _ _ _
      · exact hmemory _ _ _
  | movAbs8Store rs address => exact hmemory .b _ _
  | movIndStore sz rs rd => exact hmemory _ _ _
  | movPreDec sz rs rd => exact hmemory _ _ _
  | movDispStore sz rs disp rd => exact hmemory _ _ _
  | bsr8 disp => exact hpush _
  | bsr16 disp => exact hpush _
  | jsrInd er => exact hpush _
  | jsrAbs address => exact hpush _
  | bset bit target =>
    simp only [execute, Cpu.bset]
    split
    · trivial
    · exact hbit _ _
  | bclr bit target =>
    simp only [execute, Cpu.bclr]
    split
    · trivial
    · exact hbit _ _
  | bnotInd bit rd => exact hbit (.ind rd) _
  | bstInd bit rd => exact hbit (.ind rd) _
  | divxuB rs rd => simp only [execute, Cpu.divxuB]; split <;> trivial
  | divxuW rs rd => simp only [execute, Cpu.divxuW]; split <;> trivial
  | divxsB rs rd => simp only [execute, Cpu.divxsB]; split <;> trivial
  | divxsW rs rd =>
    simp only [execute, Cpu.divxsW]
    split
    · trivial
    · split <;> trivial
  | bcc8 cc disp => simp only [execute, Cpu.bcc8, Outcome.holds_ok]; split <;> rfl
  | bcc16 cc disp =>
    simp only [execute, Cpu.bcc16, Outcome.holds_ok]
    split
    · rfl
    · split <;> rfl
  | _ => rfl

namespace Walker

def SamePlain (s t : Walker) : Prop := ∀ a, Plain a → t.memory a = s.memory a

namespace SamePlain

theorem refl (s : Walker) : SamePlain s s := fun _ _ => rfl

theorem trans {s t u : Walker} (h : SamePlain s t) (h' : SamePlain t u) : SamePlain s u :=
  fun a ha => (h' a ha).trans (h a ha)

theorem write (s : Walker) (hb : b ∈ peripheralRegisters) (v : Byte) :
    SamePlain s { s with memory := Function.update s.memory b v } :=
  fun _ ha => Function.update_of_ne (ha.ne hb) _ _

theorem orMemory (s : Walker) (hb : b ∈ peripheralRegisters) (bits : Byte) :
    SamePlain s (s.orMemory b bits) :=
  .write s hb _

theorem write16 (s : Walker) (hb : maskAddress b ∈ peripheralRegisters)
    (hb' : maskAddress b + 1 ∈ peripheralRegisters) (v : BitVec 16) :
    SamePlain s { s with memory := setMemory16 s.memory b v } :=
  (write s hb _).trans (write _ hb' _)

theorem ite {c : Prop} [Decidable c] {s t u : Walker} (ht : SamePlain s t)
    (hu : SamePlain s u) : SamePlain s (if c then t else u) := by
  split
  · exact ht
  · exact hu

end SamePlain

theorem keyHook_samePlain (s : Walker) : SamePlain s s.keyHook :=
  .ite (.write s (by decide) _) (.refl s)

theorem wattsHook_samePlain (s : Walker) : SamePlain s s.wattsHook :=
  .ite (.write16 s (by decide) (by decide) _) (.refl s)

theorem interruptHandling_samePlain (s : Walker) : SamePlain s s.interruptHandling := by
  rcases s.interruptHandling_cases with h | ⟨-, vector, queue, h⟩
  · rw [h]
    exact .refl s
  · rw [h]
    exact fun _ _ => rfl

theorem runSubClock_samePlain (s : Walker) : SamePlain s s.runSubClock := by
  obtain ⟨memory, timerB, timerW, hm, h⟩ := s.runSubClock_eq
  have peripheral : timerRegisters.all (· ∈ peripheralRegisters) = true := by decide
  have hmem : ∀ a, Plain a → memory a = s.memory a := by
    intro a ha
    refine hm a fun hmem => ha ?_
    exact of_decide_eq_true (List.all_eq_true.mp peripheral a hmem)
  rcases h with h | ⟨-, h⟩
  · rw [h]
    exact hmem
  · rw [h]
    exact hmem

theorem setKeys_samePlain (s : Walker) (input : Byte) : SamePlain s (s.setKeys input) :=
  .ite (.orMemory s (by decide) _) fun _ _ => rfl

theorem quarterRTCInterrupt_samePlain (s : Walker) : SamePlain s s.quarterRTCInterrupt := by
  have rtcflg : RTCFLG ∈ peripheralRegisters := by decide
  let t := { s.orMemory RTCFLG SEIFG025 with quartersEllapsed := s.quartersEllapsed + 1 }
  have quarter : SamePlain s t := .orMemory s rtcflg SEIFG025
  have half : SamePlain s (if t.quartersEllapsed % 2 = 0 then t.orMemory RTCFLG SEIFG05 else t) :=
    .ite (quarter.trans (.orMemory t rtcflg _)) quarter
  exact .ite (half.trans (.orMemory _ rtcflg _)) half

theorem SsuFrame.samePlain {s t : Walker} (h : SsuFrame s t) : SamePlain s t :=
  fun a ha => h.memory a (ha.ne (by decide)) (ha.ne (by decide))

theorem instructionPhase_stores (s : Walker) (ha : Plain a) :
    s.instructionPhase.Holds fun t =>
      t.memory a = store s.memory (s.keyHook.fetch.stores s.keyHook.wattsHook.toCpu) a := by
  have hhooks := s.keyHook_samePlain.trans s.keyHook.wattsHook_samePlain
  unfold instructionPhase opcodeSwitch
  dsimp only
  generalize s.keyHook.fetch = i
  generalize s.keyHook.wattsHook = w at hhooks
  have hswitch := execute_stores w.interruptSavedAddress w.interruptSavedFlags w.toCpu i ha
  rw [store_congr (hhooks a ha)] at hswitch
  refine Outcome.Holds.andThen (P := fun t : Walker =>
    t.memory a = store s.memory (i.stores w.toCpu) a) ?_ (fun _ h => h) fun t ht => ?_
  · rw [Outcome.holds_map]
    exact hswitch
  · exact (congrFun (congrArg Cpu.memory t.ssuCleanup_toCpu) a).trans ht

end Walker

namespace Machine

theorem clockCycle_samePlain (m : Machine) :
    m.clockCycle.Holds fun t => Walker.SamePlain m.toWalker t.toWalker := by
  refine m.clockCycle_cycle.mono ?_
  rintro t ⟨hcycle, -⟩
  cases hcycle with
  | plain h => exact h.samePlain
  | subClock _ h ht =>
    rw [← ht]
    exact h.samePlain.trans (Walker.runSubClock_samePlain _)

theorem finishCall_samePlain (m : Machine) :
    m.finishCall.Holds fun t => Walker.SamePlain m.toWalker t.toWalker :=
  (clockCycle_samePlain _).andThen
    (fun _ h => m.toWalker.interruptHandling_samePlain.trans h)
    fun u hu => (clockCycle_samePlain u).mono fun _ ht =>
      m.toWalker.interruptHandling_samePlain.trans (hu.trans ht)

-- ---------------------------------------------------------------------------
-- Runs
-- ---------------------------------------------------------------------------

def storesOf (m : Machine) : Event → List (BitVec 16 × Byte)
  | .call => m.executes.elim [] (·.stores m.toWalker.keyHook.wattsHook.toCpu)
  | _ => []

/-- A step of the host with what the program stores in it. -/
def StoreStep (m : Machine) (ws : List (BitVec 16 × Byte)) (t : Machine) : Prop :=
  ∃ e, Step m e t ∧ ws = m.storesOf e

theorem storesOf_executed {m : Machine} (hsleep : m.sleep = false)
    (hskip : m.toWalker.skipHook = none) : m.storesOf .call =
      m.toWalker.keyHook.fetch.stores m.toWalker.keyHook.wattsHook.toCpu := by
  unfold storesOf
  dsimp only
  rw [executes_eq_some.mpr ⟨hsleep, hskip, rfl⟩]
  rfl

theorem call_stores {m t : Machine} (h : m.runNextInstruction.Leaves t) (ha : Plain a) :
    t.memory a = store m.memory (m.storesOf .call) a := by
  rcases runNextInstruction_cases h with ⟨s, hs, ht⟩ | ⟨hawake, s, hskip, rfl⟩ |
    ⟨hawake, hskip, s, hs, rfl⟩
  · have hfinish : t.memory a = s.memory a := (finishCall_samePlain _).leaves ht a ha
    cases hs with
    | asleep hasleep =>
      have hnone : m.executes = none := if_pos hasleep
      unfold storesOf
      dsimp only
      rw [hnone]
      exact hfinish
    | executed hawake hskip hphase =>
      rw [hfinish, storesOf_executed hawake hskip]
      exact (m.toWalker.instructionPhase_stores ha).ok hphase
  · have hnone : m.executes = none := by simp [executes, hawake, hskip]
    unfold storesOf
    dsimp only
    rw [hnone]
    exact congrFun (congrArg (·.memory) (Walker.skipHook_eq hskip)) a
  · rw [storesOf_executed hawake hskip]
    refine (m.toWalker.instructionPhase_stores ha).leaves ?_
    rw [hs]
    rfl

theorem StoreStep.stores {m t : Machine} (h : m.StoreStep ws t) (ha : Plain a) :
    t.memory a = store m.memory ws a := by
  obtain ⟨e, hstep, rfl⟩ := h
  cases hstep with
  | call hleaves => exact call_stores hleaves ha
  | setKeys input => exact m.toWalker.setKeys_samePlain input a ha
  | quarterRTCInterrupt => exact m.toWalker.quarterRTCInterrupt_samePlain a ha

theorem runs_stores {m t : Machine} (h : Runs StoreStep m log t) (ha : Plain a) :
    t.memory a = store m.memory log.flatten a :=
  Runs.store (fun m : Machine => m.memory) (fun _ _ _ hstep _ hb => hstep.stores hb) h ha

end Machine

-- ---------------------------------------------------------------------------
-- The ROM
-- ---------------------------------------------------------------------------

namespace Walker

section
variable {a : BitVec 16} (ha : a.toNat < WALKER_ROM_SIZE)

include ha

theorem ne_of_rom (hb : 0xc000 ≤ b) : a ≠ b := by
  intro h
  have hle : 0xc000 ≤ b.toNat := BitVec.le_def.mp hb
  exact absurd ha (Nat.not_lt.mpr (h ▸ hle))

theorem writeMemory8_rom (s : Walker) (hb : 0xc000 ≤ maskAddress b) (v : Byte) :
    (s.writeMemory8 b v).memory a = s.memory a :=
  setMemory8_ne _ (ne_of_rom ha hb) _

theorem writeMemory16_rom (s : Walker) (hb : 0xc000 ≤ maskAddress b)
    (hb' : 0xc000 ≤ maskAddress b + 1) (v : BitVec 16) :
    (s.writeMemory16 b v).memory a = s.memory a :=
  setMemory16_ne _ _ (ne_of_rom ha hb) (ne_of_rom ha hb')

theorem initSsu_rom (s : Walker) : s.initSsu.memory a = s.memory a := by
  unfold initSsu
  dsimp only
  rw [writeMemory8_rom ha _ (by decide), writeMemory8_rom ha _ (by decide),
    writeMemory8_rom ha _ (by decide), writeMemory8_rom ha _ (by decide)]

theorem initTimers_rom (s : Walker) : s.initTimers.memory a = s.memory a := by
  unfold initTimers
  simp (disch := decide) only [writeMemory8_rom ha, writeMemory16_rom ha]

theorem initInterrupts_rom (s : Walker) : s.initInterrupts.memory a = s.memory a := by
  unfold initInterrupts
  simp (disch := decide) only [writeMemory8_rom ha]

theorem initializeWalkerImages_rom (s : Walker) (rom : Bytes WALKER_ROM_SIZE)
    (image : Bytes WALKER_EEPROM_SIZE) :
    (s.initializeWalkerImages rom image).memory a = rom ⟨a.toNat, ha⟩ := by
  unfold initializeWalkerImages
  dsimp only
  rw [initInterrupts_rom ha, initTimers_rom ha]
  dsimp only
  rw [initSsu_rom ha]
  exact dif_pos ha

end

end Walker

/-- A ROM byte to which the program has not stored is that of the image. -/
theorem rom_unwritten {s : Walker} {rom eeprom : ImagePath} {error text : ErrorText}
    {m₀ m : Machine} {log : List (List (BitVec 16 × Byte))}
    (hload : s.initWalkerFromFiles rom eeprom error = (true, text, m₀.toWalker))
    (hrun : Runs Machine.StoreStep m₀ log m) (ha : a.toNat < WALKER_ROM_SIZE)
    (hstores : ∀ w ∈ log.flatten, w.1 ≠ a) :
    m.memory a = rom.image WALKER_ROM_SIZE ⟨a.toNat, ha⟩ := by
  have himage : m₀.memory a = rom.image WALKER_ROM_SIZE ⟨a.toNat, ha⟩ := by
    rcases s.initWalkerFromFiles_cases rom eeprom error with ⟨-, -, _, hs⟩ | ⟨-, _, hs, -⟩
    · have hm₀ : m₀.toWalker = _ := congrArg (·.2.2) (hload.symm.trans hs)
      rw [show m₀.memory = m₀.toWalker.memory from rfl, hm₀]
      exact Walker.initializeWalkerImages_rom ha s _ _
    · cases congrArg Prod.fst (hload.symm.trans hs)
  rw [Machine.runs_stores hrun (plain_of_rom ha), store_of_notMem _ hstores, himage]

def storingProgram (address : BitVec 16) : List (Nat × List Byte) :=
  [(0x2c4, [0x6a, 0x88, hi8 address, lo8 address])]

/-- A store to 0xf780 leaves the ROM. -/
theorem rom_unwritten_ram : ∃ m, (Machine.boot (storingProgram 0xf780)).runNextInstruction = .ok m ∧
    m.memory 0x2c4 = 0x6a := by
  have run : (Machine.boot (storingProgram 0xf780)).runNextInstruction.okWith (fun _ =>
      (Machine.boot (storingProgram 0xf780)).storesOf .call == [(0xf780, 0)]) = true := by
    decide +kernel
  obtain ⟨m, hm, hstores⟩ := Outcome.okWith_iff.mp run
  obtain ⟨text, hload⟩ := Walker.initWalkerFromFiles_ofBytes
    (Machine.romOf (storingProgram 0xf780)) fun _ => 0xff
  have hstep : (Machine.boot (storingProgram 0xf780)).StoreStep [(0xf780, 0)] m :=
    ⟨.call, .call (Outcome.leaves_of_ok hm), (eq_of_beq hstores).symm⟩
  have hrom := rom_unwritten (a := 0x2c4) hload (.single hstep) (by decide) (by simp)
  rw [ImagePath.ofBytes_image] at hrom
  exact ⟨m, hm, hrom⟩

/-- Nothing stops a program from storing into its ROM. -/
theorem rom_overwritten : ¬ ∀ (s : Walker) (rom eeprom : ImagePath) (error text : ErrorText)
    (m₀ m : Machine) (es : List Event),
    s.initWalkerFromFiles rom eeprom error = (true, text, m₀.toWalker) →
    Runs Machine.Step m₀ es m → ∀ (a : BitVec 16) (ha : a.toNat < WALKER_ROM_SIZE),
      m.memory a = rom.image WALKER_ROM_SIZE ⟨a.toNat, ha⟩ := by
  intro claim
  have run : (Machine.boot (storingProgram 0x2c4)).runNextInstruction.okWith (fun m =>
      m.memory 0x2c4 == 0) = true := by decide +kernel
  obtain ⟨m, hm, hzero⟩ := Outcome.okWith_iff.mp run
  obtain ⟨text, hload⟩ := Walker.initWalkerFromFiles_ofBytes
    (Machine.romOf (storingProgram 0x2c4)) fun _ => 0xff
  have hrun : Runs Machine.Step (Machine.boot (storingProgram 0x2c4)) [.call] m :=
    .single (.call (Outcome.leaves_of_ok hm))
  have hrom := claim _ _ _ _ _ _ _ _ hload hrun 0x2c4 (by decide)
  rw [ImagePath.ofBytes_image, eq_of_beq hzero] at hrom
  cases hrom

end PokeStroller
