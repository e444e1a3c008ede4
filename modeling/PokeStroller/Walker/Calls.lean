import PokeStroller.Lib.Runs
import PokeStroller.Walker.Phase

/-!
# Calls and returns

The return addresses of the open calls lie on the stack, the last one on top.
As long as no more than 32768 calls are open, their slots do not overlap, even
where the 16-bit addresses wrap, and each RTS finds the address of its call.
-/

namespace PokeStroller

-- ---------------------------------------------------------------------------
-- Call instructions
-- ---------------------------------------------------------------------------

/-- The length of a BSR or JSR in bytes; not of JSR @ER7, which jumps to the
stack. -/
def Instr.callLength : Instr → Option (BitVec 16)
  | .bsr8 _ => some 2
  | .bsr16 _ => some 4
  | .jsrInd er => if regIdx er = regIdx SP then none else some 2
  | .jsrAbs _ => some 4
  | _ => none

def Instr.callTarget (s : Cpu) : Instr → BitVec 16
  | .bsr8 disp => s.pc + 2 + disp.signExtend 16
  | .bsr16 disp => s.pc + 4 + disp
  | .jsrInd er => maskAddress (getReg32 s.registers er)
  | .jsrAbs address => maskAddress address
  | _ => s.pc

def Cpu.stackPointer (s : Cpu) : BitVec 32 := getReg32 s.registers SP

theorem stackPointer_setReg32 (s : Cpu) (v : BitVec 32) :
    Cpu.stackPointer { s with registers := setReg32 s.registers SP v } = v := by
  simp [Cpu.stackPointer, getReg32, setReg32]

theorem execute_call (saved : BitVec 16) (savedFlags : Flags) (s : Cpu)
    (h : i.callLength = some length) :
    ∃ cpu, execute saved savedFlags s i = .ok cpu ∧ cpu.addPc 2 = { s with
      pc := i.callTarget s
      registers := setReg32 s.registers SP (s.stackPointer - 2)
      memory := setMemory16 s.memory (s.stackPointer - 2) (s.pc + length) } := by
  have hpush (value : BitVec 16) : s.push16 value = { s with
      registers := setReg32 s.registers SP (s.stackPointer - 2)
      memory := setMemory16 s.memory (s.stackPointer - 2) value } := by
    simp [Cpu.push16, Cpu.stackPointer, getReg32, setReg32]
  cases i with
  | bsr8 disp =>
    cases h
    refine ⟨_, rfl, ?_⟩
    simp only [Cpu.bsr8, hpush, Cpu.addPc, Instr.callTarget]
    congr 1
    bv_omega
  | bsr16 disp =>
    cases h
    refine ⟨_, rfl, ?_⟩
    simp only [Cpu.bsr16, hpush, Cpu.addPc, Instr.callTarget]
    congr 1
    bv_omega
  | jsrInd er =>
    change (if regIdx er = regIdx SP then none else some 2) = some length at h
    by_cases her : regIdx er = regIdx SP
    · rw [if_pos her] at h
      cases h
    rw [if_neg her] at h
    cases h
    have hreg : getReg32 (setReg32 s.registers SP (s.stackPointer - 2)) er =
        getReg32 s.registers er := Function.update_of_ne her _ _
    refine ⟨_, rfl, ?_⟩
    simp only [Cpu.jsrInd, Cpu.jmpInd, hpush, hreg, Cpu.addPc, Instr.callTarget, maskAddress]
    congr 1
    bv_omega
  | jsrAbs address =>
    cases h
    refine ⟨_, rfl, ?_⟩
    simp only [Cpu.jsrAbs, Cpu.jmpAbs, hpush, Cpu.addPc, Instr.callTarget, maskAddress]
    congr 1
    bv_omega
  | _ => cases h

theorem execute_rts (saved : BitVec 16) (savedFlags : Flags) (s : Cpu) :
    ∃ cpu, execute saved savedFlags s .rts = .ok cpu ∧ cpu.addPc 2 = { s with
      pc := getMemory16 s.memory s.stackPointer
      registers := setReg32 s.registers SP (s.stackPointer + 2) } := by
  refine ⟨_, rfl, ?_⟩
  simp only [Cpu.rts, Cpu.addPc, Cpu.stackPointer]
  congr 1
  bv_omega

-- ---------------------------------------------------------------------------
-- Open calls
-- ---------------------------------------------------------------------------

/-- An open call: the address of the instruction after it, and SP before it. -/
structure Frame where
  returnAddress : BitVec 16
  sp : BitVec 32
  deriving DecidableEq, Repr

def Frame.slot (frame : Frame) : BitVec 16 := maskAddress (frame.sp - 2)

/-- The stack from SP on holds the return addresses, the last call first. -/
def Layout (memory : Memory) : BitVec 32 → List Frame → Prop
  | _, [] => True
  | sp, frame :: frames =>
    frame.sp = sp + 2 ∧ getMemory16 memory sp = frame.returnAddress ∧
      Layout memory frame.sp frames

def SameSlots (m m' : Memory) (frames : List Frame) : Prop :=
  ∀ frame ∈ frames, m' frame.slot = m frame.slot ∧ m' (frame.slot + 1) = m (frame.slot + 1)

theorem Layout.congr {frames : List Frame} (h : Layout m sp frames)
    (hsame : SameSlots m m' frames) : Layout m' sp frames := by
  induction frames generalizing sp with
  | nil => trivial
  | cons frame frames ih =>
    obtain ⟨hsp, hreturn, hrest⟩ := h
    refine ⟨hsp, ?_, ih hrest fun f hf => hsame f (List.mem_cons_of_mem _ hf)⟩
    obtain ⟨hhi, hlo⟩ := hsame frame List.mem_cons_self
    have hslot : frame.slot = maskAddress sp := by
      rw [Frame.slot, hsp, BitVec.add_sub_cancel]
    rw [hslot] at hhi hlo
    rw [← hreturn, getMemory16, getMemory16, hhi, hlo]

theorem Layout.slot_eq {frames : List Frame} (h : Layout m sp frames) (hf : frame ∈ frames) :
    ∃ k < frames.length, frame.slot = maskAddress sp + BitVec.ofNat 16 (2 * k) := by
  induction frames generalizing sp with
  | nil => cases hf
  | cons first frames ih =>
    obtain ⟨hsp, -, hrest⟩ := h
    rcases List.mem_cons.mp hf with rfl | hf
    · refine ⟨0, by simp, ?_⟩
      rw [Frame.slot, hsp, BitVec.add_sub_cancel]
      exact (BitVec.add_zero _).symm
    · obtain ⟨k, hk, hslot⟩ := ih hrest hf
      refine ⟨k + 1, by simpa using hk, ?_⟩
      rw [hslot, hsp]
      unfold maskAddress
      bv_omega

theorem Layout.push {frames : List Frame} (h : Layout m sp frames) (hdepth : frames.length < 32768)
    (value : BitVec 16) : SameSlots m (setMemory16 m (sp - 2) value) frames := by
  intro frame hf
  obtain ⟨k, hk, hslot⟩ := h.slot_eq hf
  have hmask : maskAddress (sp - 2) = maskAddress sp - 2 := by
    unfold maskAddress
    bv_omega
  rw [hslot]
  refine ⟨setMemory16_ne _ _ ?_ ?_, setMemory16_ne _ _ ?_ ?_⟩
  all_goals
    rw [hmask]
    bv_omega

theorem Layout.call {frames : List Frame} (h : Layout m sp frames) (hdepth : frames.length < 32768)
    (returnAddress : BitVec 16) :
    Layout (setMemory16 m (sp - 2) returnAddress) (sp - 2) (⟨returnAddress, sp⟩ :: frames) :=
  ⟨(BitVec.sub_add_cancel _ _).symm, getMemory16_setMemory16 _ _ _, h.congr (h.push hdepth _)⟩

-- ---------------------------------------------------------------------------
-- Nested calls
-- ---------------------------------------------------------------------------

inductive CallEvent
  | call
  | ret
  /-- An instruction that is neither. -/
  | other
  deriving DecidableEq, Repr

/-- An instruction phase of a well-nested sequence, with the open calls. -/
inductive CallStep : Walker × List Frame → CallEvent → Walker × List Frame → Prop
  | call {s t : Walker} {frames : List Frame} {length : BitVec 16} (hpc : Walker.HookFree s.pc)
      (hcall : s.fetch.callLength = some length) (hdepth : frames.length < 32768)
      (hphase : s.instructionPhase = .ok t) :
      CallStep (s, frames) .call (t, ⟨s.pc + length, s.stackPointer⟩ :: frames)
  | ret {s t : Walker} {frame : Frame} {frames : List Frame} (hpc : Walker.HookFree s.pc)
      (hrts : s.fetch = .rts) (hphase : s.instructionPhase = .ok t) :
      CallStep (s, frame :: frames) .ret (t, frames)
  | other {s t : Walker} {frames : List Frame} (hpc : Walker.HookFree s.pc)
      (hphase : s.instructionPhase = .ok t) (hsp : t.stackPointer = s.stackPointer)
      (hslots : SameSlots s.memory t.memory frames) : CallStep (s, frames) .other (t, frames)

namespace Walker

theorem call_phase {s : Walker} (hpc : HookFree s.pc) (hcall : s.fetch.callLength = some length) :
    ∃ t, s.instructionPhase = .ok t ∧ t.pc = s.fetch.callTarget s.toCpu ∧
      t.stackPointer = s.stackPointer - 2 ∧
      t.memory = setMemory16 s.memory (s.stackPointer - 2) (s.pc + length) := by
  obtain ⟨cpu, hexec, hcpu⟩ := execute_call s.interruptSavedAddress s.interruptSavedFlags s.toCpu
    hcall
  obtain ⟨t, ht, htcpu⟩ := instructionPhase_of_execute hpc hexec
  rw [hcpu] at htcpu
  refine ⟨t, ht, by rw [htcpu], ?_, by rw [htcpu]⟩
  rw [htcpu]
  exact stackPointer_setReg32 { s.toCpu with pc := _, memory := _ } _

theorem rts_phase {s : Walker} (hpc : HookFree s.pc) (hrts : s.fetch = .rts) :
    ∃ t, s.instructionPhase = .ok t ∧ t.pc = getMemory16 s.memory s.stackPointer ∧
      t.stackPointer = s.stackPointer + 2 ∧ t.memory = s.memory := by
  obtain ⟨cpu, hexec, hcpu⟩ := execute_rts s.interruptSavedAddress s.interruptSavedFlags s.toCpu
  rw [← hrts] at hexec
  obtain ⟨t, ht, htcpu⟩ := instructionPhase_of_execute hpc hexec
  rw [hcpu] at htcpu
  refine ⟨t, ht, by rw [htcpu], ?_, by rw [htcpu]⟩
  rw [htcpu]
  exact stackPointer_setReg32 { s.toCpu with pc := _ } _

end Walker

def Nested (c : Walker × List Frame) : Prop := Layout c.1.memory c.1.stackPointer c.2

theorem CallStep.nested (h : CallStep c e c') (hc : Nested c) : Nested c' := by
  cases h with
  | call hpc hcall hdepth hphase =>
    obtain ⟨t, ht, -, hsp, hmemory⟩ := Walker.call_phase hpc hcall
    cases hphase.symm.trans ht
    unfold Nested at hc ⊢
    rw [hmemory, hsp]
    exact hc.call hdepth _
  | ret hpc hrts hphase =>
    obtain ⟨t, ht, -, hsp, hmemory⟩ := Walker.rts_phase hpc hrts
    cases hphase.symm.trans ht
    obtain ⟨hframe, -, hrest⟩ := hc
    unfold Nested
    rw [hmemory, hsp]
    exact hframe ▸ hrest
  | other hpc hphase hsp hslots =>
    unfold Nested
    rw [hsp]
    exact hc.congr hslots

/-- In any nesting of at most 32768 open calls among other instructions, from
any SP and PC: a call goes to its target and writes only its slot, and an RTS
goes to the instruction after its call and restores SP. -/
theorem call_return_discipline {s u : Walker} {frames : List Frame} {log : List CallEvent}
    (h : Runs CallStep (s, []) log (u, frames)) (hpc : Walker.HookFree u.pc) :
    (∀ length, u.fetch.callLength = some length →
      ∃ t, u.instructionPhase = .ok t ∧ t.pc = u.fetch.callTarget u.toCpu ∧
        t.stackPointer = u.stackPointer - 2 ∧
        ∀ a, a ≠ maskAddress (u.stackPointer - 2) → a ≠ maskAddress (u.stackPointer - 2) + 1 →
          t.memory a = u.memory a) ∧
    ∀ frame rest, frames = frame :: rest → u.fetch = .rts →
      ∃ t, u.instructionPhase = .ok t ∧ t.pc = frame.returnAddress ∧
        t.stackPointer = frame.sp ∧ t.memory = u.memory := by
  have hnested : Nested (u, frames) := h.invariant (fun _ _ _ hstep => hstep.nested) trivial
  refine ⟨fun length hcall => ?_, ?_⟩
  · obtain ⟨t, ht, htarget, hsp, hmemory⟩ := Walker.call_phase hpc hcall
    refine ⟨t, ht, htarget, hsp, fun a hhi hlo => ?_⟩
    rw [hmemory, setMemory16_ne _ _ hhi hlo]
  · rintro frame rest rfl hrts
    obtain ⟨hframe, hreturn, -⟩ := hnested
    obtain ⟨t, ht, htarget, hsp, hmemory⟩ := Walker.rts_phase hpc hrts
    exact ⟨t, ht, htarget.trans hreturn, hsp.trans hframe.symm, hmemory⟩

/-- `BSR` to an `RTS` 16 bytes ahead, with SP = 0: the slot is at 0xfffe. -/
theorem call_return_discipline_wrap :
    let s : Walker :=
      { pc := 0x100
        memory := fun a =>
          if a = 0x100 then 0x55 else if a = 0x101 then 0x0e
          else if a = 0x110 then 0x54 else if a = 0x111 then 0x70 else 0 }
    ∃ t u, s.instructionPhase = .ok t ∧ t.instructionPhase = .ok u ∧ u.pc = 0x102 ∧
      u.stackPointer = 0 := by
  intro s
  have hcall : s.fetch.callLength = some 2 := by decide
  obtain ⟨t, ht, htarget, -, hmemory⟩ :=
    (call_return_discipline (.nil (s, [])) (by decide)).1 2 hcall
  have hpc : t.pc = 0x110 := htarget.trans (by decide)
  have hrts : t.fetch = .rts := by
    have hhi : t.memory 0x110 = 0x54 := hmemory _ (by decide) (by decide)
    have hlo : t.memory 0x111 = 0x70 := hmemory _ (by decide) (by decide)
    have hword : getMemory16 t.memory (t.pc.setWidth 32) = 0x5470 := by
      rw [hpc]
      change t.memory 0x110 ++ t.memory 0x111 = (0x5470 : BitVec 16)
      rw [hhi, hlo]
      rfl
    unfold Walker.fetch
    dsimp only
    rw [hword]
    rfl
  have hrun : Runs CallStep (s, []) [.call] (t, [⟨0x102, 0⟩]) :=
    .single (.call (by decide) hcall (by decide) ht)
  obtain ⟨u, hu, hreturn, hsp, -⟩ :=
    (call_return_discipline hrun (hpc ▸ by decide)).2 _ _ rfl hrts
  exact ⟨t, u, ht, hu, hreturn, hsp⟩

end PokeStroller
