import PokeStroller.Walker.Run

/-!
# What each part of a call can touch

One lemma for each part of `runNextInstruction`: the opcode switch keeps
everything outside `Cpu` and, RTE and LDC apart, the interrupt mask; an SSU
tick keeps everything but the devices and two memory bytes; the dispatch and
the subclock keep the interrupted context or enter an interrupt.
-/

namespace PokeStroller

-- ---------------------------------------------------------------------------
-- The opcode switch
-- ---------------------------------------------------------------------------

section
variable {saved : BitVec 16} {savedFlags : Flags} {s : Cpu}

@[simp] theorem Cpu.addPc_flags (s : Cpu) (n : BitVec 16) : (s.addPc n).flags = s.flags := rfl

@[simp] theorem Cpu.loadReg_I (s : Cpu) (sz : Size) (rd : BitVec 4) (v : BitVec 32) :
    (s.loadReg sz rd v).flags.I = s.flags.I := rfl

@[simp] theorem Cpu.storeMem_I (s : Cpu) (sz : Size) (a v : BitVec 32) :
    (s.storeMem sz a v).flags.I = s.flags.I := rfl

@[simp] theorem Cpu.setBitTarget_flags (s : Cpu) (target : BitTarget) (v : Byte) :
    (s.setBitTarget target v).flags = s.flags := by
  cases target <;> rfl

theorem execute_I (i : Instr) (hrte : i ≠ .rte) (hldc : ∀ src, i ≠ .ldc src) :
    (execute saved savedFlags s i).Holds fun t => t.flags.I = s.flags.I := by
  cases i with
  | rte => exact absurd rfl hrte
  | ldc src => exact absurd rfl (hldc src)
  | movAbs16Load sz address rd =>
    simp only [execute, Cpu.movAbs16Load, Outcome.holds_ok]
    split <;> rfl
  | movAbs16Store sz rs address =>
    simp only [execute, Cpu.movAbs16Store, Outcome.holds_ok]
    split
    · rfl
    · split <;> rfl
  | divxuB rs rd => simp only [execute, Cpu.divxuB]; split <;> trivial
  | divxuW rs rd => simp only [execute, Cpu.divxuW]; split <;> trivial
  | divxsB rs rd => simp only [execute, Cpu.divxsB]; split <;> trivial
  | divxsW rs rd =>
    simp only [execute, Cpu.divxsW]
    split
    · trivial
    · split <;> trivial
  | shift op sz rd => cases op <;> rfl
  | bcc8 cc disp => simp only [execute, Cpu.bcc8, Outcome.holds_ok]; split <;> rfl
  | bcc16 cc disp =>
    simp only [execute, Cpu.bcc16, Outcome.holds_ok]
    split
    · rfl
    · split <;> rfl
  | bset bit target =>
    simp only [execute, Cpu.bset]
    split
    · trivial
    · simp
  | bclr bit target =>
    simp only [execute, Cpu.bclr]
    split
    · trivial
    · simp
  | bnotInd bit rd => simp [execute, Cpu.bnotInd]
  | bstInd bit rd => simp [execute, Cpu.bstInd]
  | _ => rfl

/-- How the switch can stop: at a missing opcode, with nothing changed but the
`pc` of one kind of them, or with a fault that is no device's. -/
theorem execute_stops (saved : BitVec 16) (savedFlags : Flags) (s : Cpu) (i : Instr) :
    (execute saved savedFlags s i).Stops
      (fun t => t = { s with pc := t.pc } ∧ (i ≠ .unsupported2 → t.pc = s.pc))
      fun e => e = .divisionByZero ∨ e = .divisionOverflow ∨ e = .shiftCount := by
  cases i with
  | divxuB rs rd => simp only [execute, Cpu.divxuB]; split <;> simp
  | divxuW rs rd => simp only [execute, Cpu.divxuW]; split <;> simp
  | divxsB rs rd => simp only [execute, Cpu.divxsB]; split <;> simp
  | divxsW rs rd =>
    simp only [execute, Cpu.divxsW]
    split
    · simp
    · split <;> simp
  | bset bit target => simp only [execute, Cpu.bset]; split <;> simp
  | bclr bit target => simp only [execute, Cpu.bclr]; split <;> simp
  | unsupported => exact ⟨rfl, fun _ => rfl⟩
  | unsupported2 => exact ⟨rfl, fun h => absurd rfl h⟩
  | _ => trivial

end

namespace Walker

theorem opcodeSwitch_frame (s : Walker) (i : Instr) :
    (s.opcodeSwitch i).Holds fun t => t = { s with toCpu := t.toCpu } := by
  unfold opcodeSwitch
  cases execute s.interruptSavedAddress s.interruptSavedFlags s.toCpu i <;> first | rfl | trivial

-- ---------------------------------------------------------------------------
-- The instruction phase
-- ---------------------------------------------------------------------------

theorem keyHook_eq (s : Walker) :
    ∃ queue memory, s.keyHook = { s with inputQueue := queue, memory := memory } ∧
      ∀ a, a ≠ 0xffde → memory a = s.memory a := by
  unfold keyHook
  split
  · exact ⟨_, _, rfl, fun a h => setMemory8_ne _ h _⟩
  · exact ⟨_, _, rfl, fun _ _ => rfl⟩

theorem wattsHook_eq (s : Walker) :
    ∃ memory, s.wattsHook = { s with memory := memory } ∧
      ∀ a, a ≠ 0xf78e → a ≠ 0xf78f → memory a = s.memory a := by
  unfold wattsHook
  split
  · exact ⟨_, rfl, fun a h h' => (Function.update_of_ne h' _ _).trans (Function.update_of_ne h _ _)⟩
  · exact ⟨_, rfl, fun _ _ _ => rfl⟩

theorem hooks_eq (s : Walker) :
    ∃ queue memory, s.keyHook.wattsHook = { s with inputQueue := queue, memory := memory } ∧
      ∀ a, a ≠ 0xffde → a ≠ 0xf78e → a ≠ 0xf78f → memory a = s.memory a := by
  obtain ⟨queue, memory, hk, hm⟩ := s.keyHook_eq
  obtain ⟨memory', hw, hm'⟩ := s.keyHook.wattsHook_eq
  refine ⟨queue, memory', ?_, fun a h₁ h₂ h₃ => ?_⟩
  · rw [hw, hk]
  · rw [hm' a h₂ h₃, hk]
    exact hm a h₁

def cleanBuffer (selected : Bool) (buffer : EepromBuffer) : EepromBuffer :=
  if selected then buffer else { buffer with state := .empty, offset := 0 }

theorem ssuCleanup_eq (s : Walker) :
    ∃ buffer, s.ssuCleanup = { s with
      accel := { s.accel with buffer := buffer }
      eeprom := { s.eeprom with buffer := cleanBuffer s.eepromSelected s.eeprom.buffer } } := by
  unfold ssuCleanup
  dsimp only
  split
  · refine ⟨s.accel.buffer, ?_⟩
    split
    · rename_i hsel
      rw [hsel]
      rfl
    · rename_i hsel
      rw [Bool.not_eq_true] at hsel
      rw [hsel]
      rfl
  · refine ⟨{ s.accel.buffer with state := .gettingAddress, offset := 0 }, ?_⟩
    split
    · rename_i hsel
      rw [show s.eepromSelected = true from hsel]
      rfl
    · rename_i hsel
      rw [show s.eepromSelected = false from Bool.not_eq_true _ ▸ hsel]
      rfl

theorem ssuCleanup_toCpu (s : Walker) : s.ssuCleanup.toCpu = s.toCpu := by
  obtain ⟨buffer, h⟩ := s.ssuCleanup_eq
  rw [h]

/-- A completed instruction phase: the switch ran on the state the hooks left,
and the devices saw the cleanup. -/
theorem instructionPhase_ok {s t : Walker} (h : s.instructionPhase = .ok t) :
    ∃ cpu, execute s.interruptSavedAddress s.interruptSavedFlags s.keyHook.wattsHook.toCpu
        s.keyHook.fetch = .ok cpu ∧
      t.memory = cpu.memory ∧ t.SSU = s.SSU ∧ t.lcd = s.lcd ∧
      t.accel.memory = s.accel.memory ∧
      t.eeprom = { s.eeprom with buffer := cleanBuffer t.eepromSelected s.eeprom.buffer } := by
  obtain ⟨queue, memory, hhooks, -⟩ := s.hooks_eq
  obtain ⟨u, hu, ht⟩ := Outcome.andThen_eq_ok.mp h
  obtain ⟨cpu, hcpu, rfl⟩ := Outcome.map_eq_ok.mp hu
  obtain ⟨buffer, hclean⟩ := Walker.ssuCleanup_eq { s.keyHook.wattsHook with toCpu := cpu }
  cases ht
  refine ⟨cpu, ?_, ?_⟩
  · rw [hhooks] at hcpu ⊢
    exact hcpu
  · rw [hclean, hhooks]
    exact ⟨rfl, rfl, rfl, rfl, rfl⟩

-- ---------------------------------------------------------------------------
-- One SSU tick
-- ---------------------------------------------------------------------------

/-- The state with the memory and the devices on the bus forgotten. -/
def offBus (s : Walker) : Walker :=
  { s with memory := fun _ => 0, SSU := {}, accel := {}, eeprom := {}, lcd := {} }

/-- What the SSU leaves alone: all but the devices, and in memory all but the
status and receive registers. -/
structure SsuFrame (s t : Walker) : Prop where
  offBus : t.offBus = s.offBus
  memory : ∀ a, a ≠ SSSR → a ≠ SSRDR → t.memory a = s.memory a

namespace SsuFrame

theorem refl (s : Walker) : SsuFrame s s := ⟨rfl, fun _ _ _ => rfl⟩

theorem trans {s t u : Walker} (h : SsuFrame s t) (h' : SsuFrame t u) : SsuFrame s u :=
  ⟨h'.offBus.trans h.offBus, fun a h₁ h₂ => (h'.memory a h₁ h₂).trans (h.memory a h₁ h₂)⟩

@[simp] theorem setSSSR_iff {s t : Walker} (bits : Byte) :
    SsuFrame s (t.setSSSR bits) ↔ SsuFrame s t := by
  have h : SsuFrame t (t.setSSSR bits) := ⟨rfl, fun _ h₁ _ => Function.update_of_ne h₁ _ _⟩
  have h' : SsuFrame (t.setSSSR bits) t :=
    ⟨rfl, fun _ h₁ _ => (Function.update_of_ne h₁ _ _).symm⟩
  exact ⟨fun hs => hs.trans h', fun hs => hs.trans h⟩

@[simp] theorem setSSRDR_iff {s t : Walker} (v : Byte) :
    SsuFrame s (t.setSSRDR v) ↔ SsuFrame s t := by
  have h : SsuFrame t (t.setSSRDR v) := ⟨rfl, fun _ _ h₂ => Function.update_of_ne h₂ _ _⟩
  have h' : SsuFrame (t.setSSRDR v) t :=
    ⟨rfl, fun _ _ h₂ => (Function.update_of_ne h₂ _ _).symm⟩
  exact ⟨fun hs => hs.trans h', fun hs => hs.trans h⟩

theorem devices {s t : Walker} (ho : t.offBus = s.offBus) (hm : t.memory = s.memory) :
    SsuFrame s t :=
  ⟨ho, fun _ _ _ => congrFun hm _⟩

end SsuFrame

theorem ssuProgress_frame (s : Walker) {f : Walker → Outcome Fault Walker}
    (hf : ∀ t, (f t).Holds (SsuFrame t)) : (s.ssuProgress f).Holds (SsuFrame s) := by
  unfold ssuProgress
  dsimp only
  split
  · refine (hf _).mono fun t h => SsuFrame.trans ?_ h
    exact .devices rfl rfl
  · exact SsuFrame.devices rfl rfl

theorem accelRead_frame (s : Walker) : s.accelRead.Holds (SsuFrame s) := by
  unfold accelRead
  split
  · simp only [Outcome.holds_ok, SsuFrame.setSSSR_iff]
    exact .devices rfl rfl
  · dsimp only
    split
    · trivial
    · rename_i value _
      simp only [Outcome.holds_ok, SsuFrame.setSSSR_iff]
      exact ((SsuFrame.setSSRDR_iff value).mpr (.refl s)).trans (.devices rfl rfl)

theorem accelWrite_frame (s : Walker) : s.accelWrite.Holds (SsuFrame s) := by
  unfold accelWrite
  split
  · simp only [Outcome.holds_ok, SsuFrame.setSSSR_iff]
    exact .devices rfl rfl
  · dsimp only
    split
    · trivial
    · simp only [Outcome.holds_ok, SsuFrame.setSSSR_iff]
      exact .devices rfl rfl

theorem eepromReadStep_frame (s : Walker) : s.eepromReadStep.Holds (SsuFrame s) := by
  unfold eepromReadStep
  dsimp only
  split
  · split
    · exact SsuFrame.devices rfl rfl
    · exact SsuFrame.devices rfl rfl
    · exact SsuFrame.refl s
  · simp [SsuFrame.refl]
  · exact SsuFrame.devices rfl rfl
  · exact SsuFrame.devices rfl rfl
  · split
    · trivial
    · rename_i value _
      simp only [Outcome.holds_ok, SsuFrame.setSSSR_iff]
      exact ((SsuFrame.setSSRDR_iff value).mpr (.refl s)).trans (.devices rfl rfl)

theorem eepromWriteStep_frame (s : Walker) : s.eepromWriteStep.Holds (SsuFrame s) := by
  unfold eepromWriteStep
  dsimp only
  split
  · split
    · simp only [Outcome.holds_ok, SsuFrame.setSSSR_iff]
      exact .devices rfl rfl
    · exact SsuFrame.devices rfl rfl
    · exact SsuFrame.refl s
  · exact SsuFrame.devices rfl rfl
  · exact SsuFrame.devices rfl rfl
  · split
    · trivial
    · simp only [Outcome.holds_ok, SsuFrame.setSSSR_iff]
      exact .devices rfl rfl
  · exact SsuFrame.refl s

theorem eepromRead_frame (s : Walker) : s.eepromRead.Holds (SsuFrame s) :=
  s.ssuProgress_frame fun t => (eepromReadStep_frame t).andThen (fun _ h => h)
    fun _ h => by simpa using h

theorem eepromWrite_frame (s : Walker) : s.eepromWrite.Holds (SsuFrame s) :=
  s.ssuProgress_frame fun t => (eepromWriteStep_frame t).andThen (fun _ h => h)
    fun _ h => by simpa using h

theorem lcdData_frame (s : Walker) : s.lcdData.Holds (SsuFrame s) := by
  refine s.ssuProgress_frame fun t => ?_
  split
  · trivial
  · simp only [Outcome.holds_ok, SsuFrame.setSSSR_iff]
    exact .devices rfl rfl

theorem lcdCommand_frame (s : Walker) : SsuFrame s s.lcdCommand := by
  simp only [lcdCommand, SsuFrame.setSSSR_iff]
  exact .devices rfl rfl

theorem ssuTransmitReceive_frame (s : Walker) : s.ssuTransmitReceive.Holds (SsuFrame s) := by
  unfold ssuTransmitReceive
  split
  · exact s.accelRead_frame
  · split
    · exact s.eepromRead_frame
    · exact SsuFrame.refl s

theorem ssuTransmit_frame (s : Walker) : s.ssuTransmit.Holds (SsuFrame s) := by
  have h₁ : (if s.accelSelected then s.accelWrite else .ok s).Holds (SsuFrame s) := by
    split
    · exact s.accelWrite_frame
    · exact SsuFrame.refl s
  refine h₁.andThen (fun _ h => h) fun t ht => ?_
  have h₂ : (if t.eepromSelected then t.eepromWrite else .ok t).Holds (SsuFrame t) := by
    split
    · exact t.eepromWrite_frame
    · exact SsuFrame.refl t
  refine (h₂.mono fun _ h => ht.trans h).andThen (fun _ h => h) fun u hu => ?_
  split
  · exact u.lcdData_frame.mono fun _ h => hu.trans h
  · split
    · exact hu.trans u.lcdCommand_frame
    · exact hu

theorem ssuTick_frame (s : Walker) : s.ssuTick.Holds (SsuFrame s) := by
  have h₀ : SsuFrame s (if (s.memory SSER).has TE then s else s.setSSSR TDRE) := by
    split
    · exact .refl s
    · simp [SsuFrame.refl]
  unfold ssuTick
  generalize (if (s.memory SSER).has TE then s else s.setSSSR TDRE) = t at h₀
  dsimp only
  split
  · split
    · exact h₀
    · exact t.ssuTransmitReceive_frame.mono fun _ h => h₀.trans h
  · split
    · split
      · exact h₀
      · exact t.ssuTransmit_frame.mono fun _ h => h₀.trans h
    · split <;> exact h₀

-- ---------------------------------------------------------------------------
-- The dispatch
-- ---------------------------------------------------------------------------

theorem interruptHandling_cases (s : Walker) :
    s.interruptHandling = s ∨
    (s.flags.I = false ∧ ∃ vector queue,
      s.interruptHandling = { s.enterInterrupt vector with inputQueue := queue }) := by
  unfold interruptHandling
  cases hI : s.flags.I with
  | true => exact .inl rfl
  | false =>
    simp only [Bool.false_eq_true, ↓reduceIte]
    repeat' split
    all_goals first
      | exact .inl rfl
      | exact .inr ⟨trivial, _, _, rfl⟩

-- ---------------------------------------------------------------------------
-- One subclock
-- ---------------------------------------------------------------------------

def nextCount (s : Walker) : BitVec 16 :=
  let count := getMemory16 s.memory TCNT_ADDRESS
  if (s.memory TMRW).has CTS then count + 1 else count

/-- The next subclock ends in the handler: Timer W runs, its count matches GRA,
and the interrupt is enabled and not masked. -/
structure TimerWInterrupts (s : Walker) : Prop where
  on : s.TimerW.on = true
  count : s.nextCount = getMemory16 s.memory 0xf0f8
  enabled : (s.memory TIERW).has 0x1 = true
  unmasked : s.flags.I = false

def timerWRegisters : List (BitVec 16) := [TMRW, TIERW, 0xf0f6, 0xf0f7, 0xf0f8, 0xf0f9]

def timerRegisters : List (BitVec 16) := [TCB1, TSRW, 0xf0f6, 0xf0f7, IRQ_IRR2]

theorem TimerWInterrupts.of_same {s t : Walker} (h : t.TimerWInterrupts)
    (hon : t.TimerW = s.TimerW) (hflags : t.flags = s.flags)
    (hm : ∀ a ∈ timerWRegisters, t.memory a = s.memory a) : s.TimerWInterrupts := by
  have word (a : BitVec 32) (ha : maskAddress a ∈ timerWRegisters)
      (ha' : maskAddress a + 1 ∈ timerWRegisters) :
      getMemory16 t.memory a = getMemory16 s.memory a := by
    unfold getMemory16
    rw [hm _ ha, hm _ ha']
  have hcount : t.nextCount = s.nextCount := by
    unfold nextCount
    rw [hm TMRW (by decide), word _ (by decide) (by decide)]
  refine ⟨hon ▸ h.on, ?_, ?_, hflags ▸ h.unmasked⟩
  · rw [← hcount, ← word _ (by decide) (by decide)]
    exact h.count
  · rw [← hm TIERW (by decide)]
    exact h.enabled

theorem runTimerB_eq (s : Walker) :
    ∃ memory, s.runTimerB = { s with memory := memory } ∧
      ∀ a, a ≠ TCB1 → a ≠ IRQ_IRR2 → memory a = s.memory a := by
  unfold runTimerB
  split
  · dsimp only
    split
    · refine ⟨_, rfl, fun a h h' => ?_⟩
      rw [Function.update_of_ne h]
      exact (Function.update_of_ne h' _ _).trans (Function.update_of_ne h _ _)
    · exact ⟨_, rfl, fun a h _ => Function.update_of_ne h _ _⟩
  · exact ⟨_, rfl, fun _ _ _ => rfl⟩

theorem clearCount_eq (s : Walker) :
    ∃ memory, (if (s.memory TCRW).has CCLR then
      { s with memory := setMemory16 s.memory TCNT_ADDRESS 0 } else s) =
      { s with memory := memory } ∧ ∀ a, a ≠ 0xf0f6 → a ≠ 0xf0f7 → memory a = s.memory a := by
  split
  · exact ⟨_, rfl, fun _ h h' => setMemory16_ne _ _ h h'⟩
  · exact ⟨_, rfl, fun _ _ _ => rfl⟩

theorem count_eq (s : Walker) :
    ∃ memory, (if (s.memory TMRW).has CTS then
      let count := getMemory16 s.memory TCNT_ADDRESS + 1
      { s with memory := setMemory16 s.memory TCNT_ADDRESS count } else s) =
      { s with memory := memory } ∧ getMemory16 memory TCNT_ADDRESS = s.nextCount ∧
      ∀ a, a ≠ 0xf0f6 → a ≠ 0xf0f7 → memory a = s.memory a := by
  unfold nextCount
  split
  · exact ⟨_, rfl, getMemory16_setMemory16 _ _ _, fun _ h h' => setMemory16_ne _ _ h h'⟩
  · exact ⟨_, rfl, rfl, fun _ _ _ => rfl⟩

theorem compareMatchA_eq (s : Walker) :
    ∃ memory, (∀ a, a ≠ TSRW → a ≠ 0xf0f6 → a ≠ 0xf0f7 → memory a = s.memory a) ∧
      (s.compareMatchA = { s with memory := memory } ∨
        (s.memory TIERW).has 0x1 = true ∧ s.flags.I = false ∧
          s.compareMatchA = { s.enterInterrupt VECTOR_TIMER_W with memory := memory }) := by
  obtain ⟨memory, hclear, hm⟩ := s.clearCount_eq
  have hset : ∀ a, a ≠ TSRW → a ≠ 0xf0f6 → a ≠ 0xf0f7 →
      Function.update memory TSRW (memory TSRW ||| 0x1) a = s.memory a :=
    fun a h h₁ h₂ => (Function.update_of_ne h _ _).trans (hm a h₁ h₂)
  refine ⟨_, hset, ?_⟩
  unfold compareMatchA
  rw [hclear]
  dsimp only
  split
  · rename_i hentry
    rw [Bool.and_eq_true, Bool.not_eq_true'] at hentry
    refine .inr ⟨?_, hentry.2, rfl⟩
    rw [← hset TIERW (by decide) (by decide) (by decide)]
    exact hentry.1
  · exact .inl rfl

theorem runTimerW_eq (s : Walker) :
    ∃ memory, (∀ a, a ≠ TSRW → a ≠ 0xf0f6 → a ≠ 0xf0f7 → memory a = s.memory a) ∧
      (s.runTimerW = { s with memory := memory } ∨
        s.TimerWInterrupts ∧
          s.runTimerW = { s.enterInterrupt VECTOR_TIMER_W with memory := memory }) := by
  obtain ⟨memory, hcount, hnext, hm⟩ := s.count_eq
  have hgra : getMemory16 memory 0xf0f8 = getMemory16 s.memory 0xf0f8 := by
    unfold getMemory16
    rw [hm _ (by decide) (by decide), hm _ (by decide) (by decide)]
  unfold runTimerW
  split
  · rename_i hon
    rw [hcount]
    dsimp only
    rw [hnext, hgra]
    split
    · rename_i hmatch
      obtain ⟨memory', hm', h⟩ := compareMatchA_eq { s with memory := memory }
      refine ⟨memory', fun a h h₁ h₂ => (hm' a h h₁ h₂).trans (hm a h₁ h₂), ?_⟩
      rcases h with h | ⟨henabled, hI, h⟩
      · exact .inl h
      · have htierw : memory TIERW = s.memory TIERW := hm _ (by decide) (by decide)
        exact .inr ⟨⟨hon, hmatch, htierw ▸ henabled, hI⟩, h⟩
    · exact ⟨memory, fun a _ => hm a, .inl rfl⟩
  · exact ⟨s.memory, fun _ _ _ _ => rfl, .inl rfl⟩

/-- All a subclock does: the timers count and are latched, and Timer W may
interrupt. -/
theorem runSubClock_eq (s : Walker) :
    ∃ memory timerB timerW, (∀ a ∉ timerRegisters, memory a = s.memory a) ∧
      (s.runSubClock = { s with memory := memory, TimerB := timerB, TimerW := timerW } ∨
        s.TimerWInterrupts ∧
          s.runSubClock = { s.enterInterrupt VECTOR_TIMER_W with
            memory := memory, TimerB := timerB, TimerW := timerW }) := by
  obtain ⟨memory, hB, hm⟩ := s.runTimerB_eq
  obtain ⟨memory', hm', hW⟩ := runTimerW_eq { s with memory := memory }
  have outside : ∀ a ∉ timerRegisters, memory' a = s.memory a := by
    intro a ha
    simp only [timerRegisters, List.mem_cons, List.not_mem_nil, or_false, not_or] at ha
    exact (hm' a ha.2.1 ha.2.2.1 ha.2.2.2.1).trans (hm a ha.1 ha.2.2.2.2)
  have hlatch : s.runSubClock = { s.runTimerB.runTimerW with
      TimerB := s.runSubClock.TimerB, TimerW := s.runSubClock.TimerW } := rfl
  refine ⟨memory', s.runSubClock.TimerB, s.runSubClock.TimerW, outside, ?_⟩
  rcases hW with h | ⟨hmatch, h⟩
  · left
    refine hlatch.trans ?_
    rw [hB, h]
  · right
    have hbefore : s.TimerWInterrupts := by
      refine hmatch.of_same rfl rfl fun a ha => hm a ?_ ?_
      · exact ne_of_mem_of_not_mem ha (by decide)
      · exact ne_of_mem_of_not_mem ha (by decide)
    refine ⟨hbefore, hlatch.trans ?_⟩
    rw [hB, h]
    rfl

-- ---------------------------------------------------------------------------
-- Dispatch, subclock and host events: the bus
-- ---------------------------------------------------------------------------

def busRegisters : List (BitVec 16) := [PORT1, PORT9, SSER, SSSR, SSRDR, SSTDR]

structure SameBus (s t : Walker) : Prop where
  registers : ∀ a ∈ busRegisters, t.memory a = s.memory a
  SSU : t.SSU = s.SSU
  accel : t.accel = s.accel
  eeprom : t.eeprom = s.eeprom
  lcd : t.lcd = s.lcd

namespace SameBus

theorem refl (s : Walker) : SameBus s s := ⟨fun _ _ => rfl, rfl, rfl, rfl, rfl⟩

theorem trans {s t u : Walker} (h : SameBus s t) (h' : SameBus t u) : SameBus s u where
  registers a ha := (h'.registers a ha).trans (h.registers a ha)
  SSU := h'.SSU.trans h.SSU
  accel := h'.accel.trans h.accel
  eeprom := h'.eeprom.trans h.eeprom
  lcd := h'.lcd.trans h.lcd

theorem write (s : Walker) {a : BitVec 16} (ha : a ∉ busRegisters) (v : Byte) :
    SameBus s { s with memory := Function.update s.memory a v } :=
  ⟨fun _ hb => Function.update_of_ne (ne_of_mem_of_not_mem hb ha) _ _, rfl, rfl, rfl, rfl⟩

theorem orMemory (s : Walker) {a : BitVec 16} (ha : a ∉ busRegisters) (bits : Byte) :
    SameBus s (s.orMemory a bits) :=
  .write s ha _

theorem ite {c : Prop} [Decidable c] {s t u : Walker} (ht : SameBus s t) (hu : SameBus s u) :
    SameBus s (if c then t else u) := by
  split
  · exact ht
  · exact hu

end SameBus

theorem interruptHandling_sameBus (s : Walker) : SameBus s s.interruptHandling := by
  rcases s.interruptHandling_cases with h | ⟨-, vector, queue, h⟩
  · rw [h]
    exact .refl s
  · rw [h]
    exact ⟨fun _ _ => rfl, rfl, rfl, rfl, rfl⟩

theorem runSubClock_sameBus (s : Walker) : SameBus s s.runSubClock := by
  obtain ⟨memory, timerB, timerW, hm, h⟩ := s.runSubClock_eq
  have apart : busRegisters.all (· ∉ timerRegisters) = true := by decide
  have hbus : ∀ a ∈ busRegisters, memory a = s.memory a :=
    fun a ha => hm a (of_decide_eq_true (List.all_eq_true.mp apart a ha))
  rcases h with h | ⟨-, h⟩
  · rw [h]
    exact ⟨hbus, rfl, rfl, rfl, rfl⟩
  · rw [h]
    exact ⟨hbus, rfl, rfl, rfl, rfl⟩

theorem skipHook_eq {s t : Walker} (h : s.skipHook = some t) :
    t = { s with pc := t.pc, registers := t.registers } := by
  unfold skipHook at h
  split at h
  · cases h; rfl
  split at h
  · cases h; rfl
  split at h
  · cases h; rfl
  · cases h

theorem skipHook_sameBus {s t : Walker} (h : s.skipHook = some t) : SameBus s t := by
  rw [skipHook_eq h]
  exact ⟨fun _ _ => rfl, rfl, rfl, rfl, rfl⟩

theorem setKeys_sameBus (s : Walker) (input : Byte) : SameBus s (s.setKeys input) := by
  exact .ite (.orMemory s (by decide) _) ⟨fun _ _ => rfl, rfl, rfl, rfl, rfl⟩

theorem quarterRTCInterrupt_sameBus (s : Walker) : SameBus s s.quarterRTCInterrupt := by
  have request (t : Walker) (bits : Byte) : SameBus t (t.orMemory RTCFLG bits) :=
    .orMemory t (by decide) bits
  let t := { s.orMemory RTCFLG SEIFG025 with quartersEllapsed := s.quartersEllapsed + 1 }
  have quarter : SameBus s t := (request s SEIFG025).trans ⟨fun _ _ => rfl, rfl, rfl, rfl, rfl⟩
  have half : SameBus s (if t.quartersEllapsed % 2 = 0 then t.orMemory RTCFLG SEIFG05 else t) :=
    .ite (quarter.trans (request t SEIFG05)) quarter
  exact .ite (half.trans (request _ SEIFG1)) half

end Walker

end PokeStroller
