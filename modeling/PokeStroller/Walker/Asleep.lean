import PokeStroller.Walker.Transparency

/-!
# What the clock leaves alone

The clock handling of a call belongs to the devices: it writes seven bytes of
the memory, and what the program sees of itself changes only when Timer W
interrupts it. A program that is asleep therefore finds everything as it was.
-/

namespace PokeStroller

def clockRegisters : List (BitVec 16) :=
  [TCB1, SSSR, SSRDR, TSRW, 0xf0f6, 0xf0f7, IRQ_IRR2]

namespace Walker

/-- The program's registers, flags and memory are as before, but for the mask
and the clock registers. -/
structure ClockFrame (s t : Walker) : Prop where
  registers : t.registers = s.registers
  flags : { t.flags with I := s.flags.I } = s.flags
  memory : ∀ a ∉ clockRegisters, t.memory a = s.memory a

def status (s : Walker) : Context × Bool := (s.context, s.sleep)

-- ---------------------------------------------------------------------------
-- Frames
-- ---------------------------------------------------------------------------

theorem ClockFrame.trans {s t u : Walker} (h : ClockFrame s t) (h' : ClockFrame t u) : ClockFrame s u where
  registers := h'.registers.trans h.registers
  flags := (congrArg (fun f : Flags => { f with I := s.flags.I }) h'.flags).trans h.flags
  memory a ha := (h'.memory a ha).trans (h.memory a ha)

theorem SsuFrame.clockFrame {s t : Walker} (h : SsuFrame s t) : ClockFrame s t where
  registers := (congrArg (·.registers) h.offBus : t.offBus.registers = s.offBus.registers)
  flags := by rw [show t.flags = s.flags from congrArg Context.flags h.context]
  memory a ha := by
    refine h.memory a ?_ ?_
    · exact (ne_of_mem_of_not_mem (by decide) ha).symm
    · exact (ne_of_mem_of_not_mem (by decide) ha).symm

theorem SsuFrame.status {s t : Walker} (h : SsuFrame s t) : t.status = s.status :=
  (congrArg Walker.status h.offBus : t.offBus.status = s.offBus.status)

theorem runSubClock_clockFrame (s : Walker) : ClockFrame s s.runSubClock := by
  obtain ⟨memory, timerB, timerW, hm, h⟩ := s.runSubClock_eq
  have counts : timerRegisters.all (· ∈ clockRegisters) = true := by decide
  have hmem : ∀ a ∉ clockRegisters, memory a = s.memory a := by
    intro a ha
    refine hm a fun hmem => ha ?_
    exact of_decide_eq_true (List.all_eq_true.mp counts a hmem)
  rcases h with h | ⟨-, h⟩
  · rw [h]
    exact ⟨rfl, rfl, hmem⟩
  · rw [h]
    exact ⟨rfl, rfl, hmem⟩

-- ---------------------------------------------------------------------------
-- Waking
-- ---------------------------------------------------------------------------

/-- A subclock leaves the program where it is, asleep or awake, or Timer W
interrupts it. -/
theorem runSubClock_status (s : Walker) :
    s.runSubClock.status = s.status ∨
    (s.TimerWInterrupts ∧ s.runSubClock.status = (s.enterInterrupt VECTOR_TIMER_W).status) := by
  obtain ⟨memory, timerB, timerW, -, h⟩ := s.runSubClock_eq
  rcases h with h | ⟨hmatch, h⟩
  · rw [h]
    exact .inl rfl
  · rw [h]
    exact .inr ⟨hmatch, rfl⟩

theorem SsuFrame.timerWInterrupts {s t : Walker} (h : SsuFrame s t) (ht : t.TimerWInterrupts) :
    s.TimerWInterrupts := by
  refine ht.of_same ?_ (congrArg Context.flags h.context) fun a ha => h.memory a ?_ ?_
  · exact (congrArg Walker.TimerW h.offBus : t.offBus.TimerW = s.offBus.TimerW)
  · exact ne_of_mem_of_not_mem ha (by decide)
  · exact ne_of_mem_of_not_mem ha (by decide)

theorem enterInterrupt_status {s t : Walker} (h : t.status = s.status) (vector : BitVec 16) :
    (t.enterInterrupt vector).status = (s.enterInterrupt vector).status := by
  have hcontext : t.context = s.context := congrArg Prod.fst h
  have hpc : t.pc = s.pc := congrArg Context.pc hcontext
  have hflags : t.flags = s.flags := congrArg Context.flags hcontext
  unfold enterInterrupt status context
  dsimp only
  rw [hpc, hflags]

end Walker

namespace Machine

-- ---------------------------------------------------------------------------
-- The clock handling
-- ---------------------------------------------------------------------------

def SubClockDue (m : Machine) : Prop :=
  SubClockAt (m.cycleCount + 1) ∨ SubClockAt (m.cycleCount + 1 + 1)

theorem SubClockAt.next {count : BitVec 64} (h : SubClockAt count) : ¬ SubClockAt (count + 1) := by
  have hzero : count.toNat % 112 = 0 := congrArg BitVec.toNat h
  intro hnext
  have hone : (count + 1).toNat % 112 = 0 := congrArg BitVec.toNat hnext
  -- the wrap to 0 is no way out: 2 ^ 64 - 1 is no multiple of 112
  rw [BitVec.toNat_add, show (1 : BitVec 64).toNat = 1 from rfl] at hone
  omega

section
variable {m t u : Machine}

/-- The Timer W interrupt, out of the clock handling. -/
def TimerWEntered (m t : Machine) : Prop :=
  m.SubClockDue ∧ m.TimerWInterrupts ∧
    t.status = (m.toWalker.enterInterrupt VECTOR_TIMER_W).status

theorem Cycle.clockFrame (h : m.Cycle t) : Walker.ClockFrame m.toWalker t.toWalker := by
  cases h with
  | plain h => exact h.clockFrame
  | subClock _ h ht =>
    rw [← ht]
    have hcount (u : Walker) : Walker.ClockFrame u
        { u with subClockCyclesEllapsed := u.subClockCyclesEllapsed + 1 } :=
      ⟨rfl, rfl, fun _ _ => rfl⟩
    exact (h.clockFrame.trans (hcount _)).trans (Walker.runSubClock_clockFrame _)

theorem Cycle.status (h : m.Cycle t) :
    t.status = m.status ∨
    (SubClockAt (m.cycleCount + 1) ∧ m.TimerWInterrupts ∧
      t.status = (m.toWalker.enterInterrupt VECTOR_TIMER_W).status) := by
  cases h with
  | plain h => exact .inl h.status
  | @subClock u hdue h ht =>
    rw [← ht]
    rcases Walker.runSubClock_status _ with hkeep | ⟨hmatch, hentry⟩
    · exact .inl (hkeep.trans h.status)
    · have hbefore : u.TimerWInterrupts := hmatch.of_same rfl rfl fun _ _ => rfl
      exact .inr ⟨hdue, h.timerWInterrupts hbefore,
        hentry.trans (Walker.enterInterrupt_status h.status _)⟩

/-- Two cycles: at most one of them ends in a subclock. -/
theorem Cycle.two (h : m.Cycle u) (hcount : u.cycleCount = m.cycleCount + 1) (h' : u.Cycle t) :
    t.status = m.status ∨ m.TimerWEntered t := by
  rcases h.status with hkeep | ⟨hdue, hmatch, hentry⟩
  · rcases h'.status with hkeep' | ⟨hdue', hmatch', hentry'⟩
    · exact .inl (hkeep'.trans hkeep)
    · rw [hcount] at hdue'
      cases h with
      | plain h =>
        exact .inr ⟨.inr hdue', h.timerWInterrupts hmatch',
          hentry'.trans (Walker.enterInterrupt_status hkeep _)⟩
      | subClock hdue => exact absurd hdue' hdue.next
  · rcases h'.status with hkeep' | ⟨hdue', -⟩
    · exact .inr ⟨.inl hdue, hmatch, hkeep'.trans hentry⟩
    · rw [hcount] at hdue'
      exact absurd hdue' hdue.next

theorem clockHandling_frame (m : Machine) : m.clockHandling.Holds fun t =>
    Walker.ClockFrame m.toWalker t.toWalker ∧ (t.status = m.status ∨ m.TimerWEntered t) := by
  refine m.clockCycle_cycle.andThen ?_ ?_
  · rintro u ⟨hu, -⟩
    refine ⟨hu.clockFrame, hu.status.imp_right ?_⟩
    rintro ⟨hdue, hmatch, hentry⟩
    exact ⟨.inl hdue, hmatch, hentry⟩
  · rintro u ⟨hu, hcount⟩
    refine u.clockCycle_cycle.mono ?_
    rintro t ⟨ht, -⟩
    exact ⟨hu.clockFrame.trans ht.clockFrame, hu.two hcount ht⟩

end

end Machine

-- ---------------------------------------------------------------------------
-- Runs asleep
-- ---------------------------------------------------------------------------

namespace Walker

/-- The program's registers, flags, place and RAM are the same, bit for bit. -/
structure Suspended (s t : Walker) : Prop where
  registers : t.registers = s.registers
  flags : t.flags = s.flags
  pc : t.pc = s.pc
  ram : ∀ a, 0xf780 ≤ a → a ≤ 0xff7f → t.memory a = s.memory a

namespace Suspended

theorem refl (s : Walker) : Suspended s s := ⟨rfl, rfl, rfl, fun _ _ _ => rfl⟩

theorem trans {s t u : Walker} (h : Suspended s t) (h' : Suspended t u) : Suspended s u where
  registers := h'.registers.trans h.registers
  flags := h'.flags.trans h.flags
  pc := h'.pc.trans h.pc
  ram a ha ha' := (h'.ram a ha ha').trans (h.ram a ha ha')

theorem orMemory (s : Walker) (ha : ¬ (0xf780 ≤ a ∧ a ≤ 0xff7f)) (bits : Byte) :
    Suspended s (s.orMemory a bits) := by
  refine ⟨rfl, rfl, rfl, fun b hb hb' => Function.update_of_ne ?_ _ _⟩
  rintro rfl
  exact ha ⟨hb, hb'⟩

theorem ite {c : Prop} [Decidable c] {s t u : Walker} (ht : Suspended s t)
    (hu : Suspended s u) : Suspended s (if c then t else u) := by
  split
  · exact ht
  · exact hu

end Suspended

theorem setKeys_asleep {s : Walker} (input : Byte) (h : (s.setKeys input).sleep = true) :
    Suspended s (s.setKeys input) := by
  revert h
  unfold setKeys
  split
  · exact fun _ => .orMemory s (by decide) _
  · exact nofun

theorem quarterRTCInterrupt_suspended (s : Walker) : Suspended s s.quarterRTCInterrupt := by
  have request (t : Walker) (bits : Byte) : Suspended t (t.orMemory RTCFLG bits) :=
    .orMemory t (by decide) bits
  let t := { s.orMemory RTCFLG SEIFG025 with quartersEllapsed := s.quartersEllapsed + 1 }
  have quarter : Suspended s t := (request s SEIFG025).trans ⟨rfl, rfl, rfl, fun _ _ _ => rfl⟩
  have half : Suspended s (if t.quartersEllapsed % 2 = 0 then t.orMemory RTCFLG SEIFG05 else t) :=
    .ite (quarter.trans (request t SEIFG05)) quarter
  exact .ite (half.trans (request _ SEIFG1)) half

theorem interruptHandling_asleep {s : Walker} (h : s.interruptHandling.sleep = true) :
    s.interruptHandling = s := by
  rcases s.interruptHandling_cases with hkeep | ⟨-, vector, queue, hentry⟩
  · exact hkeep
  · rw [hentry] at h
    cases h

theorem clockRegisters_outside {a : BitVec 16} (h : a ∈ clockRegisters) :
    ¬ (0xf780 ≤ a ∧ a ≤ 0xff7f) := by
  simp only [clockRegisters, List.mem_cons, List.not_mem_nil, or_false] at h
  rcases h with rfl | rfl | rfl | rfl | rfl | rfl | rfl <;> decide

theorem ClockFrame.suspended {s t : Walker} (h : ClockFrame s t) (hs : t.status = s.status) :
    Suspended s t := by
  have hcontext : t.context = s.context := congrArg Prod.fst hs
  refine ⟨h.registers, congrArg Context.flags hcontext, congrArg Context.pc hcontext, ?_⟩
  exact fun a ha ha' => h.memory a fun hmem => clockRegisters_outside hmem ⟨ha, ha'⟩

end Walker

namespace Machine

/-- A step of the host that finds the program asleep and leaves it so. -/
def AsleepStep (m : Machine) (e : Event) (t : Machine) : Prop :=
  Step m e t ∧ m.sleep = true ∧ t.sleep = true

/-- A call through which the program sleeps enters no interrupt, so all it does
is the clock handling. -/
theorem call_suspended {m t : Machine} (h : m.runNextInstruction.Leaves t)
    (hm : m.sleep = true) (ht : t.sleep = true) : m.toWalker.Suspended t.toWalker := by
  rw [(Dispatches.asleep hm).run] at h
  obtain ⟨hframe, hstatus⟩ := (clockHandling_frame _).leaves h
  have hasleep : t.status = m.toWalker.interruptHandling.status := by
    rcases hstatus with hkeep | ⟨-, -, hentry⟩
    · exact hkeep
    · have hawake : t.sleep = false := congrArg Prod.snd hentry
      simp [ht] at hawake
  have hdispatch : m.toWalker.interruptHandling = m.toWalker :=
    Walker.interruptHandling_asleep ((congrArg Prod.snd hasleep).symm.trans ht)
  rw [hdispatch] at hframe hasleep
  exact hframe.suspended hasleep

theorem AsleepStep.suspended {m t : Machine} (h : AsleepStep m e t) :
    m.toWalker.Suspended t.toWalker := by
  obtain ⟨hstep, hm, ht⟩ := h
  cases hstep with
  | call h => exact call_suspended h hm ht
  | setKeys input => exact Walker.setKeys_asleep input ht
  | quarterRTCInterrupt => exact m.toWalker.quarterRTCInterrupt_suspended

/-- The clock handling of any call, completed or not, changes no register, no
flag but the mask and seven bytes of memory; the program moves, wakes or saves
its context only for an enabled and unmasked match of Timer W. A run that the
program sleeps through, host events included, loses nothing of it. -/
theorem clock_frame :
    (∀ m t : Machine, m.clockHandling.Leaves t →
      Walker.ClockFrame m.toWalker t.toWalker ∧ (t.status = m.status ∨ m.TimerWEntered t)) ∧
    ∀ (m t : Machine) (es : List Event), Runs AsleepStep m es t →
      m.toWalker.Suspended t.toWalker := by
  refine ⟨fun m t h => (clockHandling_frame m).leaves h, fun m t es h => ?_⟩
  refine h.invariant (I := fun u => m.toWalker.Suspended u.toWalker) ?_ (.refl _)
  intro s e u hstep hs
  exact hs.trans hstep.suspended

/-- A program asleep for a call, a quarter second and another call. -/
theorem clock_frame_asleep : ∃ m s t : Machine, m.Reachable ∧ m.sleep = true ∧
    m.clockHandling.Leaves s ∧ Walker.ClockFrame m.toWalker s.toWalker ∧
    Runs AsleepStep m [.call, .quarterRTCInterrupt, .call] t ∧
    m.toWalker.Suspended t.toWalker := by
  have run : ((boot [(0x02c4, [0x01, 0x80])]).calls 1).okWith (fun m => m.sleep &&
      m.clockHandling.okWith (fun _ => true) && m.runNextInstruction.okWith fun u => u.sleep &&
        (u.host (·.quarterRTCInterrupt)).sleep &&
        (u.host (·.quarterRTCInterrupt)).runNextInstruction.okWith (·.sleep)) = true := by
    decide +kernel
  obtain ⟨m, hm, h⟩ := Outcome.okWith_iff.mp run
  simp only [Bool.and_eq_true] at h
  obtain ⟨⟨hsleep, hclocks⟩, h⟩ := h
  obtain ⟨s, hs, -⟩ := Outcome.okWith_iff.mp hclocks
  obtain ⟨u, hu, h⟩ := Outcome.okWith_iff.mp h
  simp only [Bool.and_eq_true] at h
  obtain ⟨⟨husleep, hqsleep⟩, h⟩ := h
  obtain ⟨t, ht, htsleep⟩ := Outcome.okWith_iff.mp h
  have hruns : Runs AsleepStep m [.call, .quarterRTCInterrupt, .call] t :=
    .cons ⟨.call (Outcome.leaves_of_ok hu), hsleep, husleep⟩
      (.cons ⟨.quarterRTCInterrupt u, husleep, hqsleep⟩
        (.single ⟨.call (Outcome.leaves_of_ok ht), hqsleep, htsleep⟩))
  have hleaves : m.clockHandling.Leaves s := Outcome.leaves_of_ok hs
  exact ⟨m, s, t, (reachable_boot _).calls hm, hsleep, hleaves, (clock_frame.1 m s hleaves).1,
    hruns, clock_frame.2 m t _ hruns⟩

end Machine

end PokeStroller
