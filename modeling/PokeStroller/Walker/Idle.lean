import PokeStroller.Walker.Progress

/-!
# Idling

A walker that sleeps with its timers, its SSU and its interrupts off. Nothing
but the clock runs, so it can be driven for any number of calls.
-/

namespace PokeStroller

namespace Walker

structure Idle (s : Walker) : Prop where
  sleep : s.sleep = true
  interrupts : s.memory IRQ_IENR1 = 0 ∧ s.memory IRQ_IENR2 = 0
  unit : s.memory SSER = 0
  timers : s.TimerB.on = false ∧ s.TimerW.on = false
  stopped : (s.memory TMB1).has TMB_COUNTING = false ∧ (s.memory TMRW).has CTS = false

namespace Idle

variable {s t : Walker}

theorem of_same (h : s.Idle) (hsleep : t.sleep = s.sleep) (hB : t.TimerB = s.TimerB)
    (hW : t.TimerW = s.TimerW)
    (hm : ∀ a ∈ [IRQ_IENR1, IRQ_IENR2, SSER, TMB1, TMRW], t.memory a = s.memory a) :
    t.Idle where
  sleep := hsleep.trans h.sleep
  interrupts := ⟨(hm _ (by simp)).trans h.interrupts.1, (hm _ (by simp)).trans h.interrupts.2⟩
  unit := (hm _ (by simp)).trans h.unit
  timers := ⟨hB ▸ h.timers.1, hW ▸ h.timers.2⟩
  stopped := ⟨hm TMB1 (by simp) ▸ h.stopped.1, hm TMRW (by simp) ▸ h.stopped.2⟩

theorem orMemory (h : s.Idle) (ha : a ∉ [IRQ_IENR1, IRQ_IENR2, SSER, TMB1, TMRW])
    (bits : Byte) : (s.orMemory a bits).Idle := by
  refine h.of_same rfl rfl rfl fun b hb => ?_
  exact Function.update_of_ne (ne_of_mem_of_not_mem hb ha) _ _

theorem ite {c : Prop} [Decidable c] (hs : s.Idle) (ht : t.Idle) :
    (if c then s else t).Idle := by
  split
  · exact hs
  · exact ht

theorem interruptHandling (h : s.Idle) : s.interruptHandling = s := by
  unfold Walker.interruptHandling
  simp [h.interrupts, Byte.has]

theorem runSubClock (h : s.Idle) : s.runSubClock = s := by
  have hB : s.runTimerB = s := by simp [runTimerB, h.timers]
  have hW : s.runTimerW = s := by simp [runTimerW, h.timers]
  obtain ⟨⟨registers, flags, pc, memory, sleep, ⟨on, value⟩⟩, queue, quarters, count, ⟨onW⟩⟩ := s
  have hoff : on = false ∧ onW = false := h.timers
  have hstop : (memory TMB1).has TMB_COUNTING = false ∧ (memory TMRW).has CTS = false := h.stopped
  unfold Walker.runSubClock
  rw [hB, hW]
  simp [hoff, hstop]

theorem setSSSR (h : s.Idle) (bits : Byte) : (s.setSSSR bits).Idle :=
  h.of_same rfl rfl rfl fun b hb =>
    Function.update_of_ne (ne_of_mem_of_not_mem hb (by decide)) _ _

theorem ssuTick (h : s.Idle) : s.ssuTick = .ok (s.setSSSR TDRE) := by
  have hunit : (s.setSSSR TDRE).memory SSER = 0 := (h.setSSSR TDRE).unit
  unfold Walker.ssuTick
  simp [h.unit, hunit, Byte.has, TE, RE]

theorem quarterRTCInterrupt (h : s.Idle) : s.quarterRTCInterrupt.Idle := by
  have request {t : Walker} (ht : t.Idle) (bits : Byte) : (t.orMemory RTCFLG bits).Idle :=
    ht.orMemory (by decide) bits
  let t := { s.orMemory RTCFLG SEIFG025 with quartersEllapsed := s.quartersEllapsed + 1 }
  have quarter : t.Idle := (request h SEIFG025).of_same rfl rfl rfl fun _ _ => rfl
  have half : (if t.quartersEllapsed % 2 = 0 then t.orMemory RTCFLG SEIFG05 else t).Idle :=
    .ite (request quarter SEIFG05) quarter
  exact .ite (request half SEIFG1) half

end Idle

end Walker

namespace Machine

variable {m : Machine}

theorem clockCycle_idle (h : m.Idle) : ∃ t, m.clockCycle = .ok t ∧ t.Idle := by
  have hticked : ∃ s, s.Idle ∧ (if (m.cycleCount + 1) % 4 = 0 then
      m.toWalker.ssuTick.map fun s => { m with toWalker := s, cycleCount := m.cycleCount + 1 }
      else .ok { m with cycleCount := m.cycleCount + 1 }) =
        .ok { m with toWalker := s, cycleCount := m.cycleCount + 1 } := by
    split
    · refine ⟨m.toWalker.setSSSR TDRE, h.setSSSR TDRE, ?_⟩
      rw [h.ssuTick]
      rfl
    · exact ⟨m.toWalker, h, rfl⟩
  obtain ⟨s, hs, hticked⟩ := hticked
  unfold clockCycle
  dsimp only
  rw [hticked]
  dsimp only [Outcome.andThen_ok]
  split
  · refine ⟨_, rfl, ?_⟩
    have hcounted : { s with subClockCyclesEllapsed := s.subClockCyclesEllapsed + 1 }.Idle :=
      hs.of_same rfl rfl rfl fun _ _ => rfl
    rw [hcounted.runSubClock]
    exact hcounted
  · exact ⟨_, rfl, hs⟩

theorem call_idle (h : m.Idle) :
    ∃ t, m.runNextInstruction = .ok t ∧ t.Idle ∧ t.cycleCount = m.cycleCount + 2 := by
  have hrun : m.runNextInstruction = m.clockCycle.andThen clockCycle := by
    rw [(Dispatches.asleep h.sleep).run_clocks]
    unfold dispatched
    rw [h.interruptHandling]
  obtain ⟨u, hu, hidle⟩ := clockCycle_idle h
  obtain ⟨t, ht, hidle'⟩ := clockCycle_idle hidle
  have hcall : m.runNextInstruction = .ok t := by
    rw [hrun, hu]
    exact ht
  refine ⟨t, hcall, hidle', call_counts hcall ?_⟩
  rintro ⟨hawake, -⟩
  exact absurd (h.sleep.symm.trans hawake) (by decide)

def sleeper : Machine := boot [(0x02c4, [0x01, 0x80])]

theorem sleeper_idles :
    ∃ t, sleeper.runNextInstruction = .ok t ∧ t.Idle ∧ t.cycleCount = 2 := by
  have h : sleeper.runNextInstruction.okWith (fun t => t.sleep &&
      t.memory IRQ_IENR1 == 0 && t.memory IRQ_IENR2 == 0 && t.memory SSER == 0 &&
      !t.TimerB.on && !t.TimerW.on && !(t.memory TMB1).has TMB_COUNTING && !(t.memory TMRW).has CTS &&
      t.cycleCount == 2) = true := by
    decide
  obtain ⟨t, ht, hidle⟩ := Outcome.okWith_iff.mp h
  simp only [Bool.and_eq_true, beq_iff_eq, Bool.not_eq_true'] at hidle
  obtain ⟨⟨⟨⟨⟨⟨⟨⟨hsleep, h₁⟩, h₂⟩, hunit⟩, hB⟩, hW⟩, hstop⟩, hstop'⟩, hcount⟩ := hidle
  exact ⟨t, ht, ⟨hsleep, ⟨h₁, h₂⟩, hunit, ⟨hB, hW⟩, ⟨hstop, hstop'⟩⟩, hcount⟩

end Machine

end PokeStroller
