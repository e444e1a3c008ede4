import PokeStroller.Walker.Dispatch
import PokeStroller.Walker.Timers

/-!
# A compare match while interrupts are masked

The subclock enters the Timer W interrupt itself, in the cycle of the match,
and only if the mask is clear. The dispatch after each instruction looks at the
requests of IRQ0, the RTC and Timer B1, and never at IMFA.
-/

namespace PokeStroller

namespace Walker

structure TimerWRequest (s : Walker) : Prop where
  flag : (s.memory TSRW).has 0x1 = true
  enabled : (s.memory TIERW).has 0x1 = true

/-- Compare match A in this subclock, with IMIEA set while I is set. -/
structure MaskedMatch (s : Walker) : Prop where
  matched : s.timerWMatches = true
  enabled : (s.memory TIERW).has 0x1 = true
  masked : s.flags.I = true

-- ---------------------------------------------------------------------------
-- The request through the clock
-- ---------------------------------------------------------------------------

theorem runTimerW_TSRW (s : Walker) :
    s.runTimerW.memory TSRW = s.memory TSRW ∨
      s.runTimerW.memory TSRW = s.memory TSRW ||| 0x1 := by
  have hset (u : Walker) (hu : u.memory TSRW = s.memory TSRW) :
      u.compareMatchA.memory TSRW = s.memory TSRW ||| 0x1 := by
    rw [compareMatchA_memory]
    dsimp only
    rw [Function.update_self, ← hu]
    split
    · rw [setMemory16_ne _ _ (by decide) (by decide)]
    · rfl
  have hcount (v : BitVec 16) : setMemory16 s.memory TCNT_ADDRESS v TSRW = s.memory TSRW :=
    setMemory16_ne _ _ (by decide) (by decide)
  unfold runTimerW
  dsimp only
  split
  · split
    · split
      · exact .inr (hset _ (hcount (getMemory16 s.memory TCNT_ADDRESS + 1)))
      · exact .inl (hcount (getMemory16 s.memory TCNT_ADDRESS + 1))
    · split
      · exact .inr (hset s rfl)
      · exact .inl rfl
  · exact .inl rfl

theorem TimerWRequest.runSubClock {s : Walker} (h : s.TimerWRequest) :
    s.runSubClock.TimerWRequest := by
  have hB : s.runTimerB.memory TSRW = s.memory TSRW :=
    s.runTimerB_elsewhere.2.2.2 TSRW (by decide) (by decide)
  have hTIERW : s.runSubClock.memory TIERW = s.memory TIERW := by
    obtain ⟨memory, timerB, timerW, hm, hr | ⟨-, hr⟩⟩ := s.runSubClock_eq
    · rw [hr]
      exact hm TIERW (by decide)
    · rw [hr]
      exact hm TIERW (by decide)
  refine ⟨?_, hTIERW ▸ h.enabled⟩
  change (s.runTimerB.runTimerW.memory TSRW).has 0x1 = true
  rcases s.runTimerB.runTimerW_TSRW with hsame | hset
  · rw [hsame, hB]
    exact h.flag
  · rw [hset, hB, Byte.has_or, h.flag]
    rfl

theorem TimerWRequest.of_same {s t : Walker} (h : s.TimerWRequest)
    (hflag : t.memory TSRW = s.memory TSRW) (henabled : t.memory TIERW = s.memory TIERW) :
    t.TimerWRequest :=
  ⟨hflag ▸ h.flag, henabled ▸ h.enabled⟩

theorem SsuFrame.request {s t : Walker} (h : SsuFrame s t) (hs : s.TimerWRequest) :
    t.TimerWRequest :=
  hs.of_same (h.memory _ (by decide) (by decide)) (h.memory _ (by decide) (by decide))

theorem SsuFrame.interrupts {s t : Walker} (h : SsuFrame s t) (hs : s.TimerWInterrupts) :
    t.TimerWInterrupts := by
  refine hs.of_same ?_ (congrArg Context.flags h.context).symm fun a ha => (h.memory a ?_ ?_).symm
  · exact (congrArg Walker.TimerW h.offBus.symm : s.offBus.TimerW = t.offBus.TimerW)
  · exact ne_of_mem_of_not_mem ha (by decide)
  · exact ne_of_mem_of_not_mem ha (by decide)

theorem compareMatchA_enters {s : Walker} (henabled : (s.memory TIERW).has 0x1 = true)
    (hI : s.flags.I = false) :
    s.compareMatchA.status = (s.enterInterrupt VECTOR_TIMER_W).status := by
  obtain ⟨memory, hclear, hm⟩ := s.clearCount_eq
  have hTIERW : Function.update memory TSRW (memory TSRW ||| 0x1) TIERW = s.memory TIERW :=
    (Function.update_of_ne (by decide) _ _).trans (hm TIERW (by decide) (by decide))
  unfold compareMatchA
  rw [hclear]
  simp only [orMemory, hTIERW, henabled, hI, Bool.not_false, Bool.and_self, ↓reduceIte]
  rfl

theorem runTimerW_enters {s : Walker} (h : s.TimerWInterrupts) :
    s.runTimerW.status = (s.enterInterrupt VECTOR_TIMER_W).status := by
  obtain ⟨memory, hcount, hnext, hm⟩ := s.count_eq
  have hgra : getMemory16 memory 0xf0f8 = getMemory16 s.memory 0xf0f8 := by
    refine getMemory16_congr (hm _ ?_ ?_) (hm _ ?_ ?_) <;> decide
  have henabled : (memory TIERW).has 0x1 = true := by
    rw [hm TIERW (by decide) (by decide)]
    exact h.enabled
  unfold runTimerW
  rw [if_pos h.on, hcount]
  dsimp only
  rw [hnext, hgra, if_pos h.count]
  exact compareMatchA_enters (s := { s with memory := memory }) henabled h.unmasked

theorem TimerWInterrupts.enters {s : Walker} (h : s.TimerWInterrupts) :
    s.runSubClock.status = (s.enterInterrupt VECTOR_TIMER_W).status := by
  have hkept := s.runTimerB_keepsW
  obtain ⟨memory, hB, -⟩ := s.runTimerB_eq
  have hbefore : s.runTimerB.TimerWInterrupts := by
    refine h.of_same hkept.timer.symm (by rw [hB]) fun a ha => ?_
    refine (s.runTimerB_elsewhere.2.2.2 a ?_ ?_).symm
    · exact ne_of_mem_of_not_mem ha (by decide)
    · exact ne_of_mem_of_not_mem ha (by decide)
  refine (runTimerW_enters hbefore).trans ?_
  rw [hB]
  rfl

end Walker

namespace Machine

-- ---------------------------------------------------------------------------
-- The request through a call
-- ---------------------------------------------------------------------------

def ssuPart (m : Machine) : Outcome Fault Walker :=
  if m.tickDue then m.toWalker.ssuTick else .ok m.toWalker

/-- The call from `m` runs a subclock in this state. -/
inductive SubClockIn (m : Machine) : Walker → Prop
  | first {s v : Walker} : m.Dispatches s → (m.dispatched s).ssuPart = .ok v →
      SubClockAt ((m.dispatched s).cycleCount + 1) → SubClockIn m v.counted
  | second {s v : Walker} {c : Machine} : m.Dispatches s → (m.dispatched s).clockCycle = .ok c →
      c.ssuPart = .ok v → SubClockAt (c.cycleCount + 1) → SubClockIn m v.counted

def Holding (m : Machine) : Prop := m.flags.I = true ∧ m.toWalker.TimerWRequest

/-- There was a masked match in some call, and since the end of that call I, IMFA
and IMIEA have been set between the calls. -/
inductive Waits : Machine → Prop
  | masked {m t : Machine} {u : Walker} : m.runNextInstruction = .ok t → m.SubClockIn u →
      u.MaskedMatch → t.Holding → Waits t
  | step {m t : Machine} {e : Event} : Waits m → Step m e t → t.Holding → Waits t

theorem Waits.holding {m : Machine} (h : m.Waits) : m.Holding := by
  cases h with
  | masked _ _ _ h => exact h
  | step _ _ h => exact h

theorem Cycle.request {m t : Machine} (h : m.Cycle t) (hm : m.toWalker.TimerWRequest) :
    t.toWalker.TimerWRequest := by
  cases h with
  | plain h => exact h.request hm
  | @subClock u _ h ht =>
    have hcounted : u.counted.TimerWRequest := (h.request hm).of_same rfl rfl
    rw [← ht]
    exact hcounted.runSubClock

theorem clockHandling_request {m : Machine} (hm : m.toWalker.TimerWRequest) :
    m.clockHandling.Holds fun t => t.toWalker.TimerWRequest := by
  refine m.clockCycle_cycle.andThen ?_ ?_
  · rintro u ⟨hu, -⟩
    exact hu.request hm
  · rintro u ⟨hu, -⟩
    refine u.clockCycle_cycle.mono ?_
    rintro t ⟨ht, -⟩
    exact ht.request (hu.request hm)

theorem clockCycle_enters {m t : Machine} (h : m.clockCycle = .ok t)
    (hdue : SubClockAt (m.cycleCount + 1)) (hm : m.toWalker.TimerWInterrupts) :
    t.status = (m.toWalker.enterInterrupt VECTOR_TIMER_W).status := by
  rcases clockCycle_due h with ⟨-, u, hu, ht⟩ | ⟨hnot, -⟩
  · have hcounted : u.counted.TimerWInterrupts :=
      (hu.interrupts hm).of_same rfl rfl fun _ _ => rfl
    rw [ht]
    exact hcounted.enters.trans (Walker.enterInterrupt_status hu.status _)
  · exact absurd hdue hnot

theorem clockHandling_enters {m t : Machine} (h : m.clockHandling = .ok t) (hdue : m.SubClockDue)
    (hm : m.toWalker.TimerWInterrupts) :
    t.status = (m.toWalker.enterInterrupt VECTOR_TIMER_W).status := by
  obtain ⟨u, hu, ht⟩ := Outcome.andThen_eq_ok.mp h
  obtain ⟨-, -, -, hcount⟩ := clockCycle_ok hu
  rcases hdue with hfirst | hsecond
  · have hentry := clockCycle_enters hu hfirst hm
    -- the second cycle has no subclock
    rcases clockCycle_due ht with ⟨hagain, -⟩ | ⟨-, hframe⟩
    · rw [hcount] at hagain
      exact absurd hagain hfirst.next
    · exact hframe.status.trans hentry
  · rcases clockCycle_due hu with ⟨hfirst, -⟩ | ⟨-, hframe⟩
    · exact absurd hsecond hfirst.next
    · have hentry := clockCycle_enters ht (hcount ▸ hsecond) (hframe.interrupts hm)
      exact hentry.trans (Walker.enterInterrupt_status hframe.status _)

-- ---------------------------------------------------------------------------
-- When the mask is cleared
-- ---------------------------------------------------------------------------

/-- Behind another handler the request is held, masked again. -/
theorem dispatched_holding {m t : Machine} {s : Walker} (hI : s.interruptHandling.flags.I = true)
    (hr : s.interruptHandling.TimerWRequest) (h : (m.dispatched s).clockHandling = .ok t) :
    t.Holding := by
  refine ⟨?_, (clockHandling_request hr).ok h⟩
  obtain ⟨-, hkeep | ⟨-, hmatch, -⟩⟩ := (clockHandling_frame _).ok h
  · exact (congrArg (fun c : Context × Bool => c.1.flags.I) hkeep).trans hI
  · have hclear := hmatch.unmasked
    rw [show (m.dispatched s).flags.I = true from hI] at hclear
    cases hclear

theorem unmasked_or_match {m t : Machine} (hI : m.flags.I = false) (h : m.clockHandling = .ok t) :
    t.flags.I = false ∨ (m.SubClockDue ∧ m.toWalker.TimerWInterrupts) := by
  obtain ⟨-, hkeep | ⟨hdue, hmatch, -⟩⟩ := (clockHandling_frame _).ok h
  · exact .inl ((congrArg (fun c : Context × Bool => c.1.flags.I) hkeep).trans hI)
  · exact .inr ⟨hdue, hmatch⟩

/-- A request that has waited and comes to a dispatch unmasked: it is entered in
this call, or goes on waiting behind another handler, if and only if another
request comes through the dispatch or the next match comes within the call. -/
theorem masked_request {m t : Machine} {s : Walker} (hw : m.Waits) (hd : m.Dispatches s)
    (hI : s.flags.I = false) (hr : s.TimerWRequest) (h : m.runNextInstruction = .ok t) :
    (t.status = (s.enterInterrupt VECTOR_TIMER_W).status ∨ t.Waits) ↔
      ((∃ r, Request.reaches s.memory r = true) ∨ (m.SubClockDue ∧ s.TimerWInterrupts)) := by
  have hrun : (m.dispatched s).clockHandling = .ok t := hd.run_clocks.symm.trans h
  have hstep : Step m .call t := .call (Outcome.leaves_of_ok h)
  rw [← Walker.interruptHandling_ne_iff hI]
  rcases s.interruptHandling_cases with hnone | ⟨-, vector, queue, hother⟩
  · have hsame : m.dispatched s = { m with toWalker := s } := by
      unfold dispatched
      rw [hnone]
    rw [hsame] at hrun
    constructor
    · intro hserved
      have hset : t.flags.I = true := by
        rcases hserved with hentry | hwaits
        · exact congrArg (fun c : Context × Bool => c.1.flags.I) hentry
        · exact hwaits.holding.1
      rcases unmasked_or_match hI hrun with hclear | hmatch
      · simp [hset] at hclear
      · exact .inr hmatch
    · rintro (hother | ⟨hdue, hmatch⟩)
      · exact absurd hnone hother
      · exact .inl (clockHandling_enters hrun hdue hmatch)
  · have hentered : s.interruptHandling.flags.I = true := by rw [hother]; rfl
    have hne : s.interruptHandling ≠ s := by
      intro hsame
      rw [hsame, hI] at hentered
      cases hentered
    have hrequest : s.interruptHandling.TimerWRequest := by
      rw [hother]
      exact hr.of_same rfl rfl
    have hholding : t.Holding := dispatched_holding hentered hrequest hrun
    exact ⟨fun _ => .inl hne, fun _ => .inr (hw.step hstep hholding)⟩

-- ---------------------------------------------------------------------------
-- A request that is lost
-- ---------------------------------------------------------------------------

def maskedProgram : List (Nat × List Byte) :=
  [(0x2c4, [0x07, 0x80, 0xf8, 0x00, 0x6a, 0x88, 0xf0, 0xf8, 0xf8, 0x01, 0x6a, 0x88, 0xf0, 0xf9,
            0x6a, 0x88, 0xf0, 0xf2, 0xf8, 0x80, 0x6a, 0x88, 0xf0, 0xf1, 0x6a, 0x88, 0xf0, 0xf0,
            0xf8, 0x40, 0x6a, 0x88, 0xff, 0xfb]), (0x3b8, [0x07, 0x00])]

/-- The match is in the second cycle of call 114; call 115 unmasks. -/
theorem masked_match_run : ((boot maskedProgram).calls 113).okWith (fun m₀ =>
    !m₀.sleep && m₀.toWalker.skipHook.isNone &&
    m₀.toWalker.instructionPhase.okWith (fun s => (m₀.dispatched s).clockCycle.okWith fun c =>
      (c.cycleCount + 1) % 112 == 0 && c.ssuPart.okWith fun v => v.counted.timerWMatches &&
        (v.memory TIERW).has 0x1 && v.flags.I) &&
    m₀.runNextInstruction.okWith fun m =>
      m.flags.I && (m.memory TSRW).has 0x1 && (m.memory TIERW).has 0x1 &&
      !m.sleep && m.toWalker.skipHook.isNone &&
      m.toWalker.instructionPhase.okWith (fun s =>
        !s.flags.I && (s.memory TSRW).has 0x1 && (s.memory TIERW).has 0x1) &&
      m.runNextInstruction.okWith fun t => !t.flags.I) = true := by
  decide +kernel

theorem masked_match : ∃ m t : Machine, ∃ s, m.Reachable ∧ m.Waits ∧ m.Dispatches s ∧
    s.flags.I = false ∧ s.TimerWRequest ∧ m.runNextInstruction = .ok t ∧ t.flags.I = false := by
  obtain ⟨m₀, hcalls, h⟩ := Outcome.okWith_iff.mp masked_match_run
  simp only [Bool.and_eq_true, Bool.not_eq_true', Option.isNone_iff_eq_none] at h
  obtain ⟨⟨⟨hawake₀, hskip₀⟩, hmatch⟩, h⟩ := h
  obtain ⟨s₀, hs₀, hmatch⟩ := Outcome.okWith_iff.mp hmatch
  obtain ⟨c, hc, hmatch⟩ := Outcome.okWith_iff.mp hmatch
  simp only [Bool.and_eq_true, beq_iff_eq] at hmatch
  obtain ⟨hdue, hmatch⟩ := hmatch
  obtain ⟨v, hv, hmatch⟩ := Outcome.okWith_iff.mp hmatch
  simp only [Bool.and_eq_true] at hmatch
  obtain ⟨⟨hmatched, henabled⟩, hmasked⟩ := hmatch
  obtain ⟨m, hm, h⟩ := Outcome.okWith_iff.mp h
  simp only [Bool.and_eq_true, Bool.not_eq_true', Option.isNone_iff_eq_none] at h
  obtain ⟨⟨⟨⟨⟨⟨hI, hflag⟩, hIMIEA⟩, hawake⟩, hskip⟩, hs⟩, ht⟩ := h
  obtain ⟨s, hs, hrequest⟩ := Outcome.okWith_iff.mp hs
  simp only [Bool.and_eq_true, Bool.not_eq_true'] at hrequest
  obtain ⟨⟨hclear, hsflag⟩, hsIMIEA⟩ := hrequest
  obtain ⟨t, ht, hunserved⟩ := Outcome.okWith_iff.mp ht
  simp only [Bool.not_eq_true'] at hunserved
  have hd₀ : m₀.Dispatches s₀ := .executed hawake₀ hskip₀ hs₀
  have hreach : m.Reachable :=
    ((reachable_boot maskedProgram).calls hcalls).step (.call (Outcome.leaves_of_ok hm))
  have hwaits : m.Waits :=
    .masked hm (.second hd₀ hc hv hdue) ⟨hmatched, henabled, hmasked⟩ ⟨hI, hflag, hIMIEA⟩
  exact ⟨m, t, s, hreach, hwaits, .executed hawake hskip hs, hclear, ⟨hsflag, hsIMIEA⟩, ht,
    hunserved⟩

/-- The iff at that call: neither side holds. -/
theorem masked_request_boot : ∃ (m t : Machine) (s : Walker), m.runNextInstruction = .ok t ∧
    ((t.status = (s.enterInterrupt VECTOR_TIMER_W).status ∨ t.Waits) ↔
      ((∃ r, Request.reaches s.memory r = true) ∨ (m.SubClockDue ∧ s.TimerWInterrupts))) := by
  obtain ⟨m, t, s, -, hw, hd, hI, hr, ht, -⟩ := masked_match
  exact ⟨m, t, s, ht, masked_request hw hd hI hr ht⟩

/-- Unmasked with IMFA and IMIEA set, the program goes on. -/
theorem masked_request_lost : ¬ ∀ (m t : Machine) (s : Walker), m.Reachable → m.Waits →
    m.Dispatches s → s.flags.I = false → s.TimerWRequest → m.runNextInstruction = .ok t →
      t.status = (s.enterInterrupt VECTOR_TIMER_W).status ∨ t.Waits := by
  intro claim
  obtain ⟨m, t, s, hreach, hw, hd, hI, hr, ht, hunserved⟩ := masked_match
  rcases claim m t s hreach hw hd hI hr ht with hentry | hwaits
  · have hset : t.flags.I = true := congrArg (fun c : Context × Bool => c.1.flags.I) hentry
    simp [hunserved] at hset
  · simp [hwaits.holding.1] at hunserved

end Machine

end PokeStroller
