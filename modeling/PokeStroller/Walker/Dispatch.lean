import PokeStroller.Walker.Session

/-!
# Which interrupt is dispatched

The five sources of the dispatch as an abstract list of requests in order of
priority, and what serving the first of them means. `interruptHandling` does
that except when the RTC enable shadows a request of Timer B1.
-/

namespace PokeStroller

inductive Request
  | irq0
  | rtcQuarter
  | rtcHalf
  | rtcSecond
  | timerB1
  deriving DecidableEq, Repr

namespace Request

def byPriority : List Request := [irq0, rtcQuarter, rtcHalf, rtcSecond, timerB1]

def pending (m : Memory) : Request → Bool
  | irq0 => (m IRQ_IRR1).has IRRI0
  | rtcQuarter => (m RTCFLG).has SEIFG025
  | rtcHalf => (m RTCFLG).has SEIFG05
  | rtcSecond => (m RTCFLG).has SEIFG1
  | timerB1 => (m IRQ_IRR2).has IRRTB1

def enabled (m : Memory) : Request → Bool
  | irq0 => (m IRQ_IENR1).has IEN0
  | rtcQuarter | rtcHalf | rtcSecond => (m IRQ_IENR1).has IENRTC
  | timerB1 => (m IRQ_IENR2).has IENTB1

def vector : Request → BitVec 16
  | irq0 => VECTOR_IRQ0
  | rtcQuarter => VECTOR_RTC_QUARTER_SEC
  | rtcHalf => VECTOR_RTC_HALF_SEC
  | rtcSecond => VECTOR_RTC_EVERY_SEC
  | timerB1 => VECTOR_TIMER_B1

/-- IRQ0 also reports the key to the program. -/
def queued : Request → List Int
  | irq0 => [ENTER.toNat, 0]
  | _ => []

def active (m : Memory) (r : Request) : Bool := r.pending m && r.enabled m

/-- It comes through the tests of the dispatch, where the RTC enable hides Timer B1. -/
def reaches (m : Memory) (r : Request) : Bool :=
  r.active m && !(r == timerB1 && rtcQuarter.enabled m)

def highest (m : Memory) : Option Request := byPriority.find? (active m)

end Request

namespace Walker

/-- The entry of a request: the context saved, the mask set, the vector taken,
and nothing else but the wake-up and the key events. -/
structure Serves (s t : Walker) (r : Request) : Prop where
  pc : t.pc = r.vector
  flags : t.flags = { s.flags with I := true }
  savedAddress : t.interruptSavedAddress = s.pc
  savedFlags : t.interruptSavedFlags = s.flags
  sleep : t.sleep = false
  inputQueue : t.inputQueue = s.inputQueue ++ r.queued
  memory : t.memory = s.memory
  registers : t.registers = s.registers

/-- The dispatch as it should be: the highest active request is served, and
without one nothing happens. -/
def DispatchCorrect (s : Walker) : Prop :=
  match Request.highest s.memory with
  | some r => s.Serves s.interruptHandling r
  | none => s.interruptHandling = s

/-- Timer B1 is the only request while RTC interrupts are enabled. -/
structure TimerB1Shadowed (s : Walker) : Prop where
  irq0 : Request.active s.memory .irq0 = false
  rtcEnabled : (s.memory IRQ_IENR1).has IENRTC = true
  rtcIdle : ∀ r ∈ [Request.rtcQuarter, .rtcHalf, .rtcSecond], r.pending s.memory = false
  timerB1 : Request.active s.memory .timerB1 = true

theorem serves_enterInterrupt (s : Walker) (r : Request) (hr : r.queued = []) :
    s.Serves (s.enterInterrupt r.vector) r :=
  ⟨rfl, rfl, rfl, rfl, rfl, by simp [hr, enterInterrupt], rfl, rfl⟩

theorem Serves.masked {s t : Walker} (h : s.Serves t r) : t.flags.I = true := by
  rw [h.flags]

/-- What the chain of tests does with the requests in its own words. -/
theorem interruptHandling_eq (s : Walker) (hI : s.flags.I = false) :
    s.interruptHandling =
      if Request.active s.memory .irq0 then
        { s.enterInterrupt (Request.vector .irq0) with
          inputQueue := s.inputQueue ++ Request.queued .irq0 }
      else if Request.enabled s.memory .rtcQuarter then
        if Request.pending s.memory .rtcQuarter then s.enterInterrupt (Request.vector .rtcQuarter)
        else if Request.pending s.memory .rtcHalf then s.enterInterrupt (Request.vector .rtcHalf)
        else if Request.pending s.memory .rtcSecond then
          s.enterInterrupt (Request.vector .rtcSecond)
        else s
      else if Request.active s.memory .timerB1 then s.enterInterrupt (Request.vector .timerB1)
      else s := by
  unfold interruptHandling
  simp only [hI, Bool.false_eq_true, ↓reduceIte, addElement, List.append_assoc,
    List.cons_append, List.nil_append]
  rfl

theorem entered_ne {s : Walker} (hI : s.flags.I = false) (r : Request) (queue : List Int) :
    { s.enterInterrupt r.vector with inputQueue := queue } ≠ s := by
  intro h
  have hset : s.flags.I = true := (congrArg (·.flags.I) h).symm
  simp [hI] at hset

/-- With interrupts unmasked, the dispatch enters a handler if and only if a request comes
through its tests. -/
theorem interruptHandling_ne_iff {s : Walker} (hI : s.flags.I = false) :
    s.interruptHandling ≠ s ↔ ∃ r, Request.reaches s.memory r = true := by
  have entered (r : Request) : s.enterInterrupt r.vector ≠ s := entered_ne hI r s.inputQueue
  rw [interruptHandling_eq s hI]
  constructor
  · intro h
    by_contra hnone
    have hquiet (r : Request) : Request.reaches s.memory r = false :=
      Bool.eq_false_iff.mpr fun hr => hnone ⟨r, hr⟩
    have hirq0 := hquiet .irq0
    have hquarter := hquiet .rtcQuarter
    have hhalf := hquiet .rtcHalf
    have hsecond := hquiet .rtcSecond
    have htimer := hquiet .timerB1
    unfold Request.reaches Request.active at *
    grind [Request.enabled]
  · rintro ⟨r, hr⟩ hsame
    split at hsame
    · exact entered_ne hI .irq0 _ hsame
    rename_i hirq0
    split at hsame
    · rename_i hE
      split at hsame
      · exact entered .rtcQuarter hsame
      split at hsame
      · exact entered .rtcHalf hsame
      split at hsame
      · exact entered .rtcSecond hsame
      cases r <;> simp_all [Request.reaches, Request.active, Request.enabled]
    · split at hsame
      · exact entered .timerB1 hsame
      cases r <;> simp_all [Request.reaches, Request.active, Request.enabled]

/-- With interrupts unmasked, the dispatch serves the right request unless the
RTC enable hides Timer B1. -/
theorem dispatch_correct_iff (s : Walker) (hI : s.flags.I = false) :
    s.DispatchCorrect ↔ ¬ s.TimerB1Shadowed := by
  have entry (r) (hr : Request.queued r = []) := s.serves_enterInterrupt r hr
  have shadowed : s.TimerB1Shadowed ↔ Request.active s.memory .irq0 = false ∧
      Request.enabled s.memory .rtcQuarter = true ∧ Request.pending s.memory .rtcQuarter = false ∧
      Request.pending s.memory .rtcHalf = false ∧ Request.pending s.memory .rtcSecond = false ∧
      Request.active s.memory .timerB1 = true :=
    ⟨fun h => ⟨h.irq0, h.rtcEnabled, h.rtcIdle _ (by simp), h.rtcIdle _ (by simp),
      h.rtcIdle _ (by simp), h.timerB1⟩,
    fun ⟨h₁, h₂, h₃, h₄, h₅, h₆⟩ => ⟨h₁, h₂, by simp [h₃, h₄, h₅], h₆⟩⟩
  unfold DispatchCorrect
  rw [shadowed, interruptHandling_eq s hI]
  have quarter : Request.active s.memory .rtcQuarter =
    (Request.pending s.memory .rtcQuarter && Request.enabled s.memory .rtcQuarter) := rfl
  have half : Request.active s.memory .rtcHalf =
    (Request.pending s.memory .rtcHalf && Request.enabled s.memory .rtcQuarter) := rfl
  have second : Request.active s.memory .rtcSecond =
    (Request.pending s.memory .rtcSecond && Request.enabled s.memory .rtcQuarter) := rfl
  simp only [Request.highest, Request.byPriority, List.find?, quarter, half, second]
  cases h₀ : Request.active s.memory .irq0 with
  | true => simpa using ⟨rfl, rfl, rfl, rfl, rfl, rfl, rfl, rfl⟩
  | false =>
    cases hE : Request.enabled s.memory .rtcQuarter with
    | true =>
      cases h₁ : Request.pending s.memory .rtcQuarter with
      | true => simpa using entry .rtcQuarter rfl
      | false =>
        cases h₂ : Request.pending s.memory .rtcHalf with
        | true => simpa using entry .rtcHalf rfl
        | false =>
          cases h₃ : Request.pending s.memory .rtcSecond with
          | true => simpa using entry .rtcSecond rfl
          | false =>
            cases h₄ : Request.active s.memory .timerB1 with
            -- the shadowed request: serving it would set the mask
            | true => simpa using fun h : s.Serves s .timerB1 => by simp [h.masked] at hI
            | false => simp
    | false =>
      cases h₄ : Request.active s.memory .timerB1 with
      | true => simpa using entry .timerB1 rfl
      | false => simp

theorem dispatch_correct_iff_all : ({ memory := fun _ => 0xff } : Walker).DispatchCorrect :=
  (dispatch_correct_iff _ rfl).mpr fun h => absurd h.irq0 (by decide)

end Walker

def shadowProgram : List (Nat × List Byte) :=
  [(0x2c4, [0xf8, 0x80, 0x6a, 0x88, 0xff, 0xf3,
            0xf8, 0x04, 0x6a, 0x88, 0xff, 0xf4, 0x6a, 0x88, 0xff, 0xf7])]

/-- A program reaches a dispatch that is not correct. -/
theorem timerB1_ignored :
    ¬ ∀ (m : Machine) (s : Walker), m.Reachable → m.Dispatches s → s.flags.I = false →
      s.DispatchCorrect := by
  have run : ((Machine.boot shadowProgram).calls 4).okWith (fun m =>
      !m.sleep && m.toWalker.skipHook.isNone && m.toWalker.instructionPhase.okWith fun s =>
        !s.flags.I && Request.highest s.memory == some .timerB1 &&
          !s.interruptHandling.flags.I) = true := by
    decide +kernel
  intro claim
  obtain ⟨m, hm, h⟩ := Outcome.okWith_iff.mp run
  simp only [Bool.and_eq_true, Bool.not_eq_true', Option.isNone_iff_eq_none] at h
  obtain ⟨⟨hsleep, hskip⟩, h⟩ := h
  obtain ⟨s, hs, h⟩ := Outcome.okWith_iff.mp h
  simp only [Bool.and_eq_true, Bool.not_eq_true', beq_iff_eq] at h
  obtain ⟨⟨hI, hhighest⟩, hunserved⟩ := h
  have hc := claim m s ((Machine.reachable_boot _).calls hm) (.executed hsleep hskip hs) hI
  rw [Walker.DispatchCorrect, hhighest] at hc
  simp [hc.masked] at hunserved

end PokeStroller
