import Mathlib.Algebra.Order.Ring.Int
import PokeStroller.Lib.Reload
import PokeStroller.Lib.Runs
import PokeStroller.Walker.Asleep

/-!
# The timers over many subclocks

What Timer B and Timer W have counted after any number of subclocks, with
anything between these that leaves the registers of the timer alone.
-/

namespace PokeStroller

namespace Walker

def counted (s : Walker) : Walker :=
  { s with subClockCyclesEllapsed := s.subClockCyclesEllapsed + 1 }

def subClock (s : Walker) : Walker := s.counted.runSubClock

-- ---------------------------------------------------------------------------
-- What each timer leaves to the other
-- ---------------------------------------------------------------------------

theorem runTimerW_elsewhere (s : Walker) :
    s.runTimerW.TimerB = s.TimerB ∧ s.runTimerW.TimerW = s.TimerW ∧
      s.runTimerW.subClockCyclesEllapsed = s.subClockCyclesEllapsed ∧
      ∀ a, a ≠ TSRW → a ≠ 0xf0f6 → a ≠ 0xf0f7 → s.runTimerW.memory a = s.memory a := by
  obtain ⟨memory, hm, h | ⟨-, h⟩⟩ := s.runTimerW_eq
  · rw [h]
    exact ⟨rfl, rfl, rfl, hm⟩
  · rw [h]
    exact ⟨rfl, rfl, rfl, hm⟩

theorem runTimerB_elsewhere (s : Walker) :
    s.runTimerB.TimerB = s.TimerB ∧ s.runTimerB.TimerW = s.TimerW ∧
      s.runTimerB.subClockCyclesEllapsed = s.subClockCyclesEllapsed ∧
      ∀ a, a ≠ TCB1 → a ≠ IRQ_IRR2 → s.runTimerB.memory a = s.memory a := by
  obtain ⟨memory, h, hm⟩ := s.runTimerB_eq
  rw [h]
  exact ⟨rfl, rfl, rfl, hm⟩

-- ---------------------------------------------------------------------------
-- One count of Timer B
-- ---------------------------------------------------------------------------

def timerBCounts (s : Walker) : Bool := s.TimerB.on && s.subClockCyclesEllapsed % 256 == 0

def timerBOverflows (s : Walker) : Bool := s.timerBCounts && s.memory TCB1 + 1 == 0

theorem runTimerB_memory (s : Walker) : s.runTimerB.memory =
    if s.timerBOverflows then
      Function.update (Function.update s.memory IRQ_IRR2 (s.memory IRQ_IRR2 ||| IRRTB1))
        TCB1 s.TimerB.TLBvalue
    else if s.timerBCounts then Function.update s.memory TCB1 (s.memory TCB1 + 1)
    else s.memory := by
  have hne : IRQ_IRR2 ≠ TCB1 := by decide
  unfold runTimerB timerBOverflows timerBCounts
  cases s.TimerB.on && s.subClockCyclesEllapsed % 256 == 0 with
  | false => rfl
  | true =>
    by_cases hzero : s.memory TCB1 + 1 = 0
    · simp only [hzero, ↓reduceIte, Bool.true_and, beq_self_eq_true, orMemory,
        Function.update_of_ne hne]
      rw [Function.update_comm hne.symm, Function.update_idem]
    · simp only [hzero, ↓reduceIte, Bool.true_and, beq_iff_eq]

theorem runTimerB_TCB1 (s : Walker) : s.runTimerB.memory TCB1 =
    if s.timerBOverflows then s.TimerB.TLBvalue
    else if s.timerBCounts then s.memory TCB1 + 1 else s.memory TCB1 := by
  rw [runTimerB_memory]
  split
  · exact Function.update_self _ _ _
  · split
    · exact Function.update_self _ _ _
    · rfl

theorem runTimerB_IRR2 (s : Walker) : s.runTimerB.memory IRQ_IRR2 =
    if s.timerBOverflows then s.memory IRQ_IRR2 ||| IRRTB1 else s.memory IRQ_IRR2 := by
  have hne : IRQ_IRR2 ≠ TCB1 := by decide
  rw [runTimerB_memory]
  split
  · rw [Function.update_of_ne hne, Function.update_self]
  · split
    · exact Function.update_of_ne hne _ _
    · rfl

/-- Both enable bits and the latch of the subclock before. -/
structure TimerBEnabled (s : Walker) : Prop where
  latch : s.TimerB.on = true
  clock : (s.memory CKSTPR1).has TB1CKSTP = true
  counting : (s.memory TMB1).has TMB_COUNTING = true

/-- Nothing of Timer B is written, and its request is not touched. -/
structure TimerBKept (s t : Walker) : Prop where
  timer : t.TimerB = s.TimerB
  subClocks : t.subClockCyclesEllapsed = s.subClockCyclesEllapsed
  registers : ∀ a ∈ [TCB1, TMB1, CKSTPR1], t.memory a = s.memory a
  request : (t.memory IRQ_IRR2).has IRRTB1 = (s.memory IRQ_IRR2).has IRRTB1

/-- Subclocks, and other steps that do not write to Timer B. The event of a
subclock is an overflow. -/
def TimerBTicks : Walker → Option Bool → Walker → Prop :=
  Ticks subClock (·.counted.timerBOverflows) TimerBKept

theorem subClock_TCB1 (s : Walker) : s.subClock.memory TCB1 =
    if s.counted.timerBOverflows then s.TimerB.TLBvalue
    else if s.counted.timerBCounts then s.memory TCB1 + 1 else s.memory TCB1 := by
  refine ((runTimerW_elsewhere _).2.2.2 TCB1 ?_ ?_ ?_).trans s.counted.runTimerB_TCB1 <;> decide

theorem subClock_IRR2 (s : Walker) : s.subClock.memory IRQ_IRR2 =
    if s.counted.timerBOverflows then s.memory IRQ_IRR2 ||| IRRTB1 else s.memory IRQ_IRR2 := by
  refine ((runTimerW_elsewhere _).2.2.2 IRQ_IRR2 ?_ ?_ ?_).trans s.counted.runTimerB_IRR2 <;> decide

theorem TimerBEnabled.kept {s t : Walker} (h : s.TimerBEnabled) (hk : s.TimerBKept t) :
    t.TimerBEnabled where
  latch := hk.timer ▸ h.latch
  clock := hk.registers CKSTPR1 (by simp) ▸ h.clock
  counting := hk.registers TMB1 (by simp) ▸ h.counting

theorem subClock_enables_TimerB {s : Walker} (h : s.TimerBEnabled) :
    s.subClock.TimerBEnabled ∧ s.subClock.TimerB.TLBvalue = s.TimerB.TLBvalue := by
  have hsame (a : BitVec 16) (h₁ : a ∉ timerRegisters) : s.subClock.memory a = s.memory a := by
    obtain ⟨memory, timerB, timerW, hm, hr | ⟨-, hr⟩⟩ := s.counted.runSubClock_eq
    · rw [subClock, hr]
      exact hm a h₁
    · rw [subClock, hr]
      exact hm a h₁
  have hstop : (s.subClock.memory CKSTPR1).has TB1CKSTP = true := by
    rw [hsame _ (by decide)]
    exact h.clock
  have hcount : (s.subClock.memory TMB1).has TMB_COUNTING = true := by
    rw [hsame _ (by decide)]
    exact h.counting
  have hvalue : s.subClock.TimerB.TLBvalue = s.TimerB.TLBvalue := by
    have hW := (runTimerW_elsewhere s.counted.runTimerB).1
    have hB := s.counted.runTimerB_elsewhere.1
    change s.counted.runTimerB.runTimerW.TimerB.TLBvalue = _
    rw [hW, hB]
    rfl
  refine ⟨⟨?_, hstop, hcount⟩, hvalue⟩
  change (Byte.has _ _ && Byte.has _ _) = true
  rw [Bool.and_eq_true]
  exact ⟨hstop, hcount⟩

theorem subClock_subClocks (s : Walker) :
    s.subClock.subClockCyclesEllapsed = s.subClockCyclesEllapsed + 1 :=
  (runTimerW_elsewhere s.counted.runTimerB).2.2.1.trans s.counted.runTimerB_elsewhere.2.2.1

def prescaled (s n : Nat) : Nat := (s + n) / 256 - s / 256

/-- Timer B after the ticks of `es`, from count `v` and subclock `s₀`. -/
structure TimerBAfter (L v s₀ : Nat) (requested : Bool) (es : List (Option Bool)) (s : Walker) :
    Prop where
  enabled : s.TimerBEnabled
  reload : s.TimerB.TLBvalue.toNat = L
  phase : s.subClockCyclesEllapsed.toNat = (s₀ + tickCount es) % 2 ^ 64
  count : (s.memory TCB1).toNat = Reload.value 256 L v (prescaled s₀ (tickCount es))
  overflows : eventCount es = Reload.overflows 256 L v (prescaled s₀ (tickCount es))
  request : (s.memory IRQ_IRR2).has IRRTB1 = (requested || 0 < eventCount es)

theorem TimerBAfter.start {s : Walker} (h : s.TimerBEnabled) :
    TimerBAfter s.TimerB.TLBvalue.toNat (s.memory TCB1).toNat s.subClockCyclesEllapsed.toNat
      ((s.memory IRQ_IRR2).has IRRTB1) [] s where
  enabled := h
  reload := rfl
  phase := (Nat.mod_eq_of_lt s.subClockCyclesEllapsed.isLt).symm
  count := by
    have hzero : prescaled s.subClockCyclesEllapsed.toNat 0 = 0 := Nat.sub_self _
    rw [show tickCount [] = 0 from rfl, hzero, Reload.value_zero (s.memory TCB1).isLt]
  overflows := by
    have hzero : prescaled s.subClockCyclesEllapsed.toNat 0 = 0 := Nat.sub_self _
    rw [show tickCount [] = 0 from rfl, hzero, Reload.overflows_zero (s.memory TCB1).isLt]
    rfl
  request := by simp [eventCount]

theorem TimerBAfter.elsewhere {s t : Walker} (h : TimerBAfter L v s₀ requested es s)
    (hk : s.TimerBKept t) : TimerBAfter L v s₀ requested (es ++ [none]) t := by
  refine ⟨h.enabled.kept hk, ?_, ?_, ?_, ?_, ?_⟩
  · rw [hk.timer, h.reload]
  · rw [hk.subClocks, h.phase, tickCount_elsewhere]
  · rw [hk.registers TCB1 (by simp), h.count, tickCount_elsewhere]
  · rw [eventCount_elsewhere, h.overflows, tickCount_elsewhere]
  · rw [hk.request, h.request, eventCount_elsewhere]

theorem prescaled_succ (s n : Nat) :
    prescaled s (n + 1) = prescaled s n + if (s + n + 1) % 256 = 0 then 1 else 0 := by
  unfold prescaled
  split <;> omega

theorem timerBCounts_iff {s : Walker} (hon : s.TimerB.on = true) :
    s.timerBCounts = true ↔ s.subClockCyclesEllapsed.toNat % 256 = 0 := by
  have hmod : s.subClockCyclesEllapsed % 256 = 0 ↔
      s.subClockCyclesEllapsed.toNat % 256 = 0 := by
    rw [← BitVec.toNat_inj]
    rfl
  rw [timerBCounts, hon, Bool.true_and, beq_iff_eq, hmod]

theorem timerBOverflows_iff (s : Walker) :
    s.timerBOverflows = true ↔ s.timerBCounts = true ∧ (s.memory TCB1).toNat + 1 = 256 := by
  have hlast : s.memory TCB1 + 1 = 0 ↔ (s.memory TCB1).toNat + 1 = 256 := by bv_omega
  rw [timerBOverflows, Bool.and_eq_true, beq_iff_eq, hlast]

theorem TimerBAfter.tick {s : Walker} (hL : L < 256) (hv : v < 256)
    (h : TimerBAfter L v s₀ requested es s) :
    TimerBAfter L v s₀ requested (es ++ [some s.counted.timerBOverflows]) s.subClock := by
  have hphase : s.counted.subClockCyclesEllapsed.toNat = (s₀ + tickCount es + 1) % 2 ^ 64 := by
    rw [counted, BitVec.toNat_add, h.phase, show (1 : BitVec 64).toNat = 1 from rfl]
    omega
  have hcounts : s.counted.timerBCounts = true ↔ (s₀ + tickCount es + 1) % 256 = 0 := by
    have hon : s.counted.TimerB.on = true := h.enabled.latch
    rw [timerBCounts_iff hon, hphase]
    omega
  have hoverflows : s.counted.timerBOverflows = true ↔
      s.counted.timerBCounts = true ∧ (s.memory TCB1).toNat + 1 = 256 :=
    s.counted.timerBOverflows_iff
  obtain ⟨henabled, hvalue⟩ := subClock_enables_TimerB h.enabled
  refine ⟨henabled, ?_, ?_, ?_, ?_, ?_⟩
  · rw [hvalue, h.reload]
  · rw [tickCount_tick, ← Nat.add_assoc, ← hphase, subClock_subClocks]
    rfl
  · rw [tickCount_tick, prescaled_succ, subClock_TCB1]
    by_cases hcount : (s₀ + tickCount es + 1) % 256 = 0
    · rw [if_pos hcount, Reload.value_succ hL hv, ← h.count, if_pos (hcounts.mpr hcount)]
      by_cases hfull : (s.memory TCB1).toNat + 1 = 256
      · rw [if_pos hfull, if_pos (hoverflows.mpr ⟨hcounts.mpr hcount, hfull⟩), h.reload]
      · rw [if_neg hfull, if_neg fun ho => hfull (hoverflows.mp ho).2]
        bv_omega
    · have hidle : ¬ s.counted.timerBCounts = true := fun hc => hcount (hcounts.mp hc)
      rw [if_neg hcount, if_neg fun ho => hidle (hoverflows.mp ho).1, if_neg hidle, h.count]
      rfl
  · rw [tickCount_tick, prescaled_succ, eventCount_tick, h.overflows]
    by_cases hcount : (s₀ + tickCount es + 1) % 256 = 0
    · rw [if_pos hcount, Reload.overflows_succ hL hv, ← h.count]
      by_cases hfull : (s.memory TCB1).toNat + 1 = 256
      · rw [if_pos hfull, hoverflows.mpr ⟨hcounts.mpr hcount, hfull⟩]
        rfl
      · rw [if_neg hfull, Bool.eq_false_iff.mpr fun ho => hfull (hoverflows.mp ho).2]
        rfl
    · rw [if_neg hcount, Bool.eq_false_iff.mpr fun ho => hcount (hcounts.mp (hoverflows.mp ho).1)]
      rfl
  · rw [subClock_IRR2, eventCount_tick]
    cases s.counted.timerBOverflows with
    | true =>
      rw [if_pos rfl, Byte.has_or, show IRRTB1.has IRRTB1 = true by decide, Bool.or_true]
      simp
    | false =>
      rw [if_neg (by simp), h.request]
      rfl

/-- Timer B from any count and phase, over any number of subclocks with other
steps between them. -/
theorem timerB_closed_form {s t : Walker} {es : List (Option Bool)} {L v c : Nat}
    (hon : s.TimerBEnabled) (hL : s.TimerB.TLBvalue.toNat = L) (hv : (s.memory TCB1).toNat = v)
    (h : Runs TimerBTicks s es t)
    (hc : c = (s.subClockCyclesEllapsed.toNat + tickCount es) / 256 -
      s.subClockCyclesEllapsed.toNat / 256) :
    (c < 256 - v → (t.memory TCB1).toNat = v + c ∧ eventCount es = 0) ∧
    (256 - v ≤ c →
      eventCount es = 1 + (c - (256 - v)) / (256 - L) ∧
      (t.memory TCB1).toNat = L + (c - (256 - v)) % (256 - L)) ∧
    ((t.memory IRQ_IRR2).has IRRTB1 = true ↔
      (s.memory IRQ_IRR2).has IRRTB1 = true ∨ 0 < eventCount es) := by
  subst hL hv hc
  have hend := h.trace_invariant (I := TimerBAfter s.TimerB.TLBvalue.toNat (s.memory TCB1).toNat
    s.subClockCyclesEllapsed.toNat ((s.memory IRQ_IRR2).has IRRTB1)) ?_ (.start hon)
  · have hcount := hend.count
    have hoverflows := hend.overflows
    unfold Reload.value prescaled at hcount
    unfold Reload.overflows prescaled at hoverflows
    refine ⟨fun hlt => ?_, fun hge => ?_, ?_⟩
    · rw [if_pos hlt] at hcount hoverflows
      exact ⟨hcount, hoverflows⟩
    · rw [if_neg (Nat.not_lt.mpr hge)] at hcount hoverflows
      exact ⟨hoverflows, hcount⟩
    · rw [hend.request]
      simp
  · intro es u e w hu hstep
    cases hstep with
    | tick => exact hu.tick s.TimerB.TLBvalue.isLt (s.memory TCB1).isLt
    | elsewhere hk => exact hu.elsewhere hk

/-- Subclock 255, TCB1 one below the overflow, TLB1 two below: one subclock
reloads and requests. -/
theorem timerB_closed_form_reload : ∃ (s t : Walker) (es : _), Runs TimerBTicks s es t ∧
    t.memory TCB1 = 0xfe ∧ (t.memory IRQ_IRR2).has IRRTB1 = true := by
  let memory : Memory := Function.update (Function.update (Function.update (fun _ => 0)
    TCB1 0xff) CKSTPR1 TB1CKSTP) TMB1 TMB_COUNTING
  let s : Walker :=
    { memory := memory, TimerB := { on := true, TLBvalue := 0xfe }, subClockCyclesEllapsed := 255 }
  have hon : s.TimerBEnabled := ⟨rfl, by decide, by decide⟩
  have h := timerB_closed_form hon rfl rfl (.single (.tick s)) rfl
  refine ⟨s, s.subClock, _, .single (.tick s), ?_, h.2.2.mpr (.inr (by decide))⟩
  rw [← BitVec.toNat_inj]
  exact (h.2.1 (by decide)).2.trans (by decide)

-- ---------------------------------------------------------------------------
-- One count of Timer W
-- ---------------------------------------------------------------------------

def timerWMatches (s : Walker) : Bool :=
  s.TimerW.on && s.nextCount == getMemory16 s.memory 0xf0f8

/-- Both enable bits, the latch of the subclock before, and clearing on a match. -/
structure TimerWEnabled (s : Walker) : Prop where
  latch : s.TimerW.on = true
  clock : (s.memory CKSTPR2).has TWCKSTP = true
  counting : (s.memory TMRW).has CTS = true
  clearing : (s.memory TCRW).has CCLR = true

structure TimerWKept (s t : Walker) : Prop where
  timer : t.TimerW = s.TimerW
  registers : ∀ a ∈ [TMRW, TCRW, TSRW, 0xf0f6, 0xf0f7, 0xf0f8, 0xf0f9, CKSTPR2],
    t.memory a = s.memory a

/-- Subclocks, and other steps that do not write to Timer W. The event of a
subclock is a compare match. -/
def TimerWTicks : Walker → Option Bool → Walker → Prop :=
  Ticks runSubClock timerWMatches TimerWKept

theorem getMemory16_congr {m m' : Memory} {a : BitVec 32} (h : m (maskAddress a) = m' (maskAddress a))
    (h' : m (maskAddress a + 1) = m' (maskAddress a + 1)) : getMemory16 m a = getMemory16 m' a := by
  unfold getMemory16
  rw [h, h']

theorem setMemory16_idem (m : Memory) (a : BitVec 32) (v w : BitVec 16) :
    setMemory16 (setMemory16 m a v) a w = setMemory16 m a w := by
  have hne : maskAddress a ≠ maskAddress a + 1 := by bv_omega
  unfold setMemory16
  dsimp only
  rw [Function.update_comm hne, Function.update_idem, Function.update_comm hne.symm,
    Function.update_idem]

theorem compareMatchA_memory (s : Walker) : s.compareMatchA.memory =
    let cleared :=
      if (s.memory TCRW).has CCLR then setMemory16 s.memory TCNT_ADDRESS 0 else s.memory
    Function.update cleared TSRW (cleared TSRW ||| 0x1) := by
  unfold compareMatchA
  dsimp only
  split <;> split <;> rfl

theorem runTimerW_memory {s : Walker} (h : s.TimerWEnabled) : s.runTimerW.memory =
    if s.timerWMatches then
      Function.update (setMemory16 s.memory TCNT_ADDRESS 0) TSRW (s.memory TSRW ||| 0x1)
    else setMemory16 s.memory TCNT_ADDRESS s.nextCount := by
  let memory := setMemory16 s.memory TCNT_ADDRESS s.nextCount
  have hnext : getMemory16 s.memory TCNT_ADDRESS + 1 = s.nextCount := by
    simp [nextCount, h.counting]
  have hgra : getMemory16 memory 0xf0f8 = getMemory16 s.memory 0xf0f8 := by
    refine getMemory16_congr (setMemory16_ne _ _ ?_ ?_) (setMemory16_ne _ _ ?_ ?_) <;> decide
  have hclear : (memory TCRW).has CCLR = true := by
    rw [show memory TCRW = s.memory TCRW from setMemory16_ne _ _ (by decide) (by decide)]
    exact h.clearing
  unfold runTimerW timerWMatches
  simp only [h.latch, h.counting, ↓reduceIte, Bool.true_and, beq_iff_eq, hnext]
  rw [getMemory16_setMemory16, hgra]
  split
  · rw [compareMatchA_memory]
    dsimp only
    rw [if_pos hclear, setMemory16_idem,
      show setMemory16 s.memory TCNT_ADDRESS 0 TSRW = s.memory TSRW from
        setMemory16_ne _ _ (by decide) (by decide)]
  · rfl

theorem TimerWEnabled.kept {s t : Walker} (h : s.TimerWEnabled) (hk : s.TimerWKept t) :
    t.TimerWEnabled where
  latch := hk.timer ▸ h.latch
  clock := hk.registers CKSTPR2 (by simp) ▸ h.clock
  counting := hk.registers TMRW (by simp) ▸ h.counting
  clearing := hk.registers TCRW (by simp) ▸ h.clearing

theorem TimerWKept.words {s t : Walker} (h : s.TimerWKept t) :
    getMemory16 t.memory TCNT_ADDRESS = getMemory16 s.memory TCNT_ADDRESS ∧
      getMemory16 t.memory 0xf0f8 = getMemory16 s.memory 0xf0f8 := by
  constructor
  · exact getMemory16_congr (h.registers 0xf0f6 (by simp)) (h.registers 0xf0f7 (by simp))
  · exact getMemory16_congr (h.registers 0xf0f8 (by simp)) (h.registers 0xf0f9 (by simp))

theorem runTimerB_keepsW (s : Walker) : s.TimerWKept s.runTimerB := by
  obtain ⟨-, hW, -, hm⟩ := s.runTimerB_elsewhere
  have apart : [TMRW, TCRW, TSRW, 0xf0f6, 0xf0f7, 0xf0f8, 0xf0f9, CKSTPR2].all
      (fun a => a ≠ TCB1 ∧ a ≠ IRQ_IRR2) = true := by decide
  refine ⟨hW, fun a ha => ?_⟩
  obtain ⟨h₁, h₂⟩ := of_decide_eq_true (List.all_eq_true.mp apart a ha)
  exact hm a h₁ h₂

theorem TimerWKept.timerWMatches {s t : Walker} (h : s.TimerWKept t) :
    t.timerWMatches = s.timerWMatches := by
  unfold Walker.timerWMatches nextCount
  rw [h.timer, h.words.1, h.words.2, h.registers TMRW (by simp)]

theorem nextCount_enabled {s : Walker} (h : s.TimerWEnabled) :
    s.nextCount = getMemory16 s.memory TCNT_ADDRESS + 1 := by
  simp [nextCount, h.counting]

theorem runSubClock_timerW {s : Walker} (h : s.TimerWEnabled) :
    s.runSubClock.TimerWEnabled ∧
    getMemory16 s.runSubClock.memory TCNT_ADDRESS =
      (if s.timerWMatches then 0 else getMemory16 s.memory TCNT_ADDRESS + 1) ∧
    getMemory16 s.runSubClock.memory 0xf0f8 = getMemory16 s.memory 0xf0f8 ∧
    s.runSubClock.memory TSRW =
      (if s.timerWMatches then s.memory TSRW ||| 0x1 else s.memory TSRW) := by
  have hkept := s.runTimerB_keepsW
  have henabled := h.kept hkept
  have hmemory : s.runSubClock.memory = s.runTimerB.runTimerW.memory := rfl
  rw [runTimerW_memory henabled, hkept.timerWMatches, nextCount_enabled henabled, hkept.words.1,
    hkept.registers TSRW (by simp)] at hmemory
  have hsame (a : BitVec 16) (h₁ : a ≠ TSRW) (h₂ : a ≠ 0xf0f6) (h₃ : a ≠ 0xf0f7)
      (h₄ : a ≠ TCB1) (h₅ : a ≠ IRQ_IRR2) : s.runSubClock.memory a = s.memory a :=
    ((runTimerW_elsewhere s.runTimerB).2.2.2 a h₁ h₂ h₃).trans
      (s.runTimerB_elsewhere.2.2.2 a h₄ h₅)
  have hclock : (s.runSubClock.memory CKSTPR2).has TWCKSTP = true := by
    rw [hsame CKSTPR2 (by decide) (by decide) (by decide) (by decide) (by decide)]
    exact h.clock
  have hcounting : (s.runSubClock.memory TMRW).has CTS = true := by
    rw [hsame TMRW (by decide) (by decide) (by decide) (by decide) (by decide)]
    exact h.counting
  have hclearing : (s.runSubClock.memory TCRW).has CCLR = true := by
    rw [hsame TCRW (by decide) (by decide) (by decide) (by decide) (by decide)]
    exact h.clearing
  refine ⟨⟨?_, hclock, hcounting, hclearing⟩, ?_, ?_, ?_⟩
  · change (Byte.has _ _ && Byte.has _ _) = true
    rw [Bool.and_eq_true]
    exact ⟨hclock, hcounting⟩
  · rw [hmemory]
    split
    · rw [getMemory16_congr (Function.update_of_ne (by decide) _ _)
        (Function.update_of_ne (by decide) _ _), getMemory16_setMemory16]
    · exact getMemory16_setMemory16 _ _ _
  · refine getMemory16_congr (hsame _ ?_ ?_ ?_ ?_ ?_) (hsame _ ?_ ?_ ?_ ?_ ?_) <;> decide
  · rw [hmemory]
    split
    · exact Function.update_self _ _ _
    · exact (setMemory16_ne _ _ (by decide) (by decide)).trans (hkept.registers TSRW (by simp))

/-- Timer W after the ticks of `es`, from count `c₀`, with GRA `g`. -/
structure TimerWAfter (g c₀ : Nat) (matched : Bool) (es : List (Option Bool)) (s : Walker) :
    Prop where
  enabled : s.TimerWEnabled
  gra : (getMemory16 s.memory 0xf0f8).toNat = g
  count : (getMemory16 s.memory TCNT_ADDRESS).toNat = Reload.value g 0 c₀ (tickCount es)
  compares : eventCount es = Reload.overflows g 0 c₀ (tickCount es)
  imfa : (s.memory TSRW).has 0x1 = (matched || 0 < eventCount es)

theorem TimerWAfter.start {s : Walker} (h : s.TimerWEnabled)
    (hlt : (getMemory16 s.memory TCNT_ADDRESS).toNat < (getMemory16 s.memory 0xf0f8).toNat) :
    TimerWAfter (getMemory16 s.memory 0xf0f8).toNat (getMemory16 s.memory TCNT_ADDRESS).toNat
      ((s.memory TSRW).has 0x1) [] s where
  enabled := h
  gra := rfl
  count := (Reload.value_zero hlt).symm
  compares := (Reload.overflows_zero hlt).symm
  imfa := by simp [eventCount]

theorem TimerWAfter.elsewhere {s t : Walker} (h : TimerWAfter g c₀ matched es s)
    (hk : s.TimerWKept t) : TimerWAfter g c₀ matched (es ++ [none]) t := by
  refine ⟨h.enabled.kept hk, ?_, ?_, ?_, ?_⟩
  · rw [hk.words.2, h.gra]
  · rw [hk.words.1, h.count, tickCount_elsewhere]
  · rw [eventCount_elsewhere, h.compares, tickCount_elsewhere]
  · rw [hk.registers TSRW (by simp), h.imfa, eventCount_elsewhere]

theorem TimerWAfter.tick {s : Walker} (hlt : c₀ < g) (h : TimerWAfter g c₀ matched es s) :
    TimerWAfter g c₀ matched (es ++ [some s.timerWMatches]) s.runSubClock := by
  have hpos : 0 < g := Nat.zero_lt_of_lt hlt
  have hbelow : (getMemory16 s.memory TCNT_ADDRESS).toNat < g := by
    rw [h.count]
    exact Reload.value_lt hpos hlt _
  have hmatch : s.timerWMatches = true ↔
      (getMemory16 s.memory TCNT_ADDRESS).toNat + 1 = g := by
    unfold timerWMatches
    rw [h.enabled.latch, Bool.true_and, beq_iff_eq, nextCount_enabled h.enabled, ← h.gra]
    have hgra := h.gra
    bv_omega
  obtain ⟨henabled, hcount, hgra, himfa⟩ := runSubClock_timerW h.enabled
  refine ⟨henabled, ?_, ?_, ?_, ?_⟩
  · rw [hgra, h.gra]
  · rw [hcount, tickCount_tick, Reload.value_succ hpos hlt, ← h.count]
    by_cases hfull : (getMemory16 s.memory TCNT_ADDRESS).toNat + 1 = g
    · rw [if_pos hfull, if_pos (hmatch.mpr hfull)]
      rfl
    · rw [if_neg hfull, if_neg fun hm => hfull (hmatch.mp hm)]
      have hgra := h.gra
      bv_omega
  · rw [tickCount_tick, eventCount_tick, Reload.overflows_succ hpos hlt, h.compares, ← h.count]
    by_cases hfull : (getMemory16 s.memory TCNT_ADDRESS).toNat + 1 = g
    · rw [if_pos hfull, hmatch.mpr hfull]
      rfl
    · rw [if_neg hfull, Bool.eq_false_iff.mpr fun hm => hfull (hmatch.mp hm)]
      rfl
  · rw [himfa, eventCount_tick]
    cases s.timerWMatches with
    | true =>
      rw [if_pos rfl, Byte.has_or, show Byte.has 0x1 0x1 = true by decide, Bool.or_true]
      simp
    | false =>
      rw [if_neg (by simp), h.imfa]
      rfl

/-- The interrupt mask decides the entry, and no byte of the memory. -/
theorem runSubClock_masked {s : Walker} (h : s.TimerWEnabled) (masked : Bool) :
    ({ s with flags := { s.flags with I := masked } }.runSubClock).memory =
      s.runSubClock.memory := by
  have hB (u : Walker) (hu : u.TimerWEnabled) : u.runSubClock.memory =
      if u.timerWMatches then Function.update (setMemory16 u.runTimerB.memory TCNT_ADDRESS 0) TSRW
        (u.memory TSRW ||| 0x1)
      else setMemory16 u.runTimerB.memory TCNT_ADDRESS u.nextCount := by
    have hkept := u.runTimerB_keepsW
    change u.runTimerB.runTimerW.memory = _
    rw [runTimerW_memory (hu.kept hkept), hkept.timerWMatches, hkept.registers TSRW (by simp),
      nextCount_enabled (hu.kept hkept), nextCount_enabled hu, hkept.words.1]
  have hmasked : { s with flags := { s.flags with I := masked } }.TimerWEnabled :=
    ⟨h.latch, h.clock, h.counting, h.clearing⟩
  rw [hB _ hmasked, hB s h, runTimerB_memory, runTimerB_memory]
  rfl

/-- Timer W from any count below GRA, over any number of subclocks with other
steps between them. Whether a match is masked makes no difference to it. -/
theorem timerW_closed_form {s t : Walker} {es : List (Option Bool)} {g c₀ : Nat}
    (hon : s.TimerWEnabled) (hg : (getMemory16 s.memory 0xf0f8).toNat = g)
    (hc : (getMemory16 s.memory TCNT_ADDRESS).toNat = c₀) (hlt : c₀ < g)
    (h : Runs TimerWTicks s es t) :
    (getMemory16 t.memory TCNT_ADDRESS).toNat = (c₀ + tickCount es) % g ∧
    (getMemory16 t.memory TCNT_ADDRESS).toNat < g ∧
    eventCount es = (c₀ + tickCount es) / g ∧
    ((t.memory TSRW).has 0x1 = true ↔ (s.memory TSRW).has 0x1 = true ∨ 0 < eventCount es) ∧
    ∀ masked, ({ t with flags := { t.flags with I := masked } }.runSubClock).memory =
      t.runSubClock.memory := by
  subst hg hc
  have hend := h.trace_invariant (I := TimerWAfter (getMemory16 s.memory 0xf0f8).toNat
    (getMemory16 s.memory TCNT_ADDRESS).toNat ((s.memory TSRW).has 0x1)) ?_ (.start hon hlt)
  · have hcount := hend.count
    rw [Reload.value_modulo hlt] at hcount
    refine ⟨hcount, ?_, ?_, ?_, runSubClock_masked hend.enabled⟩
    · rw [hcount]
      exact Nat.mod_lt _ (Nat.zero_lt_of_lt hlt)
    · rw [hend.compares, Reload.overflows_modulo hlt]
    · rw [hend.imfa]
      simp
  · intro es u e w hu hstep
    cases hstep with
    | tick => exact hu.tick hlt
    | elsewhere hk => exact hu.elsewhere hk

/-- GRA 3, from TCNT 1: the second subclock matches. -/
theorem timerW_closed_form_match : ∃ (s t : Walker) (es : _), Runs TimerWTicks s es t ∧
    getMemory16 t.memory TCNT_ADDRESS = 0 ∧ (t.memory TSRW).has 0x1 = true := by
  let memory : Memory := Function.update (Function.update (Function.update (Function.update
    (Function.update (fun _ => 0) 0xf0f9 3) 0xf0f7 1) CKSTPR2 TWCKSTP) TMRW CTS) TCRW CCLR
  let s : Walker := { memory := memory, TimerW := { on := true } }
  have hon : s.TimerWEnabled := ⟨rfl, by decide, by decide, by decide⟩
  have hrun : Runs TimerWTicks s [some s.timerWMatches, some s.runSubClock.timerWMatches]
      s.runSubClock.runSubClock := .cons (.tick s) (.single (.tick _))
  have hg : (getMemory16 s.memory 0xf0f8).toNat = 3 := by decide
  have hc : (getMemory16 s.memory TCNT_ADDRESS).toNat = 1 := by decide
  have h := timerW_closed_form hon hg hc (by decide) hrun
  refine ⟨s, s.runSubClock.runSubClock, _, hrun, ?_, h.2.2.2.1.mpr (.inr (by decide))⟩
  rw [← BitVec.toNat_inj]
  exact h.1.trans (by simp [tickCount])

-- ---------------------------------------------------------------------------
-- The ticks of a call
-- ---------------------------------------------------------------------------

theorem SsuFrame.timerB {s t : Walker} (h : SsuFrame s t) : s.TimerBKept t where
  timer := (congrArg (·.TimerB) h.offBus : t.offBus.TimerB = s.offBus.TimerB)
  subClocks := (congrArg (·.subClockCyclesEllapsed) h.offBus :
    t.offBus.subClockCyclesEllapsed = s.offBus.subClockCyclesEllapsed)
  registers a ha := by
    refine h.memory a ?_ ?_
    · exact ne_of_mem_of_not_mem ha (by decide)
    · exact ne_of_mem_of_not_mem ha (by decide)
  request := by rw [h.memory IRQ_IRR2 (by decide) (by decide)]

theorem SsuFrame.timerW {s t : Walker} (h : SsuFrame s t) : s.TimerWKept t where
  timer := (congrArg (·.TimerW) h.offBus : t.offBus.TimerW = s.offBus.TimerW)
  registers a ha := by
    refine h.memory a ?_ ?_
    · exact ne_of_mem_of_not_mem ha (by decide)
    · exact ne_of_mem_of_not_mem ha (by decide)

theorem interruptHandling_timers (s : Walker) :
    s.TimerBKept s.interruptHandling ∧ s.TimerWKept s.interruptHandling := by
  rcases s.interruptHandling_cases with h | ⟨-, vector, queue, h⟩
  · rw [h]
    exact ⟨⟨rfl, rfl, fun _ _ => rfl, rfl⟩, ⟨rfl, fun _ _ => rfl⟩⟩
  · rw [h]
    exact ⟨⟨rfl, rfl, fun _ _ => rfl, rfl⟩, ⟨rfl, fun _ _ => rfl⟩⟩

end Walker

namespace Machine

section
variable {step : Walker → Option Bool → Walker → Prop}
  (hssu : ∀ s t, Walker.SsuFrame s t → step s none t)
  (hsub : ∀ s : Walker, ∃ es, Runs step s es s.subClock)

include hssu hsub

theorem Cycle.ticks {m t : Machine} (h : m.Cycle t) : ∃ es, Runs step m.toWalker es t.toWalker := by
  cases h with
  | plain h => exact ⟨[none], .single (hssu _ _ h)⟩
  | @subClock u _ h ht =>
    obtain ⟨es, hes⟩ := hsub u
    rw [← ht]
    exact ⟨none :: es, .cons (hssu _ _ h) hes⟩

theorem clockHandling_ticks (m : Machine) :
    m.clockHandling.Holds fun t => ∃ es, Runs step m.toWalker es t.toWalker := by
  refine m.clockCycle_cycle.andThen ?_ ?_
  · rintro u ⟨hu, -⟩
    exact hu.ticks hssu hsub
  · rintro u ⟨hu, -⟩
    obtain ⟨es, hes⟩ := hu.ticks hssu hsub
    refine u.clockCycle_cycle.mono ?_
    rintro t ⟨ht, -⟩
    obtain ⟨fs, hfs⟩ := ht.ticks hssu hsub
    exact ⟨es ++ fs, hes.append hfs⟩

end

theorem call_timerB {m t : Machine} (hd : m.Dispatches s) (hk : m.toWalker.TimerBKept s)
    (h : m.runNextInstruction.Leaves t) :
    ∃ es, Runs Walker.TimerBTicks m.toWalker es t.toWalker := by
  have hssu (s t : Walker) (hf : Walker.SsuFrame s t) : Walker.TimerBTicks s none t :=
    .elsewhere hf.timerB
  have hsub (s : Walker) : ∃ es, Runs Walker.TimerBTicks s es s.subClock :=
    ⟨[some s.counted.timerBOverflows], .single (.tick s)⟩
  rw [hd.run] at h
  obtain ⟨es, hes⟩ := (clockHandling_ticks hssu hsub _).leaves h
  have hdispatch := s.interruptHandling_timers.1
  exact ⟨none :: none :: es, .cons (.elsewhere hk) (.cons (.elsewhere hdispatch) hes)⟩

theorem call_timerW {m t : Machine} (hd : m.Dispatches s) (hk : m.toWalker.TimerWKept s)
    (h : m.runNextInstruction.Leaves t) :
    ∃ es, Runs Walker.TimerWTicks m.toWalker es t.toWalker := by
  have hssu (s t : Walker) (hf : Walker.SsuFrame s t) : Walker.TimerWTicks s none t :=
    .elsewhere hf.timerW
  have hsub (s : Walker) : ∃ es, Runs Walker.TimerWTicks s es s.subClock := by
    have hcounted : s.TimerWKept s.counted := ⟨rfl, fun _ _ => rfl⟩
    exact ⟨[none, some s.counted.timerWMatches],
      .cons (.elsewhere hcounted) (.single (.tick s.counted))⟩
  rw [hd.run] at h
  obtain ⟨es, hes⟩ := (clockHandling_ticks hssu hsub _).leaves h
  have hdispatch := s.interruptHandling_timers.2
  exact ⟨none :: none :: es, .cons (.elsewhere hk) (.cons (.elsewhere hdispatch) hes)⟩

end Machine

end PokeStroller
