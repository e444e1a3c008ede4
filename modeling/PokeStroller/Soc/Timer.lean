import PokeStroller.Lib.Reload
import PokeStroller.Soc.Clocks

/-!
# Timer B1

The timer divides the emulated time and counts up to an overflow, from which it starts
again at its load value. At a rate that no instruction exceeds it misses no count.
-/

namespace PokeStroller.Soc

open Exec

variable {localtime : BitVec 64 → Tm} {synthesize : BuzzerInformation → τ → τ × BitVec 16}
  {pw pw' : Adapter H838606 τ} {s t : H838606}

-- ---------------------------------------------------------------------------
-- A cycle of the timer
-- ---------------------------------------------------------------------------

def IoRegister.ofTimerB1 : IoRegister → Bool
  | CKSTPR1 | TMB1 | TCB1_TLB1 | IRR2 => true
  | _ => false

namespace TimerB1

def rate (t : TimerB1) : Nat := clock_rates (t.TMB1.setWidth 3)

def requested (s : H838606) : Bool := s.interrupts.IRR2.getLsbD IRR2_t.IRRTB1

/-- The timer and its request, some counts after `s`. -/
structure Counted (s : H838606) (counts : Nat) (t : H838606) : Prop where
  TMB1 : t.timer_b1.TMB1 = s.timer_b1.TMB1
  TLB1 : t.timer_b1.TLB1 = s.timer_b1.TLB1
  TCB1 : t.timer_b1.TCB1.toNat =
    Reload.value 256 s.timer_b1.TLB1.toNat s.timer_b1.TCB1.toNat counts
  requested : requested t = (requested s ||
    decide (0 < Reload.overflows 256 s.timer_b1.TLB1.toNat s.timer_b1.TCB1.toNat counts))

theorem Counted.refl (s : H838606) : Counted s 0 s where
  TMB1 := rfl
  TLB1 := rfl
  TCB1 := (Reload.value_zero s.timer_b1.TCB1.isLt).symm
  requested := by
    rw [Reload.overflows_zero s.timer_b1.TCB1.isLt]
    exact (Bool.or_false _).symm

theorem Counted.congr {u : H838606} (h : Counted s counts t) (htimer : u.timer_b1 = t.timer_b1)
    (hIRR2 : u.interrupts.IRR2 = t.interrupts.IRR2) : Counted s counts u where
  TMB1 := htimer ▸ h.TMB1
  TLB1 := htimer ▸ h.TLB1
  TCB1 := htimer ▸ h.TCB1
  requested := by
    rw [← h.requested, TimerB1.requested, TimerB1.requested, hIRR2]

def counted (timer_b1_cycles : BitVec 32) (s : H838606) : H838606 :=
  let t := count { s.timer_b1 with timer_b1_cycles := timer_b1_cycles }
  if t.2 then
    { s with timer_b1 := t.1, interrupts.IRR2 := withBit s.interrupts.IRR2 IRR2_t.IRRTB1 true }
  else { s with timer_b1 := t.1 }

theorem Counted.count (h : Counted s counts t) (timer_b1_cycles : BitVec 32) :
    Counted s (counts + 1) (counted timer_b1_cycles t) := by
  have hL : s.timer_b1.TLB1.toNat < 256 := s.timer_b1.TLB1.isLt
  have hv : s.timer_b1.TCB1.toNat < 256 := s.timer_b1.TCB1.isLt
  have hvalue := Reload.value_succ hL hv counts
  have hoverflows := Reload.overflows_succ hL hv counts
  rw [← h.TCB1] at hvalue hoverflows
  by_cases hlast : t.timer_b1.TCB1 = 0xFF
  · have hcounted : counted timer_b1_cycles t = { t with
        timer_b1.timer_b1_cycles := timer_b1_cycles, timer_b1.TCB1 := t.timer_b1.TLB1
        interrupts.IRR2 := withBit t.interrupts.IRR2 IRR2_t.IRRTB1 true } := by
      unfold counted TimerB1.count
      dsimp only
      rw [if_pos hlast]
      rfl
    have hfull : t.timer_b1.TCB1.toNat + 1 = 256 := by
      rw [hlast]
      rfl
    rw [if_pos hfull] at hvalue hoverflows
    rw [hcounted]
    refine ⟨h.TMB1, h.TLB1, ?_, ?_⟩
    · rw [hvalue, ← h.TLB1]
    · rw [hoverflows, decide_eq_true (Nat.succ_pos _), Bool.or_true]
      exact getLsbD_withBit_self _ (by decide) _
  · have hcounted : counted timer_b1_cycles t = { t with
        timer_b1.timer_b1_cycles := timer_b1_cycles, timer_b1.TCB1 := t.timer_b1.TCB1 + 1 } := by
      unfold counted TimerB1.count
      dsimp only
      rw [if_neg hlast]
      rfl
    have hfull : ¬t.timer_b1.TCB1.toNat + 1 = 256 := by
      rintro hfull
      refine hlast (BitVec.eq_of_toNat_eq ?_)
      exact Nat.succ.inj hfull
    have hnext : (t.timer_b1.TCB1 + 1).toNat = t.timer_b1.TCB1.toNat + 1 :=
      BitVec.toNat_add_of_lt (show t.timer_b1.TCB1.toNat + 1 < 256 by omega)
    rw [if_neg hfull] at hvalue hoverflows
    rw [hcounted]
    refine ⟨h.TMB1, h.TLB1, hnext.trans hvalue.symm, ?_⟩
    rw [hoverflows]
    exact h.requested

theorem Cycle_on (cycles : Byte) {s : H838606}
    (hCNT : s.timer_b1.TMB1.getLsbD TMB1_t.CNT = true) : TimerB1.Cycle cycles s =
      if s.timer_b1.rate ≤ (s.timer_b1.timer_b1_cycles + cycles.setWidth 32).toNat then
        counted (s.timer_b1.timer_b1_cycles + cycles.setWidth 32 -
          BitVec.ofNat 32 s.timer_b1.rate) s
      else { s with
        timer_b1.timer_b1_cycles := s.timer_b1.timer_b1_cycles + cycles.setWidth 32 } := by
  unfold TimerB1.Cycle
  rw [if_pos hCNT]
  rfl

theorem counted_cycles (timer_b1_cycles : BitVec 32) (s : H838606) :
    (counted timer_b1_cycles s).timer_b1.timer_b1_cycles = timer_b1_cycles := by
  unfold counted count
  dsimp only
  split
  · split <;> rfl
  · split <;> rfl

theorem rate_small (t : TimerB1) : t.rate < 2 ^ 20 := by
  have hall : ∀ CKS : BitVec 3, clock_rates CKS < 2 ^ 20 := by decide
  exact hall _

/-- A cycle of a timer that is on and not behind. -/
theorem Counted.cycle (h : Counted s counts t) (hCNT : t.timer_b1.TMB1.getLsbD TMB1_t.CNT = true)
    (hleft : t.timer_b1.timer_b1_cycles.toNat < t.timer_b1.rate)
    (hrate : cycles.toNat ≤ t.timer_b1.rate) : ∃ more,
      Divides t.timer_b1.rate t.timer_b1.timer_b1_cycles.toNat cycles.toNat
        (TimerB1.Cycle cycles t).timer_b1.timer_b1_cycles.toNat more ∧
      Counted s (counts + more) (TimerB1.Cycle cycles t) := by
  have hsmall := t.timer_b1.rate_small
  have hsum : (t.timer_b1.timer_b1_cycles + cycles.setWidth 32).toNat =
      t.timer_b1.timer_b1_cycles.toNat + cycles.toNat := by
    bv_omega
  rw [Cycle_on cycles hCNT, hsum]
  split
  · rename_i htick
    have hdiff : (t.timer_b1.timer_b1_cycles + cycles.setWidth 32 -
        BitVec.ofNat 32 t.timer_b1.rate).toNat =
          t.timer_b1.timer_b1_cycles.toNat + cycles.toNat - t.timer_b1.rate := by
      bv_omega
    refine ⟨1, ?_, h.count _⟩
    rw [counted_cycles, hdiff]
    exact .tick htick hrate
  · rename_i hwait
    refine ⟨0, ?_, h.TMB1, h.TLB1, h.TCB1, h.requested⟩
    rw [hsum]
    exact .wait (Nat.not_le.mp hwait)

end TimerB1

-- ---------------------------------------------------------------------------
-- The other devices
-- ---------------------------------------------------------------------------

def H838606.timerB1 (s : H838606) : TimerB1 × Byte := (s.timer_b1, s.interrupts.IRR2)

theorem lateDevices_timerB1 (now : Tm) (cycles : Byte) (s : H838606) :
    (s.lateDevices now cycles).timerB1 = if s.CKSTPR1.getLsbD CKSTPR1_t.TB1CKSTP then
      (TimerB1.Cycle cycles s).timerB1 else s.timerB1 := by
  have hite {p : Prop} [Decidable p] {t u : H838606} (h : t.timerB1 = u.timerB1) :
      (if p then t else u).timerB1 = u.timerB1 := by
    split
    · exact h
    · rfl
  unfold H838606.lateDevices
  extract_lets s₁ s₂ s₃
  have hTimerW : (TimerW.Cycle cycles s₁).timerB1 = s₁.timerB1 := by
    rw [(TimerW_only cycles s₁).eq]
    rfl
  have hRTC : (RTC.Cycle now cycles s₂).timerB1 = s₂.timerB1 := by
    rw [(RTC_only now cycles s₂).eq]
    rfl
  have hADC : (ADC.Cycle s₃).timerB1 = s₃.timerB1 := by
    rw [(ADC_only s₃).eq]
    rfl
  exact (hite hADC).trans ((hite hRTC).trans ((hite hTimerW).trans (apply_ite _ _ _ _)))

theorem write_timerB1 (r : IoRegister) (value : Byte) (s : H838606) (h : r.ofTimerB1 = false) :
    (r.write value s).timerB1 = s.timerB1 ∧ (r.write value s).CKSTPR1 = s.CKSTPR1 := by
  cases r with
  | CKSTPR1 | TMB1 | TCB1_TLB1 | IRR2 => cases h
  | IRCR | SSR =>
    simp only [IoRegister.write, IoRegister.onWrite]
    split <;> exact ⟨rfl, rfl⟩
  | _ => exact ⟨rfl, rfl⟩

theorem Untimed.timerB1 (h : Untimed s t) (hlog : t.log = s.log ++ es)
    (hes : Leaves IoRegister.ofTimerB1 es) :
    t.timer_b1 = s.timer_b1 ∧ t.interrupts.IRR2 = s.interrupts.IRR2 ∧ t.CKSTPR1 = s.CKSTPR1 := by
  have hkept := h.keeps (f := fun x => ((x.timer_b1, x.interrupts.IRR2), x.CKSTPR1)) hlog hes
    fun r value s hown => by
      obtain ⟨htimer, hCKSTPR1⟩ := write_timerB1 r value s hown
      exact congrArg₂ Prod.mk htimer hCKSTPR1
  obtain ⟨htimer, hCKSTPR1⟩ := Prod.mk.inj hkept
  obtain ⟨htimer, hIRR2⟩ := Prod.mk.inj htimer
  exact ⟨htimer, hIRR2, hCKSTPR1⟩

-- ---------------------------------------------------------------------------
-- The timer over a run
-- ---------------------------------------------------------------------------

namespace TimerB1

/-- The timer is supplied and counts, no instruction is longer than its count, and it is
not behind. -/
structure On (s : H838606) : Prop where
  TB1CKSTP : s.CKSTPR1.getLsbD CKSTPR1_t.TB1CKSTP = true
  CNT : s.timer_b1.TMB1.getLsbD TMB1_t.CNT = true
  rate : overshoot ≤ s.timer_b1.rate
  left : s.timer_b1.timer_b1_cycles.toNat < s.timer_b1.rate

/-- The timer of an emulator after this time. -/
def Ran (s : H838606) (pw' : Adapter H838606 τ) (time : Nat) : Prop :=
  pw'.soc.CKSTPR1 = s.CKSTPR1 ∧ ∃ counts,
    Divides s.timer_b1.rate s.timer_b1.timer_b1_cycles.toNat time
      pw'.soc.timer_b1.timer_b1_cycles.toNat counts ∧ Counted s counts pw'.soc

theorem Ran.cycle {q q' : Adapter H838606 τ} (h : Ran s q time) (hon : On s)
    (hcycle : H838606.Cycle now q.soc = .ok (elapsed, calls) q'.soc)
    (hlog : q'.soc.log = q.soc.log ++ es) (hes : Leaves IoRegister.ofTimerB1 es) :
    Ran s q' (time + elapsed.toNat) := by
  obtain ⟨hkept, counts, hdivides, hcounted⟩ := h
  obtain ⟨hcost, u, hearly, hlate⟩ := Cycle_ok hcycle
  have hulog : u.log = q.soc.log ++ es := by rw [← hlog, hlate, lateDevices_log]
  obtain ⟨htimer, hIRR2, hCKSTPR1⟩ := hearly.untimed.timerB1 hulog hes
  have hlateTimer := lateDevices_timerB1 now elapsed u
  rw [← hlate, hCKSTPR1, hkept, if_pos hon.TB1CKSTP] at hlateTimer
  obtain ⟨htimer', hIRR2'⟩ := Prod.mk.inj hlateTimer
  have hu := hcounted.congr htimer hIRR2
  have hrate : u.timer_b1.rate = s.timer_b1.rate := by rw [TimerB1.rate, hu.TMB1, TimerB1.rate]
  have hCNT : u.timer_b1.TMB1.getLsbD TMB1_t.CNT = true := hu.TMB1 ▸ hon.CNT
  have hleft : u.timer_b1.timer_b1_cycles.toNat < u.timer_b1.rate := by
    rw [hrate, htimer]
    exact hdivides.below hon.left
  have hshort : elapsed.toNat ≤ u.timer_b1.rate := hrate ▸ hcost.2.trans hon.rate
  obtain ⟨more, hmore, hcount⟩ := hu.cycle hCNT hleft hshort
  rw [hrate, htimer, ← htimer'] at hmore
  refine ⟨?_, counts + more, hdivides.trans hmore, hcount.congr htimer' hIRR2'⟩
  rw [hlate, (lateDevices_frame now elapsed u).eq]
  exact hCKSTPR1.trans hkept

end TimerB1

/-- Over every run in which the firmware leaves the timer on and alone: the timer has counted
the emulated time, exactly, and has requested its interrupt if it has overflowed. -/
theorem timerB1_counts (h : Runs (Emulates localtime synthesize) pw calls pw')
    (hon : TimerB1.On pw.soc) (hlog : pw'.soc.log = pw.soc.log ++ es)
    (hes : Leaves IoRegister.ofTimerB1 es) (htime : pw'.log = pw.log ++ fs) :
    let timer := pw.soc.timer_b1
    let counts := (timer.timer_b1_cycles.toNat + emulatedCycles fs) / timer.rate
    pw'.soc.timer_b1.timer_b1_cycles.toNat =
        (timer.timer_b1_cycles.toNat + emulatedCycles fs) % timer.rate ∧
      pw'.soc.timer_b1.TCB1.toNat = Reload.value 256 timer.TLB1.toNat timer.TCB1.toNat counts ∧
      TimerB1.requested pw'.soc = (TimerB1.requested pw.soc ||
        decide (0 < Reload.overflows 256 timer.TLB1.toNat timer.TCB1.toNat counts)) := by
  obtain ⟨ps, hchanges⟩ := emulates_changes h
  obtain ⟨es', fs', hlog', htime', hduration, hran⟩ := changes_history
    (K := fun q before => TimerB1.Ran pw.soc q (duration before)) hchanges
    ⟨rfl, 0, .refl _ _, .refl _⟩
    (fun _ _ _ _ pass _ hran hcycle _ _ hlog hes => by
      rw [duration_concat]
      exact hran.cycle hon hcycle hlog hes)
    (fun _ _ _ _ ⟨hkept, counts, hdivides, hcounted⟩ huntimed _ _ hlog hes => by
      obtain ⟨htimer, hIRR2, hCKSTPR1⟩ := huntimed.timerB1 hlog hes
      exact ⟨hCKSTPR1.trans hkept, counts, htimer ▸ hdivides, hcounted.congr htimer hIRR2⟩)
  obtain rfl := List.append_cancel_left (hlog.symm.trans hlog')
  obtain rfl := List.append_cancel_left (htime.symm.trans htime')
  obtain ⟨-, counts, hdivides, hcounted⟩ := hran hes
  rw [← hduration] at hdivides
  obtain ⟨rfl, hleft⟩ := hdivides.quotient hon.left
  exact ⟨hleft, hcounted.TCB1, hcounted.requested⟩

/-- A firmware that loops, with the timer about to overflow. -/
def aboutToOverflow : Adapter H838606 Unit where
  soc := { H838606.reset (fun i => [0x00, 0x02, 0x40, 0xFE].getD i 0) (fun _ => 0xFF) with
    CKSTPR1 := 0x04, timer_b1 := { TMB1 := 0x43, TCB1 := 0xFF, TLB1 := 0x80 } }
  sound := ()

theorem timerB1_counts_overflow :
    Runs (Emulates (fun _ => {}) fun _ _ => ((), 0)) aboutToOverflow [.host (.run 100)]
      (sliced (fun _ => {}) 100 aboutToOverflow) ∧
    (sliced (fun _ => {}) 100 aboutToOverflow).soc.timer_b1.TCB1.toNat = 0x80 ∧
    TimerB1.requested (sliced (fun _ => {}) 100 aboutToOverflow).soc = true := by
  have hruns : Runs (Emulates (fun _ => {}) fun _ _ => ((), 0)) aboutToOverflow [.host (.run 100)]
      (sliced (fun _ => {}) 100 aboutToOverflow) := .single (sliced_emulates (by decide +kernel))
  have hon : TimerB1.On aboutToOverflow.soc :=
    ⟨by decide, by decide, by decide, by decide⟩
  have hlog : (sliced (fun _ => {}) 100 aboutToOverflow).soc.log = aboutToOverflow.soc.log ++ [] := by
    decide +kernel
  have htime : (sliced (fun _ => {}) 100 aboutToOverflow).log =
      aboutToOverflow.log ++ List.replicate 50 (.elapsed 2) := by decide +kernel
  obtain ⟨-, hcount, hrequested⟩ := timerB1_counts hruns hon hlog
    (fun _ _ he => absurd he List.not_mem_nil) htime
  refine ⟨hruns, hcount.trans ?_, hrequested.trans ?_⟩
  · decide +kernel
  · decide +kernel

end PokeStroller.Soc
