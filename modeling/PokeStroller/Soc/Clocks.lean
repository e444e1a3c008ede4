import PokeStroller.Lib.Divider
import PokeStroller.Soc.Passing

/-!
# The clock

The real-time clock divides the emulated time into quarters of a second. While the
firmware leaves it on and does not set it, it loses no cycle over any run, and its
registers show the time of its last tick.
-/

namespace PokeStroller.Soc

open Exec

variable {localtime : BitVec 64 → Tm} {synthesize : BuzzerInformation → τ → τ × BitVec 16}
  {pw pw' pw'' : Adapter H838606 τ} {s t : H838606}

-- ---------------------------------------------------------------------------
-- A cycle of the clock
-- ---------------------------------------------------------------------------

/-- The cycles between two ticks. -/
def QUARTER : Nat := PHI_CLK / 4

structure H838606.ClockOn (s : H838606) : Prop where
  RTCCKSTP : s.CKSTPR1.getLsbD CKSTPR1_t.RTCCKSTP = true
  RUN : s.rtc.RTCCR1.getLsbD RTCCR1_t.RUN = true

def IoRegister.ofClock : IoRegister → Bool
  | CKSTPR1 | RTCCR1 | RSECDR | RMINDR | RHRDR | RWKDR => true
  | _ => false

namespace RTC

structure Shows (now : Tm) (rtc : RTC) : Prop where
  RSECDR : rtc.RSECDR = BCD now.tm_sec
  RMINDR : rtc.RMINDR = BCD now.tm_min
  RHRDR : rtc.RHRDR =
    BCD (if rtc.RTCCR1.getLsbD RTCCR1_t.HR24 then now.tm_hour else now.tm_hour % 12)
  RWKDR : rtc.RWKDR = BCD now.tm_wday
  PM : rtc.RTCCR1.getLsbD RTCCR1_t.PM = decide (12 ≤ now.tm_hour)

/-- Where the counts of the clock stay. -/
structure Counts (rtc : RTC) : Prop where
  rtc_cycles : rtc.rtc_cycles.toNat < QUARTER
  quarters : rtc.quarters.toNat < 4

def ticked (now : Tm) (rtc : RTC) : RTC :=
  if (rtc.setTime now).quarters % 4 = 0 then
    { rtc.setTime now with quarters := 0, last_time := now }
  else rtc.setTime now

theorem quarter_rtc (now : Tm) (s : H838606) : (quarter now s).rtc = s.rtc.ticked now := by
  unfold quarter ticked
  dsimp only
  split <;> rfl

theorem setTime_shows (now : Tm) (rtc : RTC) : Shows now (rtc.setTime now) where
  RSECDR := rfl
  RMINDR := rfl
  RHRDR := by
    have hHR24 : (rtc.setTime now).RTCCR1.getLsbD RTCCR1_t.HR24 =
        rtc.RTCCR1.getLsbD RTCCR1_t.HR24 := getLsbD_withBit_ne _ _ (by decide)
    rw [hHR24]
    rfl
  RWKDR := rfl
  PM := getLsbD_withBit_self _ (by decide) _

theorem ticked_shows (now : Tm) (rtc : RTC) : Shows now (rtc.ticked now) := by
  have hshows := setTime_shows now rtc
  unfold ticked
  split
  · exact ⟨hshows.RSECDR, hshows.RMINDR, hshows.RHRDR, hshows.RWKDR, hshows.PM⟩
  · exact hshows

theorem ticked_run (now : Tm) (rtc : RTC) :
    (rtc.ticked now).RTCCR1.getLsbD RTCCR1_t.RUN = rtc.RTCCR1.getLsbD RTCCR1_t.RUN := by
  have hRUN : (rtc.setTime now).RTCCR1.getLsbD RTCCR1_t.RUN = rtc.RTCCR1.getLsbD RTCCR1_t.RUN :=
    getLsbD_withBit_ne _ _ (by decide)
  unfold ticked
  split <;> exact hRUN

theorem ticked_cycles (now : Tm) (rtc : RTC) : (rtc.ticked now).rtc_cycles = rtc.rtc_cycles := by
  unfold ticked
  split <;> rfl

theorem ticked_quarters (now : Tm) {rtc : RTC} (h : rtc.quarters.toNat < 4) :
    (rtc.ticked now).quarters.toNat = (rtc.quarters.toNat + 1) % 4 := by
  have hnext : (rtc.setTime now).quarters.toNat = rtc.quarters.toNat + 1 :=
    BitVec.toNat_add_of_lt (show rtc.quarters.toNat + 1 < 256 by omega)
  have hzero : (rtc.setTime now).quarters % 4 = 0 ↔ (rtc.quarters.toNat + 1) % 4 = 0 := by
    rw [← hnext, ← BitVec.toNat_inj, BitVec.toNat_umod]
    rfl
  unfold ticked
  split
  · rename_i hlast
    exact (hzero.mp hlast).symm
  · rename_i hnot
    rw [hzero] at hnot
    rw [hnext]
    omega

def passed (now : Tm) (cycles : Byte) (rtc : RTC) : RTC :=
  if rtc.RTCCR1.getLsbD RTCCR1_t.RUN then
    let rtc_cycles := rtc.rtc_cycles + cycles.setWidth 32
    if QUARTER ≤ rtc_cycles.toNat then
      ticked now { rtc with rtc_cycles := rtc_cycles - BitVec.ofNat 32 QUARTER }
    else { rtc with rtc_cycles := rtc_cycles }
  else rtc

theorem Cycle_rtc (now : Tm) (cycles : Byte) (s : H838606) :
    (RTC.Cycle now cycles s).rtc = s.rtc.passed now cycles := by
  unfold RTC.Cycle passed QUARTER
  dsimp only
  split
  · split
    · exact quarter_rtc _ _
    · rfl
  · rfl

structure Passed (now : Tm) (cycles : Byte) (rtc rtc' : RTC) (ticks : Nat) : Prop where
  divides : Divides QUARTER rtc.rtc_cycles.toNat cycles.toNat rtc'.rtc_cycles.toNat ticks
  quarters : rtc.quarters.toNat < 4 → rtc'.quarters.toNat = (rtc.quarters.toNat + ticks) % 4
  RUN : rtc'.RTCCR1.getLsbD RTCCR1_t.RUN = true
  ticked : 0 < ticks → rtc'.Shows now ∧ rtc'.rtc_cycles.toNat < cycles.toNat
  waited : ticks = 0 → ∀ shown, rtc.Shows shown → rtc'.Shows shown

theorem passed_spec (now : Tm) (cycles : Byte) {rtc : RTC}
    (hRUN : rtc.RTCCR1.getLsbD RTCCR1_t.RUN = true) (hcycles : rtc.rtc_cycles.toNat < QUARTER) :
    ∃ ticks, Passed now cycles rtc (rtc.passed now cycles) ticks := by
  have hquarter : QUARTER = 921600 := rfl
  have hbyte := cycles.isLt
  have hsum : (rtc.rtc_cycles + cycles.setWidth 32).toNat = rtc.rtc_cycles.toNat + cycles.toNat := by
    bv_omega
  unfold passed
  rw [if_pos hRUN]
  dsimp only
  split
  · rename_i htick
    have hleft : (rtc.rtc_cycles + cycles.setWidth 32 - BitVec.ofNat 32 QUARTER).toNat =
        rtc.rtc_cycles.toNat + cycles.toNat - QUARTER := by
      rw [hquarter] at *
      bv_omega
    refine ⟨1, ?_, fun h => ticked_quarters now h, (ticked_run now _).trans hRUN,
      fun _ => ⟨ticked_shows now _, ?_⟩, fun h => absurd h (by decide)⟩
    · rw [ticked_cycles, hleft]
      rw [hsum] at htick
      exact .tick htick (by omega)
    · rw [ticked_cycles, hleft]
      omega
  · rename_i hwait
    refine ⟨0, ?_, fun h => (Nat.mod_eq_of_lt h).symm, hRUN, fun h => absurd h (by decide),
      fun _ shown hshows => ⟨hshows.RSECDR, hshows.RMINDR, hshows.RHRDR, hshows.RWKDR, hshows.PM⟩⟩
    rw [hsum] at hwait ⊢
    exact .wait (Nat.not_le.mp hwait)

end RTC

theorem lateDevices_clock (now : Tm) (cycles : Byte) (s : H838606) : ∃ u,
    Only (fun s u => { s with
      io_low := u.io_low, timer_b1 := u.timer_b1, timer_w := u.timer_w
      interrupts.IRR2 := u.interrupts.IRR2, interrupts.TSRW := u.interrupts.TSRW }) s u ∧
    Only (fun s t => { s with io_high := t.io_high, adc := t.adc })
      (if s.CKSTPR1.getLsbD CKSTPR1_t.RTCCKSTP then RTC.Cycle now cycles u else u)
      (s.lateDevices now cycles) := by
  unfold H838606.lateDevices
  extract_lets s₁ s₂ s₃
  have h₁ : Only (fun s t => { s with
      timer_b1 := t.timer_b1, interrupts.IRR2 := t.interrupts.IRR2 }) s s₁ :=
    .ite (TimerB1_only cycles s) ⟨rfl⟩
  have h₂ : Only (fun s t => { s with
      io_low := t.io_low, timer_w := t.timer_w, interrupts.TSRW := t.interrupts.TSRW }) s₁ s₂ :=
    .ite (TimerW_only cycles s₁) ⟨rfl⟩
  have hCKSTPR1 : s₂.CKSTPR1 = s.CKSTPR1 := by rw [h₂.eq, h₁.eq]
  refine ⟨s₂, ⟨?_⟩, ?_⟩
  · rw [h₂.eq, h₁.eq]
  · rw [← hCKSTPR1]
    exact .ite (ADC_only s₃) ⟨rfl⟩

theorem lateDevices_rtc (now : Tm) (cycles : Byte) (s : H838606) :
    (s.lateDevices now cycles).CKSTPR1 = s.CKSTPR1 ∧
      (s.lateDevices now cycles).rtc = if s.CKSTPR1.getLsbD CKSTPR1_t.RTCCKSTP then
        s.rtc.passed now cycles else s.rtc := by
  refine ⟨by rw [(lateDevices_frame now cycles s).eq], ?_⟩
  obtain ⟨u, htimers, hconverter⟩ := lateDevices_clock now cycles s
  have hrtc : u.rtc = s.rtc := by rw [htimers.eq]
  rw [hconverter.eq]
  dsimp only
  rw [apply_ite H838606.rtc, RTC.Cycle_rtc, hrtc]

-- ---------------------------------------------------------------------------
-- The clock over a run
-- ---------------------------------------------------------------------------

theorem write_clock (r : IoRegister) (value : Byte) (s : H838606) (h : r.ofClock = false) :
    (r.write value s).rtc = s.rtc ∧ (r.write value s).CKSTPR1 = s.CKSTPR1 := by
  cases r with
  | CKSTPR1 | RTCCR1 | RSECDR | RMINDR | RHRDR | RWKDR => cases h
  | IRCR =>
    simp only [IoRegister.write, IoRegister.onWrite]
    split <;> exact ⟨rfl, rfl⟩
  | SSR =>
    simp only [IoRegister.write, IoRegister.onWrite]
    split <;> exact ⟨rfl, rfl⟩
  | _ => exact ⟨rfl, rfl⟩

theorem Untimed.clock (h : Untimed s t) (hlog : t.log = s.log ++ es)
    (hes : Leaves IoRegister.ofClock es) : t.rtc = s.rtc ∧ t.CKSTPR1 = s.CKSTPR1 := by
  have hkept := h.keeps (f := fun x => (x.rtc, x.CKSTPR1)) hlog hes fun r value s hown => by
    obtain ⟨hrtc, hCKSTPR1⟩ := write_clock r value s hown
    exact congrArg₂ Prod.mk hrtc hCKSTPR1
  exact ⟨congrArg Prod.fst hkept, congrArg Prod.snd hkept⟩

/-- What `Now` returns this time after `pw`. -/
def nowAfter (pw : Adapter H838606 τ) (wall : BitVec 64) (time : Nat) : BitVec 64 :=
  ({ pw with cycles := pw.cycles + BitVec.ofNat 64 time } : Adapter H838606 τ).Now wall

/-- The clock of an emulator after these passes. -/
structure Ran (localtime : BitVec 64 → Tm) (pw pw' : Adapter H838606 τ) (passes : List Pass) :
    Prop where
  on : pw'.soc.ClockOn
  cycles : pw'.cycles = pw.cycles + BitVec.ofNat 64 (duration passes)
  clock_origin : pw'.clock_origin = pw.clock_origin
  counted : ∃ ticks, Divides QUARTER pw.soc.rtc.rtc_cycles.toNat (duration passes)
      pw'.soc.rtc.rtc_cycles.toNat ticks ∧
    pw'.soc.rtc.quarters.toNat = (pw.soc.rtc.quarters.toNat + ticks) % 4 ∧
    (0 < ticks → ∃ earlier pass later, passes = earlier ++ pass :: later ∧
      duration earlier + pw'.soc.rtc.rtc_cycles.toNat < duration passes ∧
      duration passes ≤ duration earlier + pw'.soc.rtc.rtc_cycles.toNat + overshoot ∧
      pw'.soc.rtc.Shows (localtime (nowAfter pw pass.wall (duration earlier))))

namespace Ran

theorem refl (hon : pw.soc.ClockOn) (hcounts : pw.soc.rtc.Counts) : Ran localtime pw pw [] where
  on := hon
  cycles := by simp
  clock_origin := rfl
  counted := ⟨0, .refl _ _, (Nat.mod_eq_of_lt hcounts.quarters).symm,
    fun h => absurd h (Nat.lt_irrefl 0)⟩

theorem between (h : Ran localtime pw pw' passes) (hrtc : pw''.soc.rtc = pw'.soc.rtc)
    (hCKSTPR1 : pw''.soc.CKSTPR1 = pw'.soc.CKSTPR1) (hcycles : pw''.cycles = pw'.cycles)
    (horigin : pw''.clock_origin = pw'.clock_origin) : Ran localtime pw pw'' passes where
  on := ⟨hCKSTPR1 ▸ h.on.RTCCKSTP, hrtc ▸ h.on.RUN⟩
  cycles := hcycles.trans h.cycles
  clock_origin := horigin.trans h.clock_origin
  counted := by
    rw [hrtc]
    exact h.counted

theorem cycle {pass : Pass} (h : Ran localtime pw pw' passes) (hcounts : pw.soc.rtc.Counts)
    (hcycle : H838606.Cycle (localtime (pw'.Now pass.wall)) pw'.soc =
      .ok (pass.elapsed, calls) pw''.soc)
    (hcycles : pw''.cycles = pw'.cycles + pass.elapsed.setWidth 64)
    (horigin : pw''.clock_origin = pw'.clock_origin) (hlog : pw''.soc.log = pw'.soc.log ++ es)
    (hes : Leaves IoRegister.ofClock es) : Ran localtime pw pw'' (passes ++ [pass]) := by
  obtain ⟨hcost, u, hearly, hlate⟩ := Cycle_ok hcycle
  obtain ⟨ticks, hdivides, hquarters, hshown⟩ := h.counted
  have hulog : u.log = pw'.soc.log ++ es := by rw [← hlog, hlate, lateDevices_log]
  obtain ⟨hrtc, hCKSTPR1⟩ := hearly.untimed.clock hulog hes
  obtain ⟨hCKSTPR1', hrtc'⟩ := lateDevices_rtc (localtime (pw'.Now pass.wall)) pass.elapsed u
  rw [← hlate] at hCKSTPR1' hrtc'
  rw [hCKSTPR1, if_pos h.on.RTCCKSTP, hrtc] at hrtc'
  have hbelow := hdivides.below hcounts.rtc_cycles
  have hquarter : pw'.soc.rtc.quarters.toNat < 4 := hquarters ▸ Nat.mod_lt _ (by decide)
  obtain ⟨tick, hpassed⟩ :=
    RTC.passed_spec (localtime (pw'.Now pass.wall)) pass.elapsed h.on.RUN hbelow
  rw [← hrtc'] at hpassed
  have hduration := duration_concat passes pass
  refine ⟨⟨?_, hpassed.RUN⟩, ?_, horigin.trans h.clock_origin, ticks + tick,
    hduration ▸ hdivides.trans hpassed.divides, ?_, fun hticks => ?_⟩
  · rw [hCKSTPR1', hCKSTPR1]
    exact h.on.RTCCKSTP
  · rw [hcycles, h.cycles, hduration]
    bv_omega
  · rw [hpassed.quarters hquarter, hquarters]
    omega
  · rcases Nat.eq_zero_or_pos tick with rfl | htick
    · obtain ⟨earlier, shown, later, hpasses, hafter, hnear, hshows⟩ := hshown hticks
      have hkept := hpassed.divides.kept
      refine ⟨earlier, shown, later ++ [pass], ?_, ?_, ?_, hpassed.waited rfl _ hshows⟩
      · rw [hpasses, List.append_assoc, List.cons_append]
      · omega
      · omega
    · obtain ⟨hshows, hleft⟩ := hpassed.ticked htick
      have hnow : pw'.Now pass.wall = nowAfter pw pass.wall (duration passes) := by
        unfold nowAfter Adapter.Now
        rw [h.cycles, h.clock_origin]
      have hdear := hcost.2
      refine ⟨passes, pass, [], rfl, ?_, ?_, hnow ▸ hshows⟩
      · omega
      · unfold overshoot
        omega

end Ran

-- ---------------------------------------------------------------------------
-- The counts
-- ---------------------------------------------------------------------------

theorem RTC.Counts.congr {rtc rtc' : RTC} (h : rtc.Counts)
    (heq : (rtc'.rtc_cycles, rtc'.quarters) = (rtc.rtc_cycles, rtc.quarters)) : rtc'.Counts := by
  obtain ⟨hcycles, hquarters⟩ := Prod.mk.inj heq
  exact ⟨hcycles ▸ h.rtc_cycles, hquarters ▸ h.quarters⟩

theorem RTC.Counts.passed {rtc : RTC} (h : rtc.Counts) (now : Tm) (cycles : Byte) :
    (rtc.passed now cycles).Counts := by
  by_cases hRUN : rtc.RTCCR1.getLsbD RTCCR1_t.RUN = true
  · obtain ⟨ticks, hpassed⟩ := RTC.passed_spec now cycles hRUN h.rtc_cycles
    exact ⟨hpassed.divides.below h.rtc_cycles,
      hpassed.quarters h.quarters ▸ Nat.mod_lt _ (by decide)⟩
  · rw [RTC.passed, if_neg hRUN]
    exact h

theorem write_counts (r : IoRegister) (value : Byte) (s : H838606) :
    ((r.write value s).rtc.rtc_cycles, (r.write value s).rtc.quarters) =
      (s.rtc.rtc_cycles, s.rtc.quarters) := by
  cases r with
  | IRCR | SSR =>
    simp only [IoRegister.write, IoRegister.onWrite]
    split <;> rfl
  | _ => rfl

theorem Untimed.counts (h : Untimed s t) (hs : s.rtc.Counts) : t.rtc.Counts := by
  obtain ⟨es, hlog, -⟩ := id h
  have hnone : Leaves (fun _ => false) es := fun _ _ _ => rfl
  exact hs.congr <| h.keeps (f := fun x => (x.rtc.rtc_cycles, x.rtc.quarters)) hlog hnone
    fun r value s _ => write_counts r value s

theorem Move.counts (h : Move s t) (hs : s.rtc.Counts) : t.rtc.Counts := by
  cases h with
  | early h => exact h.untimed.counts hs
  | timerB1 cycles _ => exact hs.congr (by rw [(TimerB1_only cycles s).eq])
  | timerW cycles _ => exact hs.congr (by rw [(TimerW_only cycles s).eq])
  | rtc now cycles _ =>
    rw [RTC.Cycle_rtc]
    exact hs.passed now cycles
  | adc _ => exact hs.congr (by rw [(ADC_only s).eq])
  | _ => exact hs

theorem Moves.counts (h : Moves s t) (hs : s.rtc.Counts) : t.rtc.Counts := by
  induction h with
  | refl => exact hs
  | tail _ hmove ih => exact hmove.counts ih

theorem emulates_counts
    (h : Runs (Emulates localtime synthesize)
      (Adapter.created (H838606.reset rom data) sound origin) calls pw) : pw.soc.rtc.Counts := by
  refine h.invariant (I := fun pw => pw.soc.rtc.Counts)
    (fun _ _ _ hstep hs => (Follows.step hstep).moves.counts hs) ⟨?_, ?_⟩
  · exact (by decide : (0 : BitVec 32).toNat < QUARTER)
  · exact (by decide : (0 : Byte).toNat < 4)

/-- In every run: while the clock is on and the firmware leaves it alone, it counts every quarter
of a second of emulated time, and once there was one its registers show the time that `Now`
gave in a pass less than a quarter and an instruction ago. -/
theorem clock_keeps_time
    (hbefore : Runs (Emulates localtime synthesize)
      (Adapter.created (H838606.reset rom data) sound origin) before pw)
    (h : Runs (EmulatesAt localtime synthesize) pw calls pw')
    (horigin : ∀ c ∈ calls, c.1.setsOrigin = false) (hon : pw.soc.ClockOn)
    (hlog : pw'.soc.log = pw.soc.log ++ es) (hes : Leaves IoRegister.ofClock es) :
    let passes := calls.flatMap Prod.snd
    let time := duration passes
    pw'.soc.rtc.rtc_cycles.toNat = (pw.soc.rtc.rtc_cycles.toNat + time) % QUARTER ∧
      pw'.soc.rtc.quarters.toNat = (pw.soc.rtc.quarters.toNat +
        (pw.soc.rtc.rtc_cycles.toNat + time) / QUARTER) % 4 ∧
      (QUARTER ≤ pw.soc.rtc.rtc_cycles.toNat + time →
        ∃ earlier pass later, passes = earlier ++ pass :: later ∧
          duration earlier < time ∧ time < duration earlier + QUARTER + overshoot ∧
          pw'.soc.rtc.Shows (localtime (nowAfter pw pass.wall (duration earlier)))) := by
  intro passes time
  have hcounts := emulates_counts hbefore
  obtain ⟨es', fs, hlog', -, -, hran⟩ := changes_history (K := Ran localtime pw)
    (emulatesAt_changes h fun _ => horigin) (.refl hon hcounts)
    (fun _ _ _ _ _ _ hran hcycle hcycles horigin hlog hes =>
      hran.cycle hcounts hcycle hcycles horigin hlog hes)
    (fun _ _ _ _ hran huntimed hcycles horigin hlog hes => by
      obtain ⟨hrtc, hCKSTPR1⟩ := huntimed.clock hlog hes
      exact hran.between hrtc hCKSTPR1 hcycles (horigin trivial))
  obtain rfl := List.append_cancel_left (hlog.symm.trans hlog')
  obtain ⟨ticks, hdivides, hquarters, hshown⟩ := (hran hes).counted
  obtain ⟨hticks, hleft⟩ := hdivides.quotient hcounts.rtc_cycles
  have hbelow := hdivides.below hcounts.rtc_cycles
  refine ⟨hleft, hticks ▸ hquarters, fun hquarter => ?_⟩
  have hpos : 0 < ticks := hticks ▸ Nat.div_pos hquarter (by decide)
  obtain ⟨earlier, pass, later, hpasses, hafter, hnear, hshows⟩ := hshown hpos
  refine ⟨earlier, pass, later, hpasses, ?_, ?_, hshows⟩
  · change _ < duration (calls.flatMap Prod.snd)
    omega
  · change duration (calls.flatMap Prod.snd) < _
    omega

-- ---------------------------------------------------------------------------
-- A processor at rest
-- ---------------------------------------------------------------------------

theorem CPU.Cycle_asleep (h : s.cpu.sleep = true) : CPU.Cycle s = .ok 1 s := by
  unfold CPU.Cycle
  rw [bind_ok (get_apply s), Exec.ite_pos h]
  rfl

/-- The processor sleeps without interrupts, and only the clock is supplied. -/
structure Resting (s : H838606) : Prop where
  sleep : s.cpu.sleep = true
  CKSTPR1 : s.CKSTPR1 = 0x01
  CKSTPR2 : s.CKSTPR2 = 0
  IENR1 : s.interrupts.IENR1 = 0
  IENR2 : s.interrupts.IENR2 = 0
  TIERW : s.interrupts.TIERW = 0

theorem Resting.cycle (h : Resting s) (now : Tm) :
    ∃ t, H838606.Cycle now s = .ok (1, []) t ∧ Resting t ∧ t.log = s.log := by
  have hpending : s.interrupts.pending = none := by
    simp [Interrupts.pending, Interrupts.branches, Interrupts.rtc, h.IENR1, h.IENR2, h.TIERW]
  have hinterrupts : Interrupts.Cycle s = .ok ⟨⟩ s := by
    unfold Interrupts.Cycle
    rw [bind_ok (get_apply s)]
    split
    · rfl
    · rw [hpending]
      rfl
  have hssu : H838606.ssuCycle 1 s = .ok ⟨⟩ s := by
    unfold H838606.ssuCycle
    rw [bind_ok (get_apply s), Exec.ite_neg (by rw [h.CKSTPR2]; decide)]
    rfl
  have hsci3 : H838606.sci3Cycle 1 s = .ok [] s := by
    unfold H838606.sci3Cycle
    rw [bind_ok (get_apply s), Exec.ite_neg (by rw [h.CKSTPR1]; decide)]
    rfl
  have hkept : (RTC.Cycle now 1 s).CKSTPR1 = 0x01 := by
    rw [(RTC_only now 1 s).eq]
    exact h.CKSTPR1
  have hlate : s.lateDevices now 1 = RTC.Cycle now 1 s := by
    unfold H838606.lateDevices
    extract_lets s₁ s₂ s₃
    have h₁ : s₁ = s := if_neg (by rw [h.CKSTPR1]; decide)
    have h₂ : s₂ = s := (if_neg (by rw [h₁, h.CKSTPR2]; decide)).trans h₁
    have h₃ : s₃ = RTC.Cycle now 1 s := by
      rw [← h₂]
      exact if_pos (by rw [h₂, h.CKSTPR1]; decide)
    rw [h₃, if_neg (by rw [hkept]; decide)]
  refine ⟨s.lateDevices now 1, ?_, ?_, lateDevices_log now 1 s⟩
  · unfold H838606.Cycle
    rw [bind_ok (CPU.Cycle_asleep h.sleep), bind_ok hinterrupts, bind_ok hssu, bind_ok hsci3]
    rfl
  · rw [hlate, (RTC_only now 1 s).eq]
    exact ⟨h.sleep, h.CKSTPR1, h.CKSTPR2, h.IENR1, h.IENR2, h.TIERW⟩

theorem runLoop_resting {walls : List (BitVec 64)}
    (hrun : pw.runLoop (core localtime synthesize) walls = some (pw', ok)) (h : Resting pw.soc) :
    ok = true ∧ pw'.soc.log = pw.soc.log := by
  induction walls generalizing pw with
  | nil =>
    unfold Adapter.runLoop at hrun
    split at hrun
    · cases hrun
    · cases hrun
      exact ⟨rfl, rfl⟩
  | cons wall walls ih =>
    obtain ⟨t, hcycle, hrest, hlog⟩ := h.cycle (localtime (pw.Now wall))
    have hcore : (core localtime synthesize).Cycle (pw.Now wall) pw.soc = ([], .ok 1, t) := by
      simp only [core, hcycle]
    obtain ⟨buzzer_cycles, sound, audio, heq⟩ := Adapter.buzzerCycle_eq
      (core localtime synthesize) 1
      { pw with soc := t, cycles := pw.cycles + (1 : Byte).setWidth 64
                log := pw.log ++ [.elapsed 1] }
    unfold Adapter.runLoop Adapter.Cycle at hrun
    rw [hcore] at hrun
    dsimp only [Adapter.transmitIR] at hrun
    rw [heq] at hrun
    split at hrun
    · obtain ⟨hok, hkept⟩ := ih hrun hrest
      exact ⟨hok, hkept.trans hlog⟩
    · cases hrun
      exact ⟨rfl, rfl⟩

/-- A firmware that sets `CKSTPR1` to 1 and `RTCCR1` to 0x80 and sleeps. -/
def clockFirmware : List Byte :=
  [0x00, 0x02, 0xF8, 0x01, 0x6A, 0x88, 0xFF, 0xFA, 0xF8, 0x80, 0x6A, 0x88, 0xF0, 0x6C, 0x01, 0x80]

/-- Only the seconds of a host's time. -/
def seconds (time : BitVec 64) : Tm := { tm_sec := time.toNat % 60 }

def clockStarted : Adapter H838606 Unit :=
  sliced seconds 17 (.created (H838606.reset (fun i => clockFirmware.getD i 0) fun _ => 0xFF) () (-1))

theorem clockStarted_resting : Resting clockStarted.soc :=
  ⟨by decide +kernel, by decide +kernel, by decide +kernel, by decide +kernel, by decide +kernel,
    by decide +kernel⟩

/-- In a quarter of a second of sleep the clock takes over the 59 seconds of the host. -/
theorem clock_keeps_time_asleep : ∃ (pw : Adapter H838606 Unit) (passes : List Pass),
    Runs (EmulatesAt seconds fun _ _ => ((), 0)) clockStarted [(.host (.run 921600), passes)] pw ∧
      (∀ pass ∈ passes, pass.wall = 59) ∧ pw.soc.rtc.RSECDR = 0x59 := by
  have hfirst : Runs (Emulates seconds fun _ _ => ((), 0)) (.created
      (H838606.reset (fun i => clockFirmware.getD i 0) fun _ => 0xFF) () (-1)) [.host (.run 17)]
      clockStarted := .single (sliced_emulates (by decide +kernel))
  have herror : clockStarted.error = "" := by decide +kernel
  have htarget : clockStarted.target = 17 := by decide +kernel
  have hcycles : clockStarted.cycles = 17 := by decide +kernel
  have horigin : clockStarted.clock_origin = -1 := by decide +kernel
  have hfar : clockStarted.target.toNat + (921600 : BitVec 32).toNat + 255 < UInt64.size := by
    rw [htarget]
    decide
  obtain ⟨n, hreturns⟩ :=
    Adapter.pw_run_returns (@core_advances Unit seconds fun _ _ => ((), 0)) 921600 hfar
  obtain ⟨⟨pw, ok⟩, hrun⟩ := hreturns (List.replicate n 59) (by simp)
  obtain ⟨fs, hlog, hchanges⟩ := pw_run_changes True hrun
  have hwalls : ∀ pass ∈ passesOf (List.replicate n 59) fs, pass.wall = 59 :=
    fun pass hpass => List.eq_of_mem_replicate (passesOf_wall hpass)
  have hcall : Runs (EmulatesAt seconds fun _ _ => ((), 0)) clockStarted
      [(.host (.run 921600), passesOf (List.replicate n 59) fs)] pw := .single (.run hrun hlog)
  unfold Adapter.pw_run at hrun
  rw [if_neg (by rw [herror]; decide)] at hrun
  obtain ⟨rfl, hkept⟩ := runLoop_resting hrun clockStarted_resting
  have hreached := (runLoop_sliced hrun).reached rfl
  rw [hchanges.cycles, hcycles] at hreached
  dsimp only at hreached
  rw [htarget] at hreached
  have hlong : 921600 ≤ duration (passesOf (List.replicate n 59) fs) := by
    bv_omega
  obtain ⟨-, -, hshown⟩ := clock_keeps_time hfirst hcall (by simp [Call.setsOrigin])
    ⟨by decide +kernel, by decide +kernel⟩ (hkept.trans (List.append_nil _).symm)
    (fun _ _ he => absurd he List.not_mem_nil)
  rw [List.flatMap_singleton] at hshown
  dsimp only at hshown
  have hquarter : QUARTER ≤ clockStarted.soc.rtc.rtc_cycles.toNat +
      duration (passesOf (List.replicate n 59) fs) := by
    unfold QUARTER PHI_CLK
    omega
  obtain ⟨earlier, pass, later, hpasses, -, -, hshows⟩ := hshown hquarter
  have hnow : nowAfter clockStarted pass.wall (duration earlier) = 59 := by
    unfold nowAfter Adapter.Now
    rw [horigin, hwalls pass (hpasses ▸ List.mem_append_right _ (.head _))]
    rfl
  refine ⟨pw, _, hcall, hwalls, ?_⟩
  rw [hshows.RSECDR, hnow]
  rfl

end PokeStroller.Soc
