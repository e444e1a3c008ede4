import PokeStroller.Soc.Clocks
import PokeStroller.Soc.Safety

/-!
# Waking up

A processor that sleeps with the interrupts on is woken by the first one that is
requested, and the clock requests one every quarter of a second.
-/

namespace PokeStroller.Soc

open Exec

variable {s t : H838606}

-- ---------------------------------------------------------------------------
-- What the devices keep
-- ---------------------------------------------------------------------------

/-- What the serial bus and the infrared interface do not touch. -/
structure Apart where
  rom : Bytes ROM_SIZE
  cpu : CPU
  rtc : RTC
  CKSTPR1 : Byte
  IENR1 : Byte
  RTCCR2 : Byte
  RTCFLG : Byte

def H838606.apart (s : H838606) : Apart :=
  ⟨s.rom, s.cpu, s.rtc, s.CKSTPR1, s.interrupts.IENR1, s.interrupts.RTCCR2, s.interrupts.RTCFLG⟩

def Beside (s t : H838606) : Prop := t.apart = s.apart

instance : IsPreorder H838606 Beside where
  refl _ := rfl
  trans _ _ _ h h' := h'.trans h

theorem read_beside (r : IoRegister) (s : H838606) : Beside s (r.read s) := by
  cases r <;> rfl

theorem checked_beside {array : HostArray} (x : Option α) : Along Beside (checked array x) := by
  cases x with
  | some a => exact .pure a
  | none => exact .throw _

theorem Read8_beside (address : BitVec 16) : Along Beside (Read8 address) := by
  refine .bind .get fun s => ?_
  refine .ite (checked_beside _) (.ite (checked_beside _) (.ite ?_ (.pure _)))
  refine .bind .get fun s => ?_
  split
  · exact .bind (.modify (read_beside _)) fun _ => .pure _
  · exact .ite (checked_beside _) (.ite (checked_beside _) (.pure _))

theorem onOutputPin_beside (value : Bool) : Along Beside (SSU.onOutputPin value) :=
  .bind (Read8_beside _) fun _ _ => rfl

theorem cyclePeripherals_beside (cycles : Byte) : Along Beside (SSU.cyclePeripherals cycles) := by
  have htime : Along Beside (SSU.cycleAccelerometer cycles) := fun s => rfl
  exact .bind htime fun _ =>
    .ite (.bind (onOutputPin_beside _) fun _ => onOutputPin_beside _) (.pure _)

theorem selectAmong_beside (ps : List Peripheral) : Along Beside (SSU.selectAmong ps) := by
  induction ps with
  | nil => exact .pure _
  | cons p ps ih =>
    have hreset : Along Beside (modify fun s => record (.reset p) (p.Reset s) : Exec PUnit) :=
      .modify fun s => by cases p <;> rfl
    refine .bind (Read8_beside _) fun _ => .ite (.bind hreset fun _ => ih) ?_
    refine .bind ?_ fun _ => .pure _
    exact .ite (.bind (Read8_beside _) fun _ => .modify fun _ => rfl) (.pure _)

theorem Receive_beside {p : Peripheral} (h : p.Receive data s = some t) : Beside s t := by
  rw [Peripheral.Receive_frame h]
  rfl

theorem reply_beside {p : Peripheral} (h : p.reply s = some (data, t)) : Beside s t := by
  rw [Peripheral.reply_frame h]
  rfl

theorem transmitByte_beside (p : Peripheral) : Along Beside (SSU.transmitByte p) := by
  intro s
  unfold SSU.transmitByte
  rw [bind_ok (get_apply s)]
  by_cases hTE : s.ssu.SSER.getLsbD SSER_t.TE = true
  · rw [Exec.ite_pos hTE]
    by_cases hTDRE : s.ssu.SSSR.getLsbD SSSR_t.TDRE = true
    · rw [Exec.ite_pos hTDRE]
      rfl
    · rw [Exec.ite_neg hTDRE]
      cases hreceive : p.Receive s.ssu.SSTDR s with
      | none => rfl
      | some t =>
        have hkept := Receive_beside hreceive
        exact hkept
  · rw [Exec.ite_neg hTE]
    rfl

theorem answer_beside (p : Peripheral) : Along Beside (SSU.answer p) := by
  intro s
  unfold SSU.answer
  rw [bind_ok (get_apply s)]
  cases hreply : p.reply s with
  | none => rfl
  | some reply =>
    have hkept := reply_beside hreply
    exact hkept

theorem sample_beside (p : Peripheral) : Along Beside p.sample := by
  have hwrite : Along Beside (Write8 Peripheral.PW_ADDR_IS_NOT_WALKING 0) := fun s => by
    rw [Write8_ram (by decide)]
    rfl
  have hsample : Along Beside Peripheral.GetSample :=
    .bind (Read8_beside _) fun _ => .ite (.bind hwrite fun _ => .pure _) (.pure _)
  have hstore (x y z : Byte) : Along Beside (Peripheral.storeSample x y z) := fun s => by
    unfold Peripheral.storeSample
    rw [bind_ok (get_apply s)]
    cases s.accelerometer.setSample x y z <;> rfl
  cases p with
  | accelerometer =>
    exact .bind .get fun _ => .ite (.bind hsample fun _ => hstore _ _ _) (.pure _)
  | eeprom => exact .pure _
  | lcd => exact .pure _

theorem receiveByte_beside (p : Peripheral) : Along Beside (SSU.receiveByte p) :=
  .bind .get fun _ => .ite (.bind (sample_beside p) fun _ => answer_beside p) (.pure _)

theorem SSU_Cycle_beside (cycles : Byte) : Along Beside (SSU.Cycle cycles) := by
  have htick : Along Beside SSU.tick := by
    refine .bind (selectAmong_beside _) fun p => ?_
    split
    · exact .pure _
    · exact .bind (transmitByte_beside _) fun _ => receiveByte_beside _
  refine .bind (cyclePeripherals_beside cycles) fun _ s => ?_
  rw [bind_ok (get_apply s)]
  dsimp only
  split
  · rfl
  · rw [bind_ok (set_apply _ _)]
    exact trans_of Beside rfl (htick _)

theorem SCI3_Cycle_beside (cycles : Byte) : Along Beside (SCI3.Cycle cycles) := by
  have htransmit : Along Beside SCI3.transmitByte := fun s => by
    unfold SCI3.transmitByte
    rw [bind_ok (get_apply s)]
    split
    · split
      · rfl
      · split <;> rfl
    · rfl
  have hreceive : Along Beside SCI3.receiveByte := fun s => by
    unfold SCI3.receiveByte
    rw [bind_ok (get_apply s)]
    split
    · cases s.sci3.receive_queue with
      | nil => rfl
      | cons data rest =>
        dsimp only
        split <;> rfl
    · rfl
  intro s
  unfold SCI3.Cycle
  rw [bind_ok (get_apply s)]
  dsimp only
  split
  · rw [bind_ok (set_apply _ _)]
    refine trans_of Beside rfl ?_
    exact (Along.bind htransmit fun _ => .bind hreceive fun _ => .pure _) _
  · rfl

-- ---------------------------------------------------------------------------
-- Interrupts
-- ---------------------------------------------------------------------------

def place (address : BitVec 16) : Fin ROM_SIZE :=
  ⟨address.toNat % ROM_SIZE, Nat.mod_lt _ (by decide)⟩

def H838606.vector (s : H838606) (address : BitVec 16) : BitVec 16 :=
  ioWord s.rom (place address) (place (address + 1))

theorem Read8_place {address : BitVec 16} (h : address.toNat ≤ ROM_END) (s : H838606) :
    Read8 address s = .ok (s.rom (place address)) s := by
  have hplace : place address = ⟨address.toNat, lt_rom h⟩ := Fin.ext (Nat.mod_eq_of_lt (lt_rom h))
  rw [Read8_rom h, hplace]

theorem Read16_vector {address : BitVec 16} (h : address.toNat + 1 ≤ ROM_END) (s : H838606) :
    Read16 address s = .ok (s.vector address) s := by
  have hnext : (address + 1).toNat ≤ ROM_END := by
    simp only [ROM_END] at *
    bv_omega
  unfold Read16
  rw [bind_ok (Read8_place (Nat.le_of_succ_le h) s), bind_ok (Read8_place hnext s)]
  rfl

/-- The processor has been interrupted: it is awake, masked, and where one of the vectors of
the interrupts points. -/
structure Woken (s : H838606) : Prop where
  sleep : s.cpu.sleep = false
  I : s.cpu.flags.I = true
  PC : ∃ b ∈ s.interrupts.branches, s.cpu.PC = s.vector b.2

/-- The vectors do not depend on what is enabled or requested. -/
theorem branches_vectors (i j : Interrupts) (hb : b ∈ i.branches) :
    ∃ b' ∈ j.branches, b'.2 = b.2 := by
  have hmem : b.2 ∈ i.branches.map (·.2) := List.mem_map_of_mem hb
  exact List.mem_map.mp hmem

theorem Woken.beside (h : Woken s) (hst : Beside s t) : Woken t := by
  have hcpu : t.cpu = s.cpu := congrArg Apart.cpu hst
  have hrom : t.rom = s.rom := congrArg Apart.rom hst
  obtain ⟨b, hb, hPC⟩ := h.PC
  obtain ⟨b', hb', hvector⟩ := branches_vectors _ t.interrupts hb
  refine ⟨hcpu ▸ h.sleep, hcpu ▸ h.I, b', hb', ?_⟩
  rw [hcpu, hPC, hvector, H838606.vector, H838606.vector, hrom]

theorem BusMoves.rom (h : BusMoves s t) : t.rom = s.rom := by
  induction h with
  | refl => rfl
  | tail _ hmove ih => exact hmove.board.rom.trans ih

theorem branches_vector (i : Interrupts) : ∀ b ∈ i.branches, b.2.toNat + 1 ≤ ROM_END := by
  simp only [Interrupts.branches, List.forall_mem_cons, List.not_mem_nil, false_imp_iff,
    implies_true, and_true]
  decide

theorem pending_branch {i : Interrupts} (h : i.pending = some vector) :
    ∃ b ∈ i.branches, b.2 = vector := by
  obtain ⟨b, hb, hvector⟩ := Option.map_eq_some_iff.mp h
  exact ⟨b, List.mem_of_find?_eq_some hb, hvector⟩

theorem pending_vector {i : Interrupts} (h : i.pending = some vector) :
    vector.toNat + 1 ≤ ROM_END := by
  obtain ⟨b, hb, rfl⟩ := pending_branch h
  exact branches_vector _ b hb

theorem Interrupt_wakes {vector : BitVec 16} (hpending : s.interrupts.pending = some vector)
    (h : CPU.Interrupt vector s = .ok ⟨⟩ t) :
    s.vector vector = 0xFFFF ∧ t = s ∨ s.vector vector ≠ 0xFFFF ∧ Woken t := by
  unfold CPU.Interrupt at h
  rw [bind_ok (Read16_vector (pending_vector hpending) s)] at h
  split at h
  · rename_i hempty
    cases h
    exact .inl ⟨hempty, rfl⟩
  · rename_i hfull
    refine .inr ⟨hfull, ?_⟩
    rw [bind_ok (get_apply s)] at h
    obtain ⟨_, u, hCCR, h⟩ := bind_eq_ok.mp h
    rw [bind_ok (get_apply u)] at h
    obtain ⟨_, v, hPC, h⟩ := bind_eq_ok.mp h
    cases h
    have hpushes : BusMoves s v :=
      ((Push16_onBus _).along.of_ok hCCR).trans ((Push16_onBus _).along.of_ok hPC)
    have hrom := hpushes.rom
    obtain ⟨b, hb, rfl⟩ := pending_branch hpending
    obtain ⟨b', hb', hvector⟩ := branches_vectors _ v.interrupts hb
    refine ⟨rfl, rfl, b', hb', ?_⟩
    simp only [H838606.vector, hrom, hvector]

/-- The processor sleeps and waits for the clock, whose interrupt has a handler, as have
those before it. -/
structure Sleeping (s : H838606) : Prop where
  sleep : s.cpu.sleep = true
  I : s.cpu.flags.I = false
  clock : s.ClockOn
  rtc_cycles : s.rtc.rtc_cycles.toNat < QUARTER
  IENRTC : s.interrupts.IENR1.getLsbD IENR1_t.IENRTC = true
  SEIE025 : s.interrupts.RTCCR2.getLsbD RTCCR2_t.SEIE025 = true
  vectors : ∀ vector ∈ [INTERRUPT_VECTOR_ADDR_IRQ0, INTERRUPT_VECTOR_ADDR_IRQ1,
    INTERRUPT_VECTOR_ADDR_RTC_QUARTER_SEC], s.vector vector ≠ 0xFFFF

/-- The longest time to the next request of the clock. -/
def untilQuarter (s : H838606) : Nat :=
  if s.interrupts.RTCFLG.getLsbD RTCFLG_t.SEIFG025 then 0
  else QUARTER - s.rtc.rtc_cycles.toNat

/-- Only two interrupts come before the one of the clock. -/
theorem Sleeping.pending (h : Sleeping s)
    (hflag : s.interrupts.RTCFLG.getLsbD RTCFLG_t.SEIFG025 = true) :
    ∃ vector, s.interrupts.pending = some vector ∧ s.vector vector ≠ 0xFFFF := by
  have hquarter : s.interrupts.rtc RTCCR2_t.SEIE025 RTCFLG_t.SEIFG025 = true := by
    rw [Interrupts.rtc, h.IENRTC, h.SEIE025, hflag]
    rfl
  unfold Interrupts.pending Interrupts.branches
  rw [hquarter]
  simp only [List.find?_cons]
  split
  · exact ⟨_, rfl, h.vectors _ (by simp)⟩
  split
  · exact ⟨_, rfl, h.vectors _ (by simp)⟩
  · exact ⟨_, rfl, h.vectors _ (by simp)⟩

/-- The interrupts wake a sleeping processor, or the clock has not requested one. -/
theorem Sleeping.interrupts (h : Sleeping s) (hcycle : Interrupts.Cycle s = .ok ⟨⟩ t) :
    Woken t ∨ t = s ∧
      s.interrupts.RTCFLG.getLsbD RTCFLG_t.SEIFG025 = false := by
  unfold Interrupts.Cycle at hcycle
  rw [bind_ok (get_apply s), Exec.ite_neg (by rw [h.I]; decide)] at hcycle
  cases hflag : s.interrupts.RTCFLG.getLsbD RTCFLG_t.SEIFG025 with
  | true =>
    obtain ⟨vector, hpending, hfull⟩ := h.pending hflag
    rw [hpending] at hcycle
    rcases Interrupt_wakes hpending hcycle with ⟨hempty, -⟩ | ⟨-, hwoken⟩
    · exact absurd hempty hfull
    · exact .inl hwoken
  | false =>
    cases hpending : s.interrupts.pending with
    | some vector =>
      rw [hpending] at hcycle
      rcases Interrupt_wakes hpending hcycle with ⟨-, rfl⟩ | ⟨-, hwoken⟩
      · exact .inr ⟨rfl, rfl⟩
      · exact .inl hwoken
    | none =>
      rw [hpending] at hcycle
      cases hcycle
      exact .inr ⟨rfl, rfl⟩

-- ---------------------------------------------------------------------------
-- A cycle of a sleeper
-- ---------------------------------------------------------------------------

theorem setFlags_keeps (flags : List (Bool × Nat)) {RTCFLG : Byte}
    (h : RTCFLG.getLsbD i = true) : (RTC.setFlags flags RTCFLG).getLsbD i = true := by
  induction flags generalizing RTCFLG with
  | nil => exact h
  | cons flag flags ih =>
    refine ih ?_
    dsimp only
    split
    · exact getLsbD_withBit_true _ _ h
    · exact h

theorem quarter_requests (now : Tm) (s : H838606) :
    (RTC.quarter now s).interrupts.RTCFLG.getLsbD RTCFLG_t.SEIFG025 = true := by
  have hquarter : (withBit s.interrupts.RTCFLG RTCFLG_t.SEIFG025 true).getLsbD
      RTCFLG_t.SEIFG025 = true := getLsbD_withBit_self _ (by decide) _
  have hhalf (p : Prop) [Decidable p] : (if p then
      withBit (withBit s.interrupts.RTCFLG RTCFLG_t.SEIFG025 true) RTCFLG_t.SEIFG05 true
      else withBit s.interrupts.RTCFLG RTCFLG_t.SEIFG025 true).getLsbD RTCFLG_t.SEIFG025 =
        true := by
    split
    · exact getLsbD_withBit_true _ _ hquarter
    · exact hquarter
  unfold RTC.quarter
  dsimp only
  split
  · exact setFlags_keeps _ (hhalf _)
  · exact hhalf _

/-- What the late devices do to what decides about the interrupts of the clock. -/
structure Requested (cycles : Byte) (s t : H838606) : Prop where
  IENR1 : t.interrupts.IENR1 = s.interrupts.IENR1
  RTCCR2 : t.interrupts.RTCCR2 = s.interrupts.RTCCR2
  waits : (s.rtc.rtc_cycles + cycles.setWidth 32).toNat < QUARTER →
    t.interrupts.RTCFLG = s.interrupts.RTCFLG
  ticks : QUARTER ≤ (s.rtc.rtc_cycles + cycles.setWidth 32).toNat →
    t.interrupts.RTCFLG.getLsbD RTCFLG_t.SEIFG025 = true

theorem RTC.Cycle_requested (now : Tm) (cycles : Byte)
    (hRUN : s.rtc.RTCCR1.getLsbD RTCCR1_t.RUN = true) :
    Requested cycles s (RTC.Cycle now cycles s) := by
  refine ⟨by rw [(RTC_only now cycles s).eq], by rw [(RTC_only now cycles s).eq], fun hwait => ?_,
    fun htick => ?_⟩
  · unfold QUARTER at hwait
    unfold RTC.Cycle
    rw [if_pos hRUN]
    dsimp only
    rw [if_neg (Nat.not_le.mpr hwait)]
  · unfold QUARTER at htick
    unfold RTC.Cycle
    rw [if_pos hRUN]
    dsimp only
    rw [if_pos htick]
    exact quarter_requests _ _

theorem lateDevices_requested (now : Tm) (cycles : Byte) (hon : s.ClockOn) :
    Requested cycles s (s.lateDevices now cycles) := by
  obtain ⟨u, htimers, hconverter⟩ := lateDevices_clock now cycles s
  have hrtc : u.rtc = s.rtc := by rw [htimers.eq]
  rw [if_pos hon.RTCCKSTP] at hconverter
  have hrequested := @RTC.Cycle_requested u now cycles (hrtc ▸ hon.RUN)
  rw [hconverter.eq]
  refine ⟨?_, ?_, fun hwait => ?_, fun htick => hrequested.ticks (hrtc ▸ htick)⟩
  · rw [hrequested.IENR1, htimers.eq]
  · rw [hrequested.RTCCR2, htimers.eq]
  · dsimp only
    rw [hrequested.waits (hrtc ▸ hwait), htimers.eq]

/-- The clock counts while the processor sleeps, and requests its interrupt in the end. -/
theorem Sleeping.late {u : H838606} (h : Sleeping s) (hu : Beside s u)
    (hflag : s.interrupts.RTCFLG.getLsbD RTCFLG_t.SEIFG025 = false) (now : Tm) :
    Sleeping (u.lateDevices now 1) ∧ untilQuarter (u.lateDevices now 1) < untilQuarter s := by
  have hrtc : u.rtc = s.rtc := congrArg Apart.rtc hu
  have hCKSTPR1 : u.CKSTPR1 = s.CKSTPR1 := congrArg Apart.CKSTPR1 hu
  have hIENR1 : u.interrupts.IENR1 = s.interrupts.IENR1 := congrArg Apart.IENR1 hu
  have hRTCCR2 : u.interrupts.RTCCR2 = s.interrupts.RTCCR2 := congrArg Apart.RTCCR2 hu
  have hRTCFLG : u.interrupts.RTCFLG = s.interrupts.RTCFLG := congrArg Apart.RTCFLG hu
  have hon : u.ClockOn := ⟨hCKSTPR1 ▸ h.clock.RTCCKSTP, hrtc ▸ h.clock.RUN⟩
  have hcpu : (u.lateDevices now 1).cpu = s.cpu := by
    rw [(lateDevices_frame now 1 u).eq]
    exact congrArg Apart.cpu hu
  have hrom : (u.lateDevices now 1).rom = s.rom := by
    rw [(lateDevices_frame now 1 u).eq]
    exact congrArg Apart.rom hu
  obtain ⟨hlateCKSTPR1, hlate⟩ := lateDevices_rtc now 1 u
  rw [if_pos hon.RTCCKSTP, hrtc] at hlate
  obtain ⟨ticks, hpassed⟩ := RTC.passed_spec now 1 h.clock.RUN h.rtc_cycles
  rw [← hlate] at hpassed
  have hrequested := lateDevices_requested now 1 hon
  refine ⟨⟨hcpu ▸ h.sleep, hcpu ▸ h.I, ⟨?_, hpassed.RUN⟩, hpassed.divides.below h.rtc_cycles, ?_,
    ?_, fun vector hvector => ?_⟩, ?_⟩
  · rw [hlateCKSTPR1]
    exact hon.RTCCKSTP
  · rw [hrequested.IENR1, hIENR1]
    exact h.IENRTC
  · rw [hrequested.RTCCR2, hRTCCR2]
    exact h.SEIE025
  · rw [H838606.vector, hrom]
    exact h.vectors vector hvector
  · have hbelow := h.rtc_cycles
    have hstart : untilQuarter s = QUARTER - s.rtc.rtc_cycles.toNat :=
      if_neg (by rw [hflag]; decide)
    have hsum : (u.rtc.rtc_cycles + (1 : Byte).setWidth 32).toNat =
        s.rtc.rtc_cycles.toNat + 1 := by
      rw [hrtc]
      unfold QUARTER PHI_CLK at hbelow
      bv_omega
    obtain ⟨-, hleft⟩ := hpassed.divides.quotient h.rtc_cycles
    rw [hstart]
    unfold untilQuarter
    rcases Nat.lt_or_ge (u.rtc.rtc_cycles + (1 : Byte).setWidth 32).toNat QUARTER with hwait | htick
    · rw [hrequested.waits hwait, hRTCFLG, if_neg (by rw [hflag]; decide), hleft]
      rw [hsum] at hwait
      rw [show (1 : Byte).toNat = 1 from rfl, Nat.mod_eq_of_lt hwait]
      omega
    · rw [if_pos (hrequested.ticks htick)]
      omega

-- ---------------------------------------------------------------------------
-- Runs of cycles
-- ---------------------------------------------------------------------------

/-- A cycle of the SoC that returns, with the time it is given. -/
def Cycles (s : H838606) (now : Tm) (t : H838606) : Prop := ∃ r, H838606.Cycle now s = .ok r t

theorem ssuCycle_beside (cycles : Byte) : Along Beside (H838606.ssuCycle cycles) :=
  .bind .get fun _ => .ite (SSU_Cycle_beside cycles) (.pure _)

theorem sci3Cycle_beside (cycles : Byte) : Along Beside (H838606.sci3Cycle cycles) :=
  .bind .get fun _ => .ite (SCI3_Cycle_beside cycles) (.pure _)

theorem Sleeping.cycle (h : Sleeping s) (hcycle : Cycles s now t) :
    Woken t ∨ Sleeping t ∧ untilQuarter t < untilQuarter s := by
  obtain ⟨r, hcycle⟩ := hcycle
  unfold H838606.Cycle at hcycle
  rw [bind_ok (CPU.Cycle_asleep h.sleep)] at hcycle
  obtain ⟨_, u, hinterrupts, hcycle⟩ := bind_eq_ok.mp hcycle
  obtain ⟨_, v, hssu, hcycle⟩ := bind_eq_ok.mp hcycle
  obtain ⟨_, w, hsci3, hcycle⟩ := bind_eq_ok.mp hcycle
  cases hcycle
  have hbeside : Beside u w :=
    trans_of Beside ((ssuCycle_beside 1).of_ok hssu) ((sci3Cycle_beside 1).of_ok hsci3)
  rcases h.interrupts hinterrupts with hwoken | ⟨rfl, hflag⟩
  · have hw := hwoken.beside hbeside
    have hframe := (lateDevices_frame now 1 w).eq
    obtain ⟨b, hb, hPC⟩ := hw.PC
    obtain ⟨b', hb', hvector⟩ := branches_vectors _ (w.lateDevices now 1).interrupts hb
    refine .inl ⟨?_, ?_, b', hb', ?_⟩
    · rw [hframe]
      exact hw.sleep
    · rw [hframe]
      exact hw.I
    · rw [hvector, hframe]
      exact hPC
  · exact .inr (h.late hbeside hflag now)

/-- A processor that sleeps with the clock's interrupt enabled is interrupted within a quarter
of a second, whatever the devices do, and then is at the handler of one of the interrupts. -/
theorem sleeper_wakes (h : Sleeping s) : untilQuarter s ≤ QUARTER ∧
    ∀ nows t, Runs Cycles s nows t → untilQuarter s < nows.length →
      ∃ u before after, nows = before ++ after ∧ Runs Cycles s before u ∧
        Runs Cycles u after t ∧ Woken u := by
  refine ⟨?_, fun nows t hruns hlong => ?_⟩
  · unfold untilQuarter
    split
    · exact Nat.zero_le _
    · exact Nat.sub_le _ _
  · exact hruns.reaches (m := untilQuarter) h
      (fun _ _ _ hcycle hsleeping => hsleeping.cycle hcycle) hlong

/-- A processor that sleeps, a cycle before the clock ticks. -/
def dozing : H838606 :=
  { H838606.reset (fun _ => 0) (fun _ => 0xFF) with
    cpu := { sleep := true }, CKSTPR1 := 0x01
    interrupts := { IENR1 := 0x80, RTCCR2 := 0x01 }
    rtc := { RTCCR1 := 0x80, rtc_cycles := 921599 } }

theorem cycles_left (h : (H838606.Cycle now s matches .ok _ _) = true) :
    Cycles s now (left (H838606.Cycle now s)) := by
  cases hcycle : H838606.Cycle now s with
  | ok r t => exact ⟨r, hcycle⟩
  | error fault t =>
    rw [hcycle] at h
    cases h

theorem dozing_vector (vector : BitVec 16) : dozing.vector vector = (0 : Byte) ++ (0 : Byte) := rfl

theorem dozing_sleeping : Sleeping dozing where
  sleep := rfl
  I := rfl
  clock := ⟨by decide, by decide⟩
  rtc_cycles := by decide +kernel
  IENRTC := by decide
  SEIE025 := by decide
  vectors vector _ := by
    rw [dozing_vector]
    decide

theorem sleeper_wakes_dozing : ∃ t, Runs Cycles dozing [{}, {}] t ∧
    ∃ u before after, [{}, {}] = before ++ after ∧ Runs Cycles dozing before u ∧
      Runs Cycles u after t ∧ Woken u := by
  obtain ⟨s, hfirst, hreturns⟩ : ∃ s, Cycles dozing {} s ∧
      (H838606.Cycle {} s matches .ok _ _) = true :=
    ⟨_, cycles_left (by decide +kernel), by decide +kernel⟩
  have hruns := Runs.cons hfirst (.single (cycles_left hreturns))
  have hlong : untilQuarter dozing < [({} : Tm), {}].length := by decide +kernel
  exact ⟨_, hruns, (sleeper_wakes dozing_sleeping).2 _ _ hruns hlong⟩

end PokeStroller.Soc
