import PokeStroller.Walker.Bus
import PokeStroller.Walker.Mmio

/-!
# Sending a byte

A program stores a byte to SSTDR and waits until TDRE is set again. With one
device selected, that is one step of the device's protocol, or the fault the
step ends in.
-/

namespace PokeStroller

namespace Walker

def fill (s : Walker) (byte : Byte) : Walker := { s with memory := s.transferring SSTDR byte }

def awaitTDRE : Nat → Walker → Outcome Fault Walker
  | 0, s => .ok s
  | n + 1, s => if s.tdre then .ok s else s.ssuTick.andThen (awaitTDRE n)

/-- The progress counter is a byte, so 256 ticks are enough from any state. -/
def send (byte : Byte) (s : Walker) : Outcome Fault Walker := (s.fill byte).awaitTDRE 256

theorem opcodeSwitch_fill (s : Walker) (rs : BitVec 4) :
    s.opcodeSwitch (.movAbs16Store .b rs SSTDR) =
      .ok { s.fill (getReg8 s.registers rs) with
        flags := setFlagsMOV s.flags (getReg s.registers .b rs) .b
        pc := s.pc + 2 } := by
  have hmemory : (s.movAbs16Store .b rs SSTDR).memory =
      s.transferring SSTDR (getReg8 s.registers rs) := (movAbs16Store_effects rfl).1
  unfold opcodeSwitch execute fill
  rw [← hmemory]
  rfl

theorem fill_sstdr (s : Walker) (byte : Byte) : (s.fill byte).memory SSTDR = byte := by
  simp [fill, Cpu.transferring, SSTDR, SSSR]

theorem fill_tdre (s : Walker) (byte : Byte) : (s.fill byte).tdre = false := by
  have hcleared : ∀ x : Byte, (clearBit8 (clearBit8 x 2) 3).has TDRE = false := by decide
  simp [fill, Cpu.transferring, tdre, hcleared]

theorem fill_ne (s : Walker) (byte : Byte) (hsstdr : a ≠ SSTDR) (hsssr : a ≠ SSSR) :
    (s.fill byte).memory a = s.memory a := by
  simp [fill, Cpu.transferring, hsstdr, hsssr]

theorem awaitTDRE_ready {s : Walker} (h : s.tdre = true) : s.awaitTDRE n = .ok s := by
  cases n <;> simp [awaitTDRE, h]

-- ---------------------------------------------------------------------------
-- The wait for one device
-- ---------------------------------------------------------------------------

def count (s : Walker) (progress : Byte) : Walker :=
  { s with SSU := { s.SSU with progress := progress } }

theorem Configured.count {s : Walker} (h : s.Configured d) : (s.count p).Configured d :=
  ⟨h.selected, h.others, h.transmit, h.receive⟩

theorem MarksTaken.count {s : Walker} (h : s.MarksTaken d) : (s.count p).MarksTaken d :=
  ⟨h.accel, h.dataPin⟩

theorem ssuProgress_early (s : Walker) (f : Walker → Outcome Fault Walker)
    (hp : s.SSU.progress + 1 ≠ 7) : s.ssuProgress f = .ok (s.count (s.SSU.progress + 1)) :=
  if_neg hp

theorem Configured.stepping_cases {s : Walker} (hc : s.Configured d) (hm : s.MarksTaken d)
    (htdre : s.tdre = false) :
    s.stepping = [d] ∨
      (s.SSU.progress + 1 ≠ 7 ∧ s.ssuTick = .ok (s.count (s.SSU.progress + 1))) := by
  have counted {f : Walker → Outcome Fault Walker} (hstep : s.stepping = onSeventh s.SSU.progress d)
      (htick : s.ssuTick = s.ssuProgress f) : s.stepping = [d] ∨
        (s.SSU.progress + 1 ≠ 7 ∧ s.ssuTick = .ok (s.count (s.SSU.progress + 1))) := by
    by_cases hp : s.SSU.progress + 1 = 7
    · exact .inl (hstep.trans (if_pos hp))
    · exact .inr ⟨hp, htick.trans (s.ssuProgress_early f hp)⟩
  cases hRE : (s.memory SSER).has RE with
  | true =>
    have hmode : s.transferMode = some .transmitReceive :=
      transferMode_eq_some.mpr ⟨htdre, hc.transmit, by rw [hRE]; rfl⟩
    have htick : s.ssuTick = s.ssuTransmitReceive := ssuTick_transfer hmode
    cases d with
    | accel =>
      have hsel : s.accelSelected = true := hc.selected
      exact .inl (by simp [stepping, hmode, hsel])
    | eeprom =>
      have haccel : s.accelSelected = false := hc.others .accel (by decide)
      have hsel : s.eepromSelected = true := hc.selected
      exact counted (by simp [stepping, hmode, haccel, hsel])
        (htick.trans (ssuTransmitReceive_eeprom hc))
    | lcd => simp [hc.receive rfl] at hRE
  | false =>
    have hmode : s.transferMode = some .transmit :=
      transferMode_eq_some.mpr ⟨htdre, hc.transmit, by rw [hRE]; rfl⟩
    have htick : s.ssuTick = s.ssuTransmit := ssuTick_transfer hmode
    cases d with
    | accel =>
      have hsel : s.accelSelected = true := hc.selected
      have heeprom : s.eepromSelected = false := hc.others .eeprom (by decide)
      have hlcd : s.lcdSelected = false := hc.others .lcd (by decide)
      have hpin := hm.dataPin (by decide) hRE
      exact .inl (by simp [stepping, hmode, hsel, heeprom, hlcd, hpin])
    | eeprom =>
      have haccel : s.accelSelected = false := hc.others .accel (by decide)
      have hsel : s.eepromSelected = true := hc.selected
      have hlcd : s.lcdSelected = false := hc.others .lcd (by decide)
      have hpin := hm.dataPin (by decide) hRE
      exact counted (by simp [stepping, hmode, haccel, hsel, hlcd, hpin])
        (htick.trans (ssuTransmit_eeprom haccel hsel hlcd hpin))
    | lcd =>
      have haccel : s.accelSelected = false := hc.others .accel (by decide)
      have heeprom : s.eepromSelected = false := hc.others .eeprom (by decide)
      have hsel : s.lcdSelected = true := hc.selected
      have hlcd := htick.trans (ssuTransmit_lcd haccel heeprom hsel)
      cases hpin : s.lcdDataPin with
      | true =>
        rw [if_pos hpin] at hlcd
        exact counted (by simp [stepping, hmode, haccel, heeprom, hpin, lcdProgress]) hlcd
      | false => exact .inl (by simp [stepping, hmode, haccel, heeprom, hsel, hpin])

/-- The wait is the one tick in which the device takes the byte. -/
theorem Configured.awaitTDRE_eq {s : Walker} (hc : s.Configured d) (hm : s.MarksTaken d)
    (htdre : s.tdre = false) (hn : (6 - s.SSU.progress).toNat < n) :
    ∃ progress, (s.count progress).stepping = [d] ∧
      s.awaitTDRE n = (s.count progress).ssuTick := by
  induction n generalizing s with
  | zero => exact absurd hn (Nat.not_lt_zero _)
  | succ n ih =>
    have hwait : s.awaitTDRE (n + 1) = s.ssuTick.andThen (awaitTDRE n) := by
      simp [awaitTDRE, htdre]
    rw [hwait]
    rcases hc.stepping_cases hm htdre with hstep | ⟨hp, htick⟩
    · refine ⟨s.SSU.progress, hstep, Outcome.andThen_eq_self fun t ht => ?_⟩
      rcases hc.took hm htdre ht with ⟨-, htaken⟩ | ⟨hnone, -⟩
      · exact awaitTDRE_ready htaken
      · simp [hstep] at hnone
    · rw [htick, Outcome.andThen_ok]
      have hcount : (6 - (s.SSU.progress + 1)).toNat < n := by bv_omega
      exact ih (s := s.count (s.SSU.progress + 1)) hc.count hm.count htdre hcount

-- ---------------------------------------------------------------------------
-- Sending
-- ---------------------------------------------------------------------------

def ssuMode (s : Walker) : Mode :=
  if (s.memory SSER).has RE then .transmitReceive else .transmit

section
variable {s t : Walker} {d : Device} {byte : Byte}

theorem fill_lcdDataPin : (s.fill byte).lcdDataPin = s.lcdDataPin := by
  simp only [lcdDataPin, s.fill_ne byte (a := PORT1) (by decide) (by decide)]

theorem fill_ssuMode (s : Walker) (byte : Byte) : (s.fill byte).ssuMode = s.ssuMode := by
  simp only [ssuMode, s.fill_ne byte (a := SSER) (by decide) (by decide)]

theorem Configured.fill (h : s.Configured d) : (s.fill byte).Configured d :=
  h.congr (s.fill_ne byte (by decide) (by decide)) (s.fill_ne byte (by decide) (by decide))
    (s.fill_ne byte (by decide) (by decide))

theorem MarksTaken.fill (h : s.MarksTaken d) : (s.fill byte).MarksTaken d := by
  refine ⟨h.accel, fun hd hRE => ?_⟩
  rw [s.fill_ne byte (by decide) (by decide)] at hRE
  exact fill_lcdDataPin.trans (h.dataPin hd hRE)

theorem Configured.send_eq (hc : s.Configured d) (hm : s.MarksTaken d) (byte : Byte) :
    ∃ progress, ((s.fill byte).count progress).stepping = [d] ∧
      s.send byte = ((s.fill byte).count progress).ssuTick := by
  refine hc.fill.awaitTDRE_eq hm.fill (s.fill_tdre byte) ?_
  exact (6 - (s.fill byte).SSU.progress).isLt

theorem Configured.transferMode (hc : s.Configured d) (htdre : s.tdre = false) :
    s.transferMode = some s.ssuMode :=
  transferMode_eq_some.mpr ⟨htdre, hc.transmit, rfl⟩

/-- A byte sent is one step of the selected device, however it ends. -/
theorem Configured.send_devices (hc : s.Configured d) (hm : s.MarksTaken d) (byte : Byte) :
    (s.send byte).map devices = s.devices.step s.ssuMode s.lcdDataPin byte d := by
  obtain ⟨progress, hstep, hsend⟩ := hc.send_eq hm byte
  have hmode : ((s.fill byte).count progress).transferMode = some s.ssuMode :=
    (hc.fill.transferMode (s.fill_tdre byte)).trans (congrArg some (s.fill_ssuMode byte))
  have hdevices := ((s.fill byte).count progress).ssuTick_devices
  rw [← hsend, hmode, hstep] at hdevices
  have hbyte : ((s.fill byte).count progress).memory SSTDR = byte := s.fill_sstdr byte
  have hpin : ((s.fill byte).count progress).lcdDataPin = s.lcdDataPin := fill_lcdDataPin
  dsimp only at hdevices
  rw [Devices.steps_single, hbyte, hpin] at hdevices
  exact hdevices

theorem Configured.send_frame (hc : s.Configured d) (hm : s.MarksTaken d)
    (h : s.send byte = .ok t) : t.tdre = true ∧ SsuFrame (s.fill byte) t := by
  obtain ⟨progress, hstep, hsend⟩ := hc.send_eq hm byte
  rw [hsend] at h
  have hframe : SsuFrame (s.fill byte) t :=
    ⟨(ssuTick_frame _).ok h |>.offBus, ((ssuTick_frame _).ok h).memory⟩
  refine ⟨?_, hframe⟩
  have hcount : ((s.fill byte).count progress).Configured d := hc.fill.count
  rcases hcount.took hm.fill.count (s.fill_tdre byte) h with ⟨-, htaken⟩ | ⟨hnone, -⟩
  · exact htaken
  · simp [hstep] at hnone

theorem Configured.send_reply (hc : s.Configured .eeprom) (hm : s.MarksTaken .eeprom)
    (hmode : s.ssuMode = .transmitReceive) (hstate : s.eeprom.buffer.state = .gettingBytes)
    (h : s.send byte = .ok t) :
    s.eeprom.memory.get? s.eeprom.buffer.index = some (t.memory SSRDR) := by
  obtain ⟨progress, hstep, hsend⟩ := hc.send_eq hm byte
  have hreceive : ((s.fill byte).count progress).transferMode = some .transmitReceive := by
    rw [← hmode, ← s.fill_ssuMode byte]
    exact hc.fill.transferMode (s.fill_tdre byte)
  rw [hsend, ssuTick_transfer hreceive] at h
  have hread := (ssuTransmitReceive_eeprom hc.fill.count).symm.trans h
  have hseventh := seventh_of_stepping hreceive (hstep ▸ List.mem_singleton_self _)
  exact eepromRead_reply (s := (s.fill byte).count progress) hread hseventh hstate

end

end Walker

end PokeStroller
