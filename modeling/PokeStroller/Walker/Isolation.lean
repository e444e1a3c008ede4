import PokeStroller.Walker.Devices
import PokeStroller.Walker.Session

/-!
# Chip selects

A device whose select pin is high keeps its state through a clock cycle, with
one exception: the LCD data path asks for the data pin only. The result says
exactly when a deselected LCD is written.
-/

namespace PokeStroller

-- ---------------------------------------------------------------------------
-- A device that does not step
-- ---------------------------------------------------------------------------

def Devices.SameAt (d d' : Devices) : Device → Prop
  | .accel => d'.accel = d.accel
  | .eeprom => d'.eeprom = d.eeprom
  | .lcd => d'.lcd = d.lcd

theorem Devices.SameAt.trans {d d' d'' : Devices} (h : d.SameAt d' i) (h' : d'.SameAt d'' i) :
    d.SameAt d'' i := by
  cases i with
  | accel => exact Eq.trans h' h
  | eeprom => exact Eq.trans h' h
  | lcd => exact Eq.trans h' h

theorem Devices.step_sameAt (mode : Mode) (pin : Bool) (byte : Byte) (d : Devices) {i j : Device}
    (hij : i ≠ j) : (d.step mode pin byte j).Holds fun d' => d.SameAt d' i := by
  cases j with
  | accel =>
    dsimp only [step]
    cases d.accel.transfer mode byte <;> cases i <;> first | rfl | trivial
  | eeprom =>
    dsimp only [step]
    cases d.eeprom.transfer mode byte <;> cases i <;> first | rfl | trivial
  | lcd =>
    dsimp only [step]
    cases d.lcd.transfer pin byte <;> cases i <;> first | rfl | trivial

theorem Devices.steps_sameAt (mode : Mode) (pin : Bool) (byte : Byte) (d : Devices) {i : Device}
    (h : i ∉ ds) : (d.steps mode pin byte ds).Holds fun d' => d.SameAt d' i := by
  induction ds generalizing d with
  | nil => cases i <;> rfl
  | cons j ds ih =>
    simp only [List.mem_cons, not_or] at h
    refine (d.step_sameAt mode pin byte h.1).andThen (fun _ h => h) fun d' h' => ?_
    exact (ih d' h.2).mono fun _ h => h'.trans h

namespace Walker

theorem mem_stepping {s : Walker} {d : Device} (h : d ∈ s.stepping) :
    match d with
    | .accel => s.accelSelected = true
    | .eeprom => s.eepromSelected = true
    | .lcd => s.transferMode = some .transmit ∧
      ((s.lcdDataPin = true ∧ s.lcdProgress + 1 = 7) ∨ s.lcdSelected = true) := by
  have hone {b : Bool} {e : Device} (h : d ∈ if b then [e] else []) : b = true ∧ d = e := by
    cases b <;> simp_all
  have hseventh {b : Bool} {p : Byte} {e : Device} (h : d ∈ if b then onSeventh p e else []) :
      b = true ∧ p + 1 = 7 ∧ d = e := by
    cases b with
    | true => exact ⟨rfl, mem_onSeventh.mp h⟩
    | false => cases h
  unfold stepping at h
  split at h
  · cases h
  · split at h
    · simp only [List.mem_singleton] at h
      subst h
      assumption
    · obtain ⟨hsel, -, rfl⟩ := hseventh h
      exact hsel
  · rename_i hmode
    rcases List.mem_append.mp h with h | h
    · obtain ⟨hsel, rfl⟩ := hone h
      exact hsel
    rcases List.mem_append.mp h with h | h
    · obtain ⟨hsel, -, rfl⟩ := hseventh h
      exact hsel
    · split at h
      · rename_i hpin
        obtain ⟨hp, rfl⟩ := mem_onSeventh.mp h
        exact ⟨hmode, .inl ⟨hpin, hp⟩⟩
      · obtain ⟨hsel, rfl⟩ := hone h
        exact ⟨hmode, .inr hsel⟩

/-- Every device that is not selected is as it was. -/
structure Isolated (s t : Walker) : Prop where
  accel : s.accelSelected = false → t.accel = s.accel
  eeprom : s.eepromSelected = false → t.eeprom = s.eeprom
  lcd : s.lcdSelected = false → t.lcd = s.lcd

def AccelWritable (s : Walker) : Prop :=
  s.accelSelected = true → s.accel.buffer.state = .gettingBytes →
    s.accel.buffer.address.toNat < 29

/-- A tick that writes a deselected LCD: transmission only, a byte pending, the
data pin high, and the 7th tick on the shared counter, with nothing out of
range on the way. -/
structure LcdStray (s : Walker) : Prop where
  deselected : s.lcdSelected = false
  mode : s.transferMode = some .transmit
  dataPin : s.lcdDataPin = true
  seventh : s.lcdProgress + 1 = 7
  cursor : s.lcd.memIndex < LCD_MEM_SIZE
  accel : s.AccelWritable

theorem stepping_of_seventh {s : Walker} (hmode : s.transferMode = some .transmit)
    (hpin : s.lcdDataPin = true) (h : s.lcdProgress + 1 = 7) :
    s.stepping = (if s.accelSelected then [.accel] else []) ++ [.lcd] := by
  have heeprom : (if s.eepromSelected then onSeventh s.SSU.progress .eeprom else []) = [] := by
    split
    · rename_i hsel
      unfold onSeventh
      split
      · rename_i hp
        simp only [lcdProgress, hsel, ↓reduceIte, advance, hp] at h
        exact absurd h (by decide)
      · rfl
    · rfl
  have hlcd : onSeventh s.lcdProgress .lcd = [.lcd] := if_pos h
  unfold stepping
  rw [hmode]
  simp only [heeprom, hlcd, hpin, ↓reduceIte, List.nil_append]

end Walker

theorem Lcd.data_of_lt (lcd : Lcd) (byte : Byte) (h : lcd.memIndex < LCD_MEM_SIZE) :
    ∃ lcd', lcd.data byte = .ok lcd' ∧ lcd'.currentByte ≠ lcd.currentByte := by
  refine ⟨_, by rw [Lcd.data, Bytes.set?_of_lt _ h]; rfl, ?_⟩
  intro hb
  have : ∀ b : Byte, (b + 1) % 2 ≠ b := by decide
  exact this _ hb

theorem Lcd.data_of_ge (lcd : Lcd) (byte : Byte) (h : ¬ lcd.memIndex < LCD_MEM_SIZE) :
    lcd.data byte = .fault .lcdAssertion := by
  rw [Lcd.data, Bytes.set?_of_le _ (Nat.not_lt.mp h)]
  rfl

/-- The accelerometer's part of a transmission either completes, with nothing
but the accelerometer changed, or is out of range. -/
theorem Walker.accelStage (s : Walker) (pin : Bool) (byte : Byte) :
    (s.AccelWritable ∧ ∃ accel, s.devices.steps .transmit pin byte
      (if s.accelSelected then [.accel] else []) = .ok { s.devices with accel := accel }) ∨
    (¬ s.AccelWritable ∧ s.devices.steps .transmit pin byte
      (if s.accelSelected then [.accel] else []) = .fault .accelIndex) := by
  cases hsel : s.accelSelected with
  | false => exact .inl ⟨fun h => by simp [hsel] at h, s.accel, rfl⟩
  | true =>
    simp only [↓reduceIte]
    rw [Devices.steps_single]
    cases hstate : s.accel.buffer.state with
    | gettingAddress =>
      let buffer := { s.accel.buffer with address := byte, state := AccelState.gettingBytes }
      refine .inl ⟨fun _ h => by simp [hstate] at h, { s.accel with buffer := buffer }, ?_⟩
      simp only [Devices.step, Walker.devices, Accelerometer.transfer, hstate]
      rfl
    | gettingBytes =>
      simp only [Devices.step, Walker.devices, Accelerometer.transfer, hstate]
      by_cases hi : s.accel.buffer.address.toNat < 29
      · rw [Bytes.set?_of_lt _ hi]
        exact .inl ⟨fun _ _ => hi, _, rfl⟩
      · rw [Bytes.set?_of_le _ (Nat.not_lt.mp hi)]
        exact .inr ⟨fun h => hi (h hsel hstate), rfl⟩

/-- The steps of such a tick, when something ends up in the LCD and when the
tick has no defined outcome. -/
theorem Walker.strayStage {s : Walker} (hmode : s.transferMode = some .transmit)
    (hpin : s.lcdDataPin = true) (h : s.lcdProgress + 1 = 7) :
    (s.lcd.memIndex < LCD_MEM_SIZE ∧ s.AccelWritable ∧ ∃ d,
      s.devices.steps .transmit s.lcdDataPin (s.memory SSTDR) s.stepping = .ok d ∧
        d.lcd ≠ s.lcd) ∨
    (¬ (s.lcd.memIndex < LCD_MEM_SIZE ∧ s.AccelWritable) ∧ ∃ f,
      s.devices.steps .transmit s.lcdDataPin (s.memory SSTDR) s.stepping = .fault f) := by
  rw [stepping_of_seventh hmode hpin h, Devices.steps_append]
  rcases s.accelStage s.lcdDataPin (s.memory SSTDR) with ⟨ha, accel, hs⟩ | ⟨ha, hs⟩
  · rw [hs, Outcome.andThen_ok, Devices.steps_single]
    simp only [Devices.step, Lcd.transfer, hpin, ↓reduceIte]
    by_cases hi : s.lcd.memIndex < LCD_MEM_SIZE
    · obtain ⟨lcd, hl, hne⟩ := s.lcd.data_of_lt (s.memory SSTDR) hi
      refine .inl ⟨hi, ha, { s.devices with accel := accel, lcd := lcd }, ?_, ?_⟩
      · rw [show ({ s.devices with accel := accel } : Devices).lcd = s.lcd from rfl, hl]
        rfl
      · exact fun h => hne (congrArg Lcd.currentByte h)
    · refine .inr ⟨fun h => hi h.1, .lcdAssertion, ?_⟩
      rw [show ({ s.devices with accel := accel } : Devices).lcd = s.lcd from rfl,
        s.lcd.data_of_ge _ hi]
      rfl
  · rw [hs]
    exact .inr ⟨fun h => ha h.2, _, rfl⟩

namespace Machine

theorem clockCycle_devices (m : Machine) :
    m.clockCycle.map (fun t => t.devices) =
      if (m.cycleCount + 1) % 4 = 0 then m.toWalker.ssuTick.map Walker.devices
      else .ok m.devices := by
  unfold clockCycle
  dsimp only
  rw [Outcome.map_andThen_ok]
  · split
    · rw [Outcome.map_map]
    · rfl
  · intro t
    split
    · have h := Walker.runSubClock_sameBus
        { t.toWalker with subClockCyclesEllapsed := t.subClockCyclesEllapsed + 1 }
      simp only [Outcome.map_ok, Walker.devices, h.accel, h.eeprom, h.lcd]
    · rfl

/-- A deselected device keeps its state through a clock cycle, unless the
cycle is a tick that writes a deselected LCD. -/
theorem isolated_iff (m : Machine) :
    (∀ t, m.clockCycle.Leaves t → m.Isolated t.toWalker) ↔
      ¬ ((m.cycleCount + 1) % 4 = 0 ∧ m.LcdStray) := by
  have hdevices := m.clockCycle_devices
  constructor
  · rintro hiso ⟨htick, hstray⟩
    rw [if_pos htick, Walker.ssuTick_devices, hstray.mode] at hdevices
    dsimp only at hdevices
    rcases Walker.strayStage hstray.mode hstray.dataPin hstray.seventh with
      ⟨-, -, d, hd, hne⟩ | ⟨hn, -⟩
    · rw [hd] at hdevices
      obtain ⟨t, ht, hdt⟩ := Outcome.map_eq_ok.mp hdevices
      apply hne
      rw [← hdt]
      exact (hiso t (Outcome.leaves_of_ok ht)).lcd hstray.deselected
    · exact hn ⟨hstray.cursor, hstray.accel⟩
  · intro hstray t ht
    have hleaves := ht.map fun t => t.devices
    rw [hdevices] at hleaves
    -- a device that does not step is the same afterwards
    have same (mode ds) (h : (m.devices.steps mode m.lcdDataPin (m.memory SSTDR) ds).Leaves
        t.devices) (d : Device) (hd : d ∉ ds) : m.devices.SameAt t.devices d :=
      (m.devices.steps_sameAt mode _ _ hd).leaves h
    have idle (h : t.devices = m.devices) : m.Isolated t.toWalker :=
      ⟨fun _ => congrArg Devices.accel h, fun _ => congrArg Devices.eeprom h,
        fun _ => congrArg Devices.lcd h⟩
    split at hleaves
    · rename_i htick
      rw [Walker.ssuTick_devices] at hleaves
      cases hmode : m.transferMode with
      | none =>
        simp only [hmode] at hleaves
        split at hleaves <;> exact idle hleaves.symm
      | some mode =>
        simp only [hmode] at hleaves
        refine ⟨fun hsel => same mode _ hleaves .accel ?_, fun hsel => same mode _ hleaves .eeprom ?_,
          fun hsel => same mode _ hleaves .lcd ?_⟩
        · exact fun hd => by simp [Walker.mem_stepping hd] at hsel
        · exact fun hd => by simp [Walker.mem_stepping hd] at hsel
        · intro hd
          obtain ⟨htransmit, ⟨hpin, hseventh⟩ | hlcd⟩ := Walker.mem_stepping hd
          · obtain rfl := Option.some.inj (hmode.symm.trans htransmit)
            rcases Walker.strayStage htransmit hpin hseventh with ⟨hi, ha, -⟩ | ⟨-, f, hf⟩
            · exact hstray ⟨htick, hsel, htransmit, hpin, hseventh, hi, ha⟩
            · rw [hf] at hleaves
              exact hleaves
          · simp [hlcd] at hsel
    · exact idle hleaves.symm

end Machine

def strayProgram : List (Nat × List Byte) :=
  [(0x2c4, [0xf8, 0x01, 0x6a, 0x88, 0xff, 0xdc, 0xf8, 0x07, 0x6a, 0x88, 0xff, 0xd4,
            0xf8, 0x80, 0x6a, 0x88, 0xf0, 0xe3, 0xf8, 0x5a, 0x6a, 0x88, 0xf0, 0xeb])]

/-- The second clock cycle of the 20th call writes the LCD. -/
theorem deselected_lcd_written :
    ¬ ∀ (m u t : Machine) (s : Walker), m.Reachable → m.Dispatches s →
      ({ m with toWalker := s.interruptHandling } : Machine).clockCycle = .ok u →
      u.clockCycle.Leaves t → u.Isolated t.toWalker := by
  have run : ((Machine.boot strayProgram).calls 19).okWith (fun m =>
      !m.sleep && m.toWalker.skipHook.isNone && m.toWalker.instructionPhase.okWith fun s =>
        ({ m with toWalker := s.interruptHandling } : Machine).clockCycle.okWith fun u =>
          !u.lcdSelected && u.clockCycle.okWith fun t =>
            t.lcd.currentByte != u.lcd.currentByte) = true := by
    decide +kernel
  intro claim
  obtain ⟨m, hm, h⟩ := Outcome.okWith_iff.mp run
  simp only [Bool.and_eq_true, Bool.not_eq_true', Option.isNone_iff_eq_none] at h
  obtain ⟨⟨hsleep, hskip⟩, h⟩ := h
  obtain ⟨s, hs, h⟩ := Outcome.okWith_iff.mp h
  obtain ⟨u, hu, h⟩ := Outcome.okWith_iff.mp h
  simp only [Bool.and_eq_true, Bool.not_eq_true'] at h
  obtain ⟨hsel, h⟩ := h
  obtain ⟨t, ht, h⟩ := Outcome.okWith_iff.mp h
  have hiso := claim m u t s ((Machine.reachable_boot _).calls hm) (.executed hsleep hskip hs) hu
    (Outcome.leaves_of_ok ht)
  simp [hiso.lcd hsel] at h

end PokeStroller
