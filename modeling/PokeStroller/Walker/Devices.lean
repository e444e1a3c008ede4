import PokeStroller.Walker.Frames

/-!
# The devices as protocol machines

What the bus is for: a device that gets a byte takes one step of its own
protocol. `stepping` lists the devices that take a step in a tick, and
`ssuTick_devices` says that a tick is exactly these steps on the devices.
-/

namespace PokeStroller

inductive Mode
  | transmit
  | transmitReceive
  deriving DecidableEq, Repr

inductive Device
  | accel
  | eeprom
  | lcd
  deriving DecidableEq, Repr

-- ---------------------------------------------------------------------------
-- Protocols
-- ---------------------------------------------------------------------------

/-- A register number, and then registers: read upwards, written in place. -/
def Accelerometer.transfer (a : Accelerometer) (mode : Mode) (byte : Byte) :
    Outcome Fault Accelerometer :=
  let buffer := a.buffer
  match mode, buffer.state with
  | .transmitReceive, .gettingAddress =>
    .ok { a with buffer := { address := byte &&& 0x0f, offset := 0, state := .gettingBytes } }
  | .transmitReceive, .gettingBytes =>
    (Outcome.ofOption .accelIndex
      (a.memory.get? (buffer.address.toNat + buffer.offset.toNat))).map fun _ =>
        { a with buffer := { buffer with offset := buffer.offset + 1 } }
  | .transmit, .gettingAddress =>
    .ok { a with buffer := { buffer with address := byte, state := .gettingBytes } }
  | .transmit, .gettingBytes =>
    (Outcome.ofOption .accelIndex (a.memory.set? buffer.address.toNat byte)).map fun memory =>
      { a with memory := memory }

/-- Commands WREN and WRITE in transmission, READ and RDSR with reception;
WRITE and READ take two address bytes and then data. -/
def Eeprom.transfer (e : Eeprom) (mode : Mode) (byte : Byte) : Outcome Fault Eeprom :=
  let buffer := e.buffer
  match buffer.state with
  | .empty =>
    match mode with
    | .transmitReceive =>
      match byte.toNat with
      | 0x3 => .ok { e with buffer := { buffer with state := .gettingAddressHi } }
      | 0x5 => .ok { e with buffer := { buffer with state := .gettingStatusRegister } }
      | _ => .ok e
    | .transmit =>
      match byte.toNat with
      | 0x6 => .ok { e with status := e.status ||| 0x2 }
      | 0x2 => .ok { e with buffer := { buffer with state := .gettingAddressHi } }
      | _ => .ok e
  | .gettingStatusRegister =>
    match mode with
    | .transmitReceive => .ok e
    | .transmit => .error e
  | .gettingAddressHi =>
    .ok { e with buffer := { buffer with hiAddress := byte, state := .gettingAddressLo } }
  | .gettingAddressLo =>
    .ok { e with buffer := { buffer with loAddress := byte, state := .gettingBytes } }
  | .gettingBytes =>
    match mode with
    | .transmitReceive =>
      (Outcome.ofOption .eepromIndex (e.memory.get? buffer.index)).map fun _ =>
        { e with buffer := { buffer with offset := buffer.offset + 1 } }
    | .transmit =>
      (Outcome.ofOption .eepromIndex (e.memory.set? buffer.index byte)).map fun memory =>
        let offset := BitVec.ofNat 16 ((buffer.offset.toNat + 1) % EEPROM_PAGE_SIZE)
        { e with memory := memory, buffer := { buffer with offset := offset } }

def Lcd.data (lcd : Lcd) (byte : Byte) : Outcome Fault Lcd :=
  (Outcome.ofOption .lcdAssertion (lcd.memory.set? lcd.memIndex byte)).map fun memory =>
    { lcd with
      memory := memory
      currentColumn := if lcd.currentByte = 1 then lcd.currentColumn + 1 else lcd.currentColumn
      currentByte := (lcd.currentByte + 1) % 2 }

def Lcd.transfer (lcd : Lcd) (dataPin : Bool) (byte : Byte) : Outcome Fault Lcd :=
  if dataPin then lcd.data byte else .ok (lcd.command byte)

structure Devices where
  accel : Accelerometer
  eeprom : Eeprom
  lcd : Lcd

def Devices.step (mode : Mode) (dataPin : Bool) (byte : Byte) (devices : Devices) :
    Device → Outcome Fault Devices
  | .accel => (devices.accel.transfer mode byte).map fun accel => { devices with accel := accel }
  | .eeprom =>
    (devices.eeprom.transfer mode byte).map fun eeprom => { devices with eeprom := eeprom }
  | .lcd => (devices.lcd.transfer dataPin byte).map fun lcd => { devices with lcd := lcd }

def Devices.steps (mode : Mode) (dataPin : Bool) (byte : Byte) :
    List Device → Devices → Outcome Fault Devices
  | [], devices => .ok devices
  | d :: ds, devices => (devices.step mode dataPin byte d).andThen (steps mode dataPin byte ds)

-- ---------------------------------------------------------------------------
-- How a step can fail
-- ---------------------------------------------------------------------------

def Device.fault : Device → Fault
  | .accel => .accelIndex
  | .eeprom => .eepromIndex
  | .lcd => .lcdAssertion

theorem Accelerometer.transfer_stops (a : Accelerometer) (mode : Mode) (byte : Byte) :
    (a.transfer mode byte).Stops (fun _ => False) (· = .accelIndex) := by
  unfold transfer
  dsimp only
  split
  · simp
  · cases a.memory.get? (a.buffer.address.toNat + a.buffer.offset.toNat) <;> simp
  · simp
  · cases a.memory.set? a.buffer.address.toNat byte <;> simp

theorem Eeprom.transfer_stops (e : Eeprom) (mode : Mode) (byte : Byte) :
    (e.transfer mode byte).Stops (fun _ => True) (· = .eepromIndex) := by
  unfold transfer
  dsimp only
  split
  · split
    · split <;> simp
    · split <;> simp
  · split <;> simp
  · simp
  · simp
  · split
    · cases e.memory.get? e.buffer.index <;> simp
    · cases e.memory.set? e.buffer.index byte <;> simp

theorem Lcd.transfer_stops (lcd : Lcd) (dataPin : Bool) (byte : Byte) :
    (lcd.transfer dataPin byte).Stops (fun _ => False) (· = .lcdAssertion) := by
  unfold transfer data
  split
  · cases lcd.memory.set? lcd.memIndex byte <;> simp
  · simp

theorem Devices.step_stops (devices : Devices) (mode : Mode) (dataPin : Bool) (byte : Byte)
    (d : Device) :
    (devices.step mode dataPin byte d).Stops (fun _ => True) (· = d.fault) := by
  cases d with
  | accel => exact ((devices.accel.transfer_stops mode byte).mono nofun).map
  | eeprom => exact (devices.eeprom.transfer_stops mode byte).map
  | lcd => exact ((devices.lcd.transfer_stops dataPin byte).mono nofun).map

-- ---------------------------------------------------------------------------
-- Which devices step in a tick
-- ---------------------------------------------------------------------------

namespace Walker

def devices (s : Walker) : Devices := ⟨s.accel, s.eeprom, s.lcd⟩

def transferMode (s : Walker) : Option Mode :=
  if (s.memory SSSR).has TDRE then none
  else if s.memory SSER &&& (TE ||| RE) = TE ||| RE then some .transmitReceive
  else if (s.memory SSER).has TE then some .transmit
  else none

def advance (progress : Byte) : Byte := if progress + 1 = 7 then 0 else progress + 1

def lcdProgress (s : Walker) : Byte :=
  if s.eepromSelected then advance s.SSU.progress else s.SSU.progress

def onSeventh (progress : Byte) (d : Device) : List Device := if progress + 1 = 7 then [d] else []

theorem mem_onSeventh {d d' : Device} : d ∈ onSeventh p d' ↔ p + 1 = 7 ∧ d = d' := by
  unfold onSeventh
  split
  · rename_i hp
    exact ⟨fun h => ⟨hp, List.mem_singleton.mp h⟩, fun h => List.mem_singleton.mpr h.2⟩
  · rename_i hp
    exact ⟨fun h => (List.not_mem_nil h).elim, fun h => absurd h.1 hp⟩

def stepping (s : Walker) : List Device :=
  match s.transferMode with
  | none => []
  | some .transmitReceive =>
    if s.accelSelected then [.accel]
    else if s.eepromSelected then onSeventh s.SSU.progress .eeprom
    else []
  | some .transmit =>
    (if s.accelSelected then [.accel] else []) ++
    ((if s.eepromSelected then onSeventh s.SSU.progress .eeprom else []) ++
    (if s.lcdDataPin then onSeventh s.lcdProgress .lcd
     else if s.lcdSelected then [.lcd] else []))

end Walker

theorem Devices.steps_append (mode : Mode) (dataPin : Bool) (byte : Byte) (ds ds' : List Device)
    (devices : Devices) :
    devices.steps mode dataPin byte (ds ++ ds') =
      (devices.steps mode dataPin byte ds).andThen (steps mode dataPin byte ds') := by
  induction ds generalizing devices with
  | nil => rfl
  | cons d ds ih =>
    have tail : steps mode dataPin byte (ds ++ ds') = fun devices =>
        (steps mode dataPin byte ds devices).andThen (steps mode dataPin byte ds') := funext ih
    simp only [List.cons_append, steps, Outcome.andThen_assoc, tail]

theorem Devices.steps_single (mode : Mode) (dataPin : Bool) (byte : Byte) (d : Device)
    (devices : Devices) : devices.steps mode dataPin byte [d] = devices.step mode dataPin byte d := by
  simp only [steps]
  cases devices.step mode dataPin byte d <;> rfl

theorem Devices.steps_onSeventh (mode : Mode) (dataPin : Bool) (byte : Byte) (d : Device)
    (devices : Devices) (progress : Byte) :
    devices.steps mode dataPin byte (Walker.onSeventh progress d) =
      if progress + 1 = 7 then devices.step mode dataPin byte d else .ok devices := by
  unfold Walker.onSeventh
  split
  · exact devices.steps_single mode dataPin byte d
  · rfl

-- ---------------------------------------------------------------------------
-- A tick refines the protocols
-- ---------------------------------------------------------------------------

namespace Walker

@[simp] theorem setSSSR_devices (s : Walker) (bits : Byte) :
    (s.setSSSR bits).devices = s.devices := rfl

@[simp] theorem setSSRDR_devices (s : Walker) (v : Byte) :
    (s.setSSRDR v).devices = s.devices := rfl

theorem setSSSR_memory (s : Walker) (bits : Byte) (h : a ≠ SSSR) :
    (s.setSSSR bits).memory a = s.memory a :=
  Function.update_of_ne h _ _

theorem accelRead_devices (s : Walker) (pin : Bool) :
    s.accelRead.map devices = s.devices.step .transmitReceive pin (s.memory SSTDR) .accel := by
  unfold accelRead Devices.step Accelerometer.transfer devices
  cases hstate : s.accel.buffer.state with
  | gettingAddress => simp only [hstate]; rfl
  | gettingBytes =>
    simp only [hstate]
    cases s.accel.memory.get? (s.accel.buffer.address.toNat + s.accel.buffer.offset.toNat) <;> rfl

theorem accelWrite_devices (s : Walker) (pin : Bool) :
    s.accelWrite.map devices = s.devices.step .transmit pin (s.memory SSTDR) .accel := by
  unfold accelWrite Devices.step Accelerometer.transfer devices
  cases hstate : s.accel.buffer.state with
  | gettingAddress => simp only [hstate]; rfl
  | gettingBytes =>
    simp only [hstate]
    cases s.accel.memory.set? s.accel.buffer.address.toNat (s.memory SSTDR) <;> rfl

theorem eepromReadStep_devices (s : Walker) (pin : Bool) :
    s.eepromReadStep.map devices =
      s.devices.step .transmitReceive pin (s.memory SSTDR) .eeprom := by
  unfold eepromReadStep Devices.step Eeprom.transfer devices
  cases hstate : s.eeprom.buffer.state with
  | empty =>
    simp only [hstate]
    generalize (s.memory SSTDR).toNat = command
    by_cases hread : command = 3
    · subst hread; rfl
    by_cases hrdsr : command = 5
    · subst hrdsr; rfl
    simp only [Outcome.map]
  | gettingStatusRegister => simp only [hstate]; rfl
  | gettingAddressHi => simp only [hstate]; rfl
  | gettingAddressLo => simp only [hstate]; rfl
  | gettingBytes =>
    simp only [hstate]
    cases s.eeprom.memory.get? s.eeprom.buffer.index <;> rfl

theorem eepromWriteStep_devices (s : Walker) (pin : Bool) :
    s.eepromWriteStep.map devices = s.devices.step .transmit pin (s.memory SSTDR) .eeprom := by
  unfold eepromWriteStep Devices.step Eeprom.transfer devices
  cases hstate : s.eeprom.buffer.state with
  | empty =>
    simp only [hstate]
    generalize (s.memory SSTDR).toNat = command
    by_cases hwren : command = 6
    · subst hwren; rfl
    by_cases hwrite : command = 2
    · subst hwrite; rfl
    simp only [Outcome.map]
  | gettingStatusRegister => simp only [hstate]; rfl
  | gettingAddressHi => simp only [hstate]; rfl
  | gettingAddressLo => simp only [hstate]; rfl
  | gettingBytes =>
    simp only [hstate]
    cases s.eeprom.memory.set? s.eeprom.buffer.index (s.memory SSTDR) <;> rfl

theorem ssuProgress_devices (s : Walker) {f : Walker → Outcome Fault Walker}
    {g : Devices → Outcome Fault Devices}
    (hf : (f { s with SSU := { s.SSU with progress := 0 } }).map devices = g s.devices) :
    (s.ssuProgress f).map devices =
      if s.SSU.progress + 1 = 7 then g s.devices else .ok s.devices := by
  unfold ssuProgress
  dsimp only
  split
  · exact hf
  · rfl

theorem eepromRead_devices (s : Walker) (pin : Bool) :
    s.eepromRead.map devices =
      if s.SSU.progress + 1 = 7 then s.devices.step .transmitReceive pin (s.memory SSTDR) .eeprom
      else .ok s.devices := by
  refine s.ssuProgress_devices (g := fun d => d.step .transmitReceive pin _ .eeprom) ?_
  refine (Outcome.map_andThen_ok ?_).trans (eepromReadStep_devices _ pin)
  exact fun _ => rfl

theorem eepromWrite_devices (s : Walker) (pin : Bool) :
    s.eepromWrite.map devices =
      if s.SSU.progress + 1 = 7 then s.devices.step .transmit pin (s.memory SSTDR) .eeprom
      else .ok s.devices := by
  refine s.ssuProgress_devices (g := fun d => d.step .transmit pin _ .eeprom) ?_
  refine (Outcome.map_andThen_ok ?_).trans (eepromWriteStep_devices _ pin)
  exact fun _ => rfl

theorem lcdData_devices (s : Walker) (mode : Mode) :
    s.lcdData.map devices =
      if s.SSU.progress + 1 = 7 then s.devices.step mode true (s.memory SSTDR) .lcd
      else .ok s.devices := by
  refine s.ssuProgress_devices (g := fun d => d.step mode true _ .lcd) ?_
  dsimp only [Devices.step, Lcd.transfer, Lcd.data, devices]
  cases s.lcd.memory.set? s.lcd.memIndex (s.memory SSTDR) <;> rfl

theorem lcdCommand_devices (s : Walker) (mode : Mode) :
    .ok s.lcdCommand.devices = s.devices.step mode false (s.memory SSTDR) .lcd := rfl

-- ---------------------------------------------------------------------------
-- Stages of a transmission: what the next one finds
-- ---------------------------------------------------------------------------

theorem accelWrite_SSU (s : Walker) : s.accelWrite.Holds fun t => t.SSU = s.SSU := by
  unfold accelWrite
  split
  · rfl
  · dsimp only
    split
    · trivial
    · rfl

theorem eepromWriteStep_SSU (s : Walker) : s.eepromWriteStep.Holds fun t => t.SSU = s.SSU := by
  unfold eepromWriteStep
  dsimp only
  split
  · split <;> rfl
  · rfl
  · rfl
  · split
    · trivial
    · rfl
  · rfl

theorem eepromWrite_progress (s : Walker) :
    s.eepromWrite.Holds fun t => t.SSU.progress = advance s.SSU.progress := by
  unfold eepromWrite ssuProgress advance
  dsimp only
  split
  · exact (eepromWriteStep_SSU _).andThen (fun t h => by rw [h]) fun t h => by
      show t.SSU.progress = 0
      rw [h]
  · rfl

-- ---------------------------------------------------------------------------
-- The whole tick
-- ---------------------------------------------------------------------------

theorem ssuTransmitReceive_devices (s : Walker) (pin : Bool)
    (hmode : s.transferMode = some .transmitReceive) :
    s.ssuTransmitReceive.map devices =
      s.devices.steps .transmitReceive pin (s.memory SSTDR) s.stepping := by
  unfold ssuTransmitReceive stepping
  rw [hmode]
  dsimp only
  split
  · rw [Devices.steps_single, accelRead_devices]
  · split
    · rw [Devices.steps_onSeventh, eepromRead_devices]
    · rfl

theorem eepromStage_devices (s : Walker) (pin : Bool) :
    (if s.eepromSelected then s.eepromWrite else .ok s).map devices =
      s.devices.steps .transmit pin (s.memory SSTDR)
        (if s.eepromSelected then onSeventh s.SSU.progress .eeprom else []) := by
  split
  · rw [Devices.steps_onSeventh, eepromWrite_devices]
  · rfl

theorem lcdStage_devices (s : Walker) (mode : Mode) :
    (if s.lcdDataPin then s.lcdData else if s.lcdSelected then .ok s.lcdCommand else .ok s).map
      devices =
      s.devices.steps mode s.lcdDataPin (s.memory SSTDR)
        (if s.lcdDataPin then onSeventh s.SSU.progress .lcd
         else if s.lcdSelected then [.lcd] else []) := by
  cases hpin : s.lcdDataPin with
  | true =>
    simp only [↓reduceIte]
    rw [Devices.steps_onSeventh, lcdData_devices _ mode]
  | false =>
    simp only [Bool.false_eq_true, ↓reduceIte]
    split
    · rw [Devices.steps_single]
      exact s.lcdCommand_devices mode
    · rfl

theorem ssuTransmit_devices (s : Walker) (hmode : s.transferMode = some .transmit) :
    s.ssuTransmit.map devices =
      s.devices.steps .transmit s.lcdDataPin (s.memory SSTDR) s.stepping := by
  unfold ssuTransmit stepping
  rw [hmode]
  dsimp only
  have accel : (if s.accelSelected then s.accelWrite else .ok s).map devices =
      s.devices.steps .transmit s.lcdDataPin (s.memory SSTDR)
        (if s.accelSelected then [.accel] else []) := by
    split
    · rw [accelWrite_devices, Devices.steps_single]
    · rfl
  rw [Devices.steps_append, ← accel]
  refine Outcome.map_andThen fun t ht => ?_
  -- the accelerometer leaves the ports, the byte and the progress alone
  obtain ⟨hframe, hunit⟩ : SsuFrame s t ∧ t.SSU = s.SSU := by
    split at ht
    · exact ⟨s.accelWrite_frame.ok ht, s.accelWrite_SSU.ok ht⟩
    · cases ht; exact ⟨.refl s, rfl⟩
  have hport : t.memory PORT1 = s.memory PORT1 := hframe.memory _ (by decide) (by decide)
  have hbyte : t.memory SSTDR = s.memory SSTDR := hframe.memory _ (by decide) (by decide)
  have heeprom : t.eepromSelected = s.eepromSelected := by simp [eepromSelected, hport]
  have hstage := t.eepromStage_devices s.lcdDataPin
  rw [hbyte, heeprom, hunit] at hstage
  rw [Devices.steps_append, heeprom, ← hstage]
  refine Outcome.map_andThen fun u hu => ?_
  -- the EEPROM leaves the ports and the byte alone, and advances the progress
  obtain ⟨hframe', hprogress⟩ : SsuFrame t u ∧ u.SSU.progress = s.lcdProgress := by
    unfold lcdProgress
    split at hu
    · rename_i hsel
      rw [if_pos hsel, ← hunit]
      exact ⟨t.eepromWrite_frame.ok hu, t.eepromWrite_progress.ok hu⟩
    · rename_i hsel
      cases hu
      rw [if_neg hsel, hunit]
      exact ⟨.refl t, rfl⟩
  have hport' : u.memory PORT1 = s.memory PORT1 :=
    (hframe'.memory _ (by decide) (by decide)).trans hport
  have hbyte' : u.memory SSTDR = s.memory SSTDR :=
    (hframe'.memory _ (by decide) (by decide)).trans hbyte
  have hlcd := u.lcdStage_devices .transmit
  have hpin : u.lcdDataPin = s.lcdDataPin := by simp [lcdDataPin, hport']
  have hsel : u.lcdSelected = s.lcdSelected := by simp [lcdSelected, hport']
  rw [hbyte', hpin, hsel, hprogress] at hlcd
  rwa [hpin, hsel]

theorem both_enabled (x : Byte) :
    x &&& (TE ||| RE) = TE ||| RE ↔ x.has TE = true ∧ x.has RE = true := by
  revert x
  decide

theorem transferMode_eq_some {s : Walker} : s.transferMode = some mode ↔
    (s.memory SSSR).has TDRE = false ∧ (s.memory SSER).has TE = true ∧
      mode = if (s.memory SSER).has RE then .transmitReceive else .transmit := by
  unfold transferMode
  simp only [both_enabled]
  cases (s.memory SSSR).has TDRE <;> cases (s.memory SSER).has TE <;>
    cases (s.memory SSER).has RE <;> simp [eq_comm]

def transfer (s : Walker) : Mode → Outcome Fault Walker
  | .transmitReceive => s.ssuTransmitReceive
  | .transmit => s.ssuTransmit

theorem ssuTick_transfer {s : Walker} (h : s.transferMode = some mode) :
    s.ssuTick = s.transfer mode := by
  obtain ⟨hTDRE, hTE, rfl⟩ := transferMode_eq_some.mp h
  unfold ssuTick
  simp only [both_enabled, hTDRE, hTE, ↓reduceIte, true_and, Bool.false_eq_true]
  cases (s.memory SSER).has RE <;> rfl

theorem ssuTick_idle {s : Walker} (h : s.transferMode = none) :
    s.ssuTick = if (s.memory SSER).has TE then .ok s
      else if (s.memory SSER).has RE then .error (s.setSSSR TDRE)
      else .ok (s.setSSSR TDRE) := by
  have hser : (s.setSSSR TDRE).memory SSER = s.memory SSER := setSSSR_memory s _ (by decide)
  unfold ssuTick
  cases hTE : (s.memory SSER).has TE with
  | true =>
    have hTDRE : (s.memory SSSR).has TDRE = true := by
      by_contra hn
      simp only [Bool.not_eq_true] at hn
      simp [transferMode_eq_some.mpr ⟨hn, hTE, rfl⟩] at h
    simp only [hTE, hTDRE, ↓reduceIte, ite_self]
  | false => simp only [both_enabled, hser, hTE, Bool.false_eq_true, ↓reduceIte, false_and]

/-- A tick on the devices is the steps of the stepping devices; reception
without transmission is an error. -/
theorem ssuTick_devices (s : Walker) :
    s.ssuTick.map devices =
      match s.transferMode with
      | some mode => s.devices.steps mode s.lcdDataPin (s.memory SSTDR) s.stepping
      | none =>
        if !(s.memory SSER).has TE && (s.memory SSER).has RE then .error s.devices
        else .ok s.devices := by
  cases hmode : s.transferMode with
  | none =>
    rw [ssuTick_idle hmode]
    cases (s.memory SSER).has TE <;> cases (s.memory SSER).has RE <;> rfl
  | some mode =>
    rw [ssuTick_transfer hmode]
    cases mode with
    | transmit => exact s.ssuTransmit_devices hmode
    | transmitReceive => exact s.ssuTransmitReceive_devices _ hmode

end Walker

end PokeStroller
