import PokeStroller.Walker.Memory

/-!
# The synchronous serial unit

One SSU tick, the body of `if ((*cycleCount % 4) == 0)`: the accelerometer,
the EEPROM and the LCD, selected by low pins on two ports, share the transmit
register, the status register and one progress counter.
-/

namespace PokeStroller

/-- `((hiAddress << 8) | loAddress) + offset`, an `int`. -/
def EepromBuffer.index (b : EepromBuffer) : Nat :=
  (b.hiAddress ++ b.loAddress).toNat + b.offset.toNat

def Lcd.memIndex (lcd : Lcd) : Nat :=
  lcd.currentPage.toNat * LCD_WIDTH * LCD_BYTES_PER_STRIPE +
    lcd.currentColumn.toNat * LCD_BYTES_PER_STRIPE + lcd.currentByte.toNat

def Lcd.command (lcd : Lcd) (byte : Byte) : Lcd :=
  match lcd.state with
  | .empty =>
    let n := byte.toNat
    if n ≤ 0x0f then
      { lcd with
        currentColumn := (byte &&& 0xf) ||| (lcd.currentColumn &&& 0xf0), currentByte := 0 }
    else if 0x10 ≤ n ∧ n ≤ 0x17 then
      { lcd with
        currentColumn := ((byte &&& 0b111) <<< 4) ||| (lcd.currentColumn &&& 0xf)
        currentByte := 0 }
    else if 0xb0 ≤ n ∧ n ≤ 0xbf then { lcd with currentPage := byte &&& 0xf }
    else if n = 0x81 then { lcd with state := .readingContrast }
    else lcd
  | .readingContrast => { lcd with contrast := byte, state := .empty }

namespace Walker

def setSSSR (s : Walker) (bits : Byte) : Walker :=
  { s with memory := Function.update s.memory SSSR (s.memory SSSR ||| bits) }

def setSSRDR (s : Walker) (value : Byte) : Walker :=
  { s with memory := Function.update s.memory SSRDR value }

/-- The pins select a device when they are low. -/
def accelSelected (s : Walker) : Bool := !(s.memory PORT9).has ACCEL_PIN
def eepromSelected (s : Walker) : Bool := !(s.memory PORT1).has EEPROM_PIN
def lcdSelected (s : Walker) : Bool := !(s.memory PORT1).has LCD_PIN
def lcdDataPin (s : Walker) : Bool := (s.memory PORT1).has LCD_DATA_PIN

/-- `SSU.progress += 1`, back to 0 at 7; `ssuOpFinished` on that tick. -/
def ssuProgress (s : Walker) (ssuOpFinished : Walker → Outcome Fault Walker) :
    Outcome Fault Walker :=
  let progress := s.SSU.progress + 1
  if progress = 7 then ssuOpFinished { s with SSU := { s.SSU with progress := 0 } }
  else .ok { s with SSU := { s.SSU with progress := progress } }

-- ---------------------------------------------------------------------------
-- Accelerometer
-- ---------------------------------------------------------------------------

def accelRead (s : Walker) : Outcome Fault Walker :=
  match s.accel.buffer.state with
  | .gettingAddress =>
    let buffer := { address := s.memory SSTDR &&& 0x0f, offset := 0, state := .gettingBytes }
    .ok ({ s with accel := { s.accel with buffer := buffer } }.setSSSR RDRF)
  | .gettingBytes =>
    let buffer := s.accel.buffer
    let index := buffer.address.toNat + buffer.offset.toNat
    match s.accel.memory.get? index with
    | none => .fault .accelIndex
    | some value =>
      let s := s.setSSRDR value
      let s := { s with accel := { s.accel with
        buffer := { buffer with offset := buffer.offset + 1 } } }
      .ok (((s.setSSSR RDRF).setSSSR TDRE).setSSSR TEND)

def accelWrite (s : Walker) : Outcome Fault Walker :=
  match s.accel.buffer.state with
  | .gettingAddress =>
    let buffer := { s.accel.buffer with address := s.memory SSTDR, state := .gettingBytes }
    .ok ({ s with accel := { s.accel with buffer := buffer } }.setSSSR RDRF)
  | .gettingBytes =>
    match s.accel.memory.set? s.accel.buffer.address.toNat (s.memory SSTDR) with
    | none => .fault .accelIndex
    | some memory =>
      let s := { s with accel := { s.accel with memory := memory } }
      .ok (((s.setSSSR RDRF).setSSSR TDRE).setSSSR TEND)

-- ---------------------------------------------------------------------------
-- EEPROM
-- ---------------------------------------------------------------------------

def setEepromBuffer (s : Walker) (buffer : EepromBuffer) : Walker :=
  { s with eeprom := { s.eeprom with buffer := buffer } }

def eepromReadStep (s : Walker) : Outcome Fault Walker :=
  let buffer := s.eeprom.buffer
  match buffer.state with
  | .empty =>
    match (s.memory SSTDR).toNat with
    | 0x3 => .ok (s.setEepromBuffer { buffer with state := .gettingAddressHi })
    | 0x5 => .ok (s.setEepromBuffer { buffer with state := .gettingStatusRegister })
    | _ => .ok s
  | .gettingStatusRegister => .ok ((s.setSSRDR s.eeprom.status).setSSSR TEND)
  | .gettingAddressHi =>
    .ok (s.setEepromBuffer { buffer with
      hiAddress := s.memory SSTDR, state := .gettingAddressLo })
  | .gettingAddressLo =>
    .ok (s.setEepromBuffer { buffer with loAddress := s.memory SSTDR, state := .gettingBytes })
  | .gettingBytes =>
    match s.eeprom.memory.get? buffer.index with
    | none => .fault .eepromIndex
    | some value =>
      let s := s.setSSRDR value
      .ok ((s.setEepromBuffer { buffer with offset := buffer.offset + 1 }).setSSSR TEND)

def eepromRead (s : Walker) : Outcome Fault Walker :=
  s.ssuProgress fun s => (eepromReadStep s).andThen fun s =>
    .ok ((s.setSSSR RDRF).setSSSR TDRE)

/-- The switch over the EEPROM state in the write path; its default case
(the status register state) returns 1. -/
def eepromWriteStep (s : Walker) : Outcome Fault Walker :=
  let buffer := s.eeprom.buffer
  match buffer.state with
  | .empty =>
    match (s.memory SSTDR).toNat with
    | 0x6 =>
      let s := { s with eeprom := { s.eeprom with status := s.eeprom.status ||| 0x2 } }
      .ok (s.setSSSR TEND)
    | 0x2 => .ok (s.setEepromBuffer { buffer with state := .gettingAddressHi })
    | _ => .ok s
  | .gettingAddressHi =>
    .ok (s.setEepromBuffer { buffer with
      hiAddress := s.memory SSTDR, state := .gettingAddressLo })
  | .gettingAddressLo =>
    .ok (s.setEepromBuffer { buffer with loAddress := s.memory SSTDR, state := .gettingBytes })
  | .gettingBytes =>
    match s.eeprom.memory.set? buffer.index (s.memory SSTDR) with
    | none => .fault .eepromIndex
    | some memory =>
      let offset := BitVec.ofNat 16 ((buffer.offset.toNat + 1) % EEPROM_PAGE_SIZE)
      let eeprom := { s.eeprom with memory := memory, buffer := { buffer with offset := offset } }
      .ok ({ s with eeprom := eeprom }.setSSSR TEND)
  | .gettingStatusRegister => .error s

def eepromWrite (s : Walker) : Outcome Fault Walker :=
  s.ssuProgress fun s => (eepromWriteStep s).andThen fun s => .ok (s.setSSSR TDRE)

-- ---------------------------------------------------------------------------
-- LCD
-- ---------------------------------------------------------------------------

/-- The data path, taken whenever the data pin is high. -/
def lcdData (s : Walker) : Outcome Fault Walker :=
  s.ssuProgress fun s =>
    match s.lcd.memory.set? s.lcd.memIndex (s.memory SSTDR) with
    | none => .fault .lcdAssertion
    | some memory =>
      let column :=
        if s.lcd.currentByte = 1 then s.lcd.currentColumn + 1 else s.lcd.currentColumn
      let lcd := { s.lcd with
        memory := memory
        currentColumn := column
        currentByte := (s.lcd.currentByte + 1) % 2 }
      .ok (({ s with lcd := lcd }.setSSSR TDRE).setSSSR TEND)

def lcdCommand (s : Walker) : Walker :=
  ({ s with lcd := s.lcd.command (s.memory SSTDR) }.setSSSR TDRE).setSSSR TEND

-- ---------------------------------------------------------------------------
-- One tick
-- ---------------------------------------------------------------------------

/-- Transmission and reception: at most one device answers. -/
def ssuTransmitReceive (s : Walker) : Outcome Fault Walker :=
  if s.accelSelected then s.accelRead
  else if s.eepromSelected then s.eepromRead
  else .ok s

/-- Transmission only: every device looks at the pins for itself. -/
def ssuTransmit (s : Walker) : Outcome Fault Walker :=
  (if s.accelSelected then s.accelWrite else .ok s).andThen fun s =>
  (if s.eepromSelected then s.eepromWrite else .ok s).andThen fun s =>
  if s.lcdDataPin then s.lcdData
  else if s.lcdSelected then .ok s.lcdCommand
  else .ok s

/-- The SSU part of the clock handling. `error` is its `return 1`. -/
def ssuTick (s : Walker) : Outcome Fault Walker :=
  let s := if (s.memory SSER).has TE then s else s.setSSSR TDRE
  if s.memory SSER &&& (TE ||| RE) = TE ||| RE then
    if (s.memory SSSR).has TDRE then .ok s else s.ssuTransmitReceive
  else if (s.memory SSER).has TE then
    if (s.memory SSSR).has TDRE then .ok s else s.ssuTransmit
  else if (s.memory SSER).has RE then .error s
  else .ok s

end Walker

end PokeStroller
