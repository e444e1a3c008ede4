import PokeStroller.Adapter.Model
import PokeStroller.Lib.Bits

/-!
# The peripherals of the serial bus

The EEPROM (m95512.cpp), the LCD (ssd1854.cpp) and the accelerometer
(bma150.cpp), each with what a byte from the bus does to it and what it answers.
-/

namespace PokeStroller.Soc

-- ---------------------------------------------------------------------------
-- M95512
-- ---------------------------------------------------------------------------

def M95512_CMD_WRITE_MEMORY : Byte := 0x2
def M95512_CMD_READ_MEMORY : Byte := 0x3
def M95512_CMD_READ_STATUS : Byte := 0x5
def M95512_CMD_WRITE_ENABLE : Byte := 0x6
def M95512_STATUS_WRITE_UNLOCK : Byte := 0b00000010

inductive M95512State
  | IDLE
  | ADDR_HIGH
  | ADDR_LOW
  | MEMORY
  | STATUS
  deriving DecidableEq, Repr

structure M95512 where
  eeprom : BitVec 16 → Byte
  state : M95512State := .IDLE
  is_reading : Bool := false
  status : Byte := 0
  high_addr : Byte := 0
  low_addr : Byte := 0
  offset : BitVec 16 := 0

namespace M95512

def address (m : M95512) : BitVec 16 := (m.high_addr ++ m.low_addr) + m.offset

def Receive (data : Byte) (m : M95512) : M95512 :=
  match m.state with
  | .IDLE =>
    if data = M95512_CMD_WRITE_MEMORY then { m with is_reading := false, state := .ADDR_HIGH }
    else if data = M95512_CMD_READ_MEMORY then { m with is_reading := true, state := .ADDR_HIGH }
    else if data = M95512_CMD_READ_STATUS then { m with state := .STATUS }
    else if data = M95512_CMD_WRITE_ENABLE then
      { m with status := m.status ||| M95512_STATUS_WRITE_UNLOCK, state := .IDLE }
    else m
  | .STATUS => m
  | .ADDR_HIGH => { m with high_addr := data, state := .ADDR_LOW }
  | .ADDR_LOW => { m with low_addr := data, state := .MEMORY }
  | .MEMORY =>
    if m.is_reading then m
    else
      { m with
        eeprom := Function.update m.eeprom m.address data
        offset := (m.offset + 1) % 128 }

def Transmit (m : M95512) : Byte × M95512 :=
  match m.state with
  | .MEMORY =>
    if m.is_reading then (m.eeprom m.address, { m with offset := m.offset + 1 }) else (0xFF, m)
  | .STATUS => (m.status, { m with state := .IDLE })
  | _ => (0xFF, m)

def Reset (m : M95512) : M95512 := { m with state := .IDLE, offset := 0 }

end M95512

-- ---------------------------------------------------------------------------
-- SSD1854
-- ---------------------------------------------------------------------------

def SSD1854_CMD_COL_LOW_MAX : Byte := 0xF
def SSD1854_CMD_COL_HIGH_MIN : Byte := 0x10
def SSD1854_CMD_COL_HIGH_MAX : Byte := 0x17
def SSD1854_CMD_SET_PAGE_OFFSET_MIN : Byte := 0x40
def SSD1854_CMD_SET_PAGE_OFFSET_MAX : Byte := 0x43
def SSD1854_CMD_SET_CONTRAST : Byte := 0x81
def SSD1854_CMD_POWER_SAVE_ON : Byte := 0xA9
def SSD1854_CMD_SET_PAGE_MIN : Byte := 0xB0
def SSD1854_CMD_SET_PAGE_MAX : Byte := 0xBF
def SSD1854_CMD_POWER_SAVE_OFF : Byte := 0xE1
def SSD1854_CMD_RESET : Byte := 0xE2

def SSD1854_COLUMN_SIZE : Nat := 2
def SSD1854_TOTAL_COLUMNS : Nat := 128
-- on 22 pages
abbrev SSD1854_MEM_SIZE : Nat := 5632

inductive SSD1854State
  | IDLE
  | SET_CONTRAST
  | SET_PAGE_OFFSET
  deriving DecidableEq, Repr

/-- The fields of `draw_info` come first. -/
structure SSD1854 where
  vram : Bytes SSD1854_MEM_SIZE := fun _ => 0
  page_offset : Byte := 0
  contrast : Byte := 20
  power_save_mode : Bool := false
  state : SSD1854State := .IDLE
  column : Byte := 0
  offset : Byte := 0
  page : Byte := 0
  is_data_mode : Bool := false

namespace SSD1854

/-- The callback of `OnInputPin`, for the pin `SSD1854_PIN_DC`. -/
def onInputPin (value : Bool) (lcd : SSD1854) : SSD1854 := { lcd with is_data_mode := value }

def HandleCommand (data : Byte) (lcd : SSD1854) : SSD1854 :=
  if data ≤ SSD1854_CMD_COL_LOW_MAX then
    { lcd with column := (lcd.column &&& 0xF0) ||| (data &&& 0x0F), offset := 0, state := .IDLE }
  else if SSD1854_CMD_COL_HIGH_MIN ≤ data ∧ data ≤ SSD1854_CMD_COL_HIGH_MAX then
    { lcd with
      column := (lcd.column &&& 0x0F) ||| ((data &&& 0b111) <<< 4), offset := 0, state := .IDLE }
  else if data = SSD1854_CMD_SET_CONTRAST then { lcd with state := .SET_CONTRAST }
  else if SSD1854_CMD_SET_PAGE_OFFSET_MIN ≤ data ∧ data ≤ SSD1854_CMD_SET_PAGE_OFFSET_MAX then
    { lcd with state := .SET_PAGE_OFFSET }
  else if SSD1854_CMD_SET_PAGE_MIN ≤ data ∧ data ≤ SSD1854_CMD_SET_PAGE_MAX then
    { lcd with page := data &&& 0xF, state := .IDLE }
  else if data = SSD1854_CMD_POWER_SAVE_ON then { lcd with power_save_mode := true, state := .IDLE }
  else if data = SSD1854_CMD_POWER_SAVE_OFF then
    { lcd with power_save_mode := false, state := .IDLE }
  else if data = SSD1854_CMD_RESET then
    { lcd with
      column := 0, offset := 0, page := 0, contrast := 20, page_offset := 0
      power_save_mode := false, state := .IDLE }
  else { lcd with state := .IDLE }

def address (lcd : SSD1854) : Nat :=
  (lcd.page.toNat * SSD1854_TOTAL_COLUMNS * SSD1854_COLUMN_SIZE +
    lcd.column.toNat * SSD1854_COLUMN_SIZE + lcd.offset.toNat) % 0x10000

def Receive (data : Byte) (lcd : SSD1854) : Option SSD1854 :=
  if lcd.is_data_mode then
    if SSD1854_TOTAL_COLUMNS ≤ lcd.column.toNat then some lcd
    else do
      let vram ← lcd.vram.set? lcd.address data
      return { lcd with
        vram := vram
        column := if lcd.offset = 1 then lcd.column + 1 else lcd.column
        offset := (lcd.offset + 1) % 2 }
  else
    match lcd.state with
    | .IDLE => some (lcd.HandleCommand data)
    | .SET_CONTRAST => some { lcd with contrast := data, state := .IDLE }
    | .SET_PAGE_OFFSET => some { lcd with page_offset := if 14 < data / 8 then 14 else data / 8, state := .IDLE }

def Transmit : Byte := 0xFF

end SSD1854

-- ---------------------------------------------------------------------------
-- BMA150
-- ---------------------------------------------------------------------------

def BMA150_ADDR_ACC_X_LSB : Byte := 0x02
def BMA150_ADDR_ACC_X_MSB : Nat := 0x03
def BMA150_ADDR_ACC_Y_MSB : Nat := 0x05
def BMA150_ADDR_ACC_Z_MSB : Nat := 0x07
def BMA150_ADDR_CONTROL_1 : Fin 0x80 := 0x0A
def BMA150_ADDR_RANGE_BW_REG : Fin 0x80 := 0x14

def BMA150_CLOCK_RATES (index : BitVec 3) : Nat :=
  [50, 100, 190, 375, 750, 1500, 3000, 3000][index.toNat]!

inductive BMA150State
  | IDLE
  | MEMORY
  deriving DecidableEq, Repr

/-- The constructor sets `*control1`. -/
structure BMA150 where
  mem : Bytes 0x80 := Function.update (fun _ => 0) BMA150_ADDR_CONTROL_1 1
  state : BMA150State := .IDLE
  is_reading : Bool := false
  register_index : Byte := 0
  cycle_count : BitVec 32 := 0
  offset : Byte := 0

namespace BMA150

def Receive (data : Byte) (a : BMA150) : Option BMA150 :=
  match a.state with
  | .IDLE =>
    some { a with
      is_reading := data.getLsbD 7, register_index := data &&& 0b01111111, offset := 0
      state := .MEMORY }
  | .MEMORY =>
    if a.is_reading then some a
    else (a.mem.set? a.register_index.toNat data).map fun mem => { a with mem := mem }

/-- The answer to a read begins with a sample of the provider. -/
def wantsSample (a : BMA150) : Bool :=
  a.is_reading && a.register_index == BMA150_ADDR_ACC_X_LSB && a.offset == 0

def setSample (x y z : Byte) (a : BMA150) : Option BMA150 := do
  let mem ← a.mem.set? BMA150_ADDR_ACC_X_MSB x
  let mem ← mem.set? BMA150_ADDR_ACC_Y_MSB y
  let mem ← mem.set? BMA150_ADDR_ACC_Z_MSB z
  return { a with mem := mem }

/-- `Transmit` after the sample. -/
def Transmit (a : BMA150) : Option (Byte × BMA150) :=
  if a.is_reading then
    (a.mem.get? (a.register_index.toNat + a.offset.toNat)).map
      (·, { a with offset := a.offset + 1 })
  else some (0xFF, a)

def Reset (a : BMA150) : BMA150 := { a with state := .IDLE, offset := 0 }

def Cycle (cycles : Byte) (a : BMA150) : BMA150 × Bool :=
  if (a.mem BMA150_ADDR_CONTROL_1).getLsbD 0 then (a, false)
  else
    let clock_rate := BMA150_CLOCK_RATES ((a.mem BMA150_ADDR_RANGE_BW_REG).setWidth 3)
    let cycle_count := a.cycle_count + cycles.setWidth 32
    if cycle_count.toNat < PHI_CLK / clock_rate then ({ a with cycle_count := cycle_count }, false)
    else
      ({ a with cycle_count := cycle_count - BitVec.ofNat 32 (PHI_CLK / clock_rate) }, true)

end BMA150

end PokeStroller.Soc
