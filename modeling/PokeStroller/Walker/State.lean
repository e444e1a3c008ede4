import PokeStroller.Lib.Bytes
import PokeStroller.Lib.Outcome

/-!
# The state of the walker

The static variables of walker.c and the constants of definitions.h and
walker.h. Pointers into `memory` (`SSU.SSSR`, `IRQ_IRR1`, ...) are set once by
the loader and never moved, so they appear as the addresses they point to.
The host is little-endian: `RL[i]` is the lowest byte of `registers[i]`.
-/

namespace PokeStroller

abbrev Memory := BitVec 16 → Byte

-- ---------------------------------------------------------------------------
-- definitions.h and walker.h
-- ---------------------------------------------------------------------------

def STARTING_WATTS : BitVec 16 := 50

def VECTOR_TIMER_B1 : BitVec 16 := 0x06fa
def VECTOR_TIMER_W : BitVec 16 := 0x3a4a
def VECTOR_IRQ0 : BitVec 16 := 0xa300
def VECTOR_RTC_QUARTER_SEC : BitVec 16 := 0xa65e
def VECTOR_RTC_HALF_SEC : BitVec 16 := 0xa674
def VECTOR_RTC_EVERY_SEC : BitVec 16 := 0xa682

def PORT1 : BitVec 16 := 0xffd4
def PORT9 : BitVec 16 := 0xffdc

def SSER : BitVec 16 := 0xf0e3
def SSSR : BitVec 16 := 0xf0e4
def SSRDR : BitVec 16 := 0xf0e9
def SSTDR : BitVec 16 := 0xf0eb

/-- Receive data register full. -/
def RDRF : Byte := 1 <<< 1
/-- Transmit data register empty. -/
def TDRE : Byte := 1 <<< 2
/-- Transmit end. -/
def TEND : Byte := 1 <<< 3
/-- Transmission enabled. -/
def TE : Byte := 0x80
/-- Reception enabled. -/
def RE : Byte := 0x40

def EEPROM_PAGE_SIZE : Nat := 128
def EEPROM_PIN : Byte := 0x4
def ACCEL_PIN : Byte := 0x1
def LCD_PIN : Byte := 0x1
def LCD_DATA_PIN : Byte := 0x2

def LCD_WIDTH : Nat := 96
def LCD_HEIGHT : Nat := 64
def LCD_BUFFER_SEPARATION : Nat := 16
def LCD_BYTES_PER_STRIPE : Nat := 2
-- 128 x 176 pixels, 4 in a byte
abbrev LCD_MEM_SIZE : Nat := 5632

def TMB1 : BitVec 16 := 0xf0d0
def TCB1 : BitVec 16 := 0xf0d1
def TMB_COUNTING : Byte := 1 <<< 6
def TMRW : BitVec 16 := 0xf0f0
def TCRW : BitVec 16 := 0xf0f1
def TIERW : BitVec 16 := 0xf0f2
def TSRW : BitVec 16 := 0xf0f3
def TCNT_ADDRESS : BitVec 32 := 0xf0f6
def CTS : Byte := 1 <<< 7
def CCLR : Byte := 1 <<< 7

def IRQ_IENR1 : BitVec 16 := 0xfff3
def IRQ_IENR2 : BitVec 16 := 0xfff4
def IRQ_IRR1 : BitVec 16 := 0xfff6
def IRQ_IRR2 : BitVec 16 := 0xfff7
def RTCFLG : BitVec 16 := 0xf067
def IEN0 : Byte := 1 <<< 0
def IENRTC : Byte := 1 <<< 7
def IENTB1 : Byte := 1 <<< 2
def IRRI0 : Byte := 1 <<< 0
def IRRTB1 : Byte := 1 <<< 2
/-- `_025SEIFG`, `_05SEIFG` and `_1SEIFG`, the periodic RTC requests. -/
def SEIFG025 : Byte := 1 <<< 0
def SEIFG05 : Byte := 1 <<< 1
def SEIFG1 : Byte := 1 <<< 2

def CKSTPR1 : BitVec 16 := 0xfffa
def CKSTPR2 : BitVec 16 := 0xfffb
def TB1CKSTP : Byte := 1 <<< 2
def TWCKSTP : Byte := 1 <<< 6

def SYSTEM_CLOCK_CYCLES_PER_SECOND : Nat := 3686400
def SUB_CLOCK_CYCLES_PER_SECOND : Nat := 32768

/-- Input events are `int`s; the three keys are bits of a byte. -/
def ENTER : Byte := 1 <<< 0
def LEFT : Byte := 1 <<< 2
def RIGHT : Byte := 1 <<< 4

abbrev WALKER_ROM_SIZE : Nat := 49152
abbrev WALKER_EEPROM_SIZE : Nat := 65536
abbrev MEM_SIZE : Nat := 65536

-- ---------------------------------------------------------------------------
-- Registers and devices
-- ---------------------------------------------------------------------------

structure Flags where
  I : Bool := false
  UI : Bool := false
  H : Bool := false
  U : Bool := false
  N : Bool := false
  Z : Bool := false
  V : Bool := false
  C : Bool := false
  deriving DecidableEq, Repr

abbrev Registers := BitVec 3 → BitVec 32

structure TimerB where
  on : Bool := false
  TLBvalue : Byte := 0
  deriving DecidableEq, Repr

structure TimerW where
  on : Bool := false
  deriving DecidableEq, Repr

structure SSU where
  SSTRSR : Byte := 0
  /-- Counts the ticks of the current byte, 0 to 6. -/
  progress : Byte := 0
  deriving DecidableEq, Repr

inductive EepromState
  | empty
  | gettingStatusRegister
  | gettingAddressHi
  | gettingAddressLo
  | gettingBytes
  deriving DecidableEq, Repr

structure EepromBuffer where
  hiAddress : Byte := 0
  loAddress : Byte := 0
  state : EepromState := .empty
  offset : BitVec 16 := 0
  deriving DecidableEq, Repr

structure Eeprom where
  memory : Bytes WALKER_EEPROM_SIZE := fun _ => 0
  status : Byte := 0
  buffer : EepromBuffer := {}

inductive AccelState
  | gettingAddress
  | gettingBytes
  deriving DecidableEq, Repr

structure AccelBuffer where
  address : Byte := 0
  offset : Byte := 0
  state : AccelState := .gettingAddress
  deriving DecidableEq, Repr

structure Accelerometer where
  memory : Bytes 29 := fun _ => 0
  buffer : AccelBuffer := {}

inductive LcdState
  | empty
  | readingContrast
  deriving DecidableEq, Repr

structure Lcd where
  memory : Bytes LCD_MEM_SIZE := fun _ => 0
  contrast : Byte := 0
  state : LcdState := .empty
  currentColumn : Byte := 0
  currentPage : Byte := 0
  currentByte : Byte := 0
  currentBuffer : Bool := false

/-- The part of the state an instruction body of the opcode switch can write. -/
structure Cpu where
  registers : Registers := fun _ => 0
  flags : Flags := {}
  pc : BitVec 16 := 0
  memory : Memory := fun _ => 0
  sleep : Bool := false
  TimerB : TimerB := {}

/-- The static variables of walker.c. The defaults are C's zero
initialisation, the state before anything is loaded. -/
structure Walker extends Cpu where
  inputQueue : List Int := []
  quartersEllapsed : Byte := 0
  subClockCyclesEllapsed : BitVec 64 := 0
  TimerW : TimerW := {}
  interruptSavedAddress : BitVec 16 := 0
  interruptSavedFlags : Flags := {}
  SSU : SSU := {}
  accel : Accelerometer := {}
  eeprom : Eeprom := {}
  lcd : Lcd := {}
  initialized : Bool := false

/-- The walker and the cycle counter its host keeps for it. -/
structure Machine extends Walker where
  cycleCount : BitVec 64 := 0

/-- Operations after which C defines no next state, and the LCD assertion. -/
inductive Fault
  | accelIndex
  | eepromIndex
  | lcdAssertion
  | divisionByZero
  | divisionOverflow
  | shiftCount
  deriving DecidableEq, Repr

end PokeStroller
