import PokeStroller.Adapter.Snapshot
import PokeStroller.Soc.Peripherals
import PokeStroller.Walker.State

/-!
# The state of the SoC

The fields of `H838606` and of what it consists of, with the peripherals that
emulator.cpp connects to its serial bus. A register is a byte; its named bits
are the fields of the union in the source.
-/

namespace PokeStroller.Soc

-- ---------------------------------------------------------------------------
-- Register bits
-- ---------------------------------------------------------------------------

namespace IENR1_t
def IEN0 : Nat := 0
def IEN1 : Nat := 1
def IENRTC : Nat := 7
end IENR1_t

namespace IENR2_t
def IENTB1 : Nat := 2
end IENR2_t

namespace IRR1_t
def IRRI0 : Nat := 0
def IRRI1 : Nat := 1
end IRR1_t

namespace IRR2_t
def IRRTB1 : Nat := 2
end IRR2_t

namespace RTCFLG_t
def SEIFG025 : Nat := 0
def SEIFG05 : Nat := 1
def SEIFG1 : Nat := 2
def MNIFG : Nat := 3
def HRIFG : Nat := 4
def DYIFG : Nat := 5
def WKIFG : Nat := 6
def FOIFG : Nat := 7
end RTCFLG_t

namespace RTCCR2_t
def SEIE025 : Nat := 0
def SEIE05 : Nat := 1
def SEIE1 : Nat := 2
def MNIE : Nat := 3
def HRIE : Nat := 4
def DYIE : Nat := 5
def WKIE : Nat := 6
def FOIE : Nat := 7
end RTCCR2_t

namespace TIERW_t
def IMIEA : Nat := 0
def OVIE : Nat := 7
end TIERW_t

namespace TSRW_t
def IMFA : Nat := 0
def OVF : Nat := 7
end TSRW_t

namespace SSSR_t
def RDRF : Nat := 1
def TDRE : Nat := 2
def TEND : Nat := 3
end SSSR_t

namespace SSER_t
def RE : Nat := 6
def TE : Nat := 7
end SSER_t

namespace PDRB_t
def PB0 : Nat := 0
def PB1 : Nat := 1
end PDRB_t

namespace SSR_t
def TEND : Nat := 2
def RDRF : Nat := 6
def TDRE : Nat := 7
end SSR_t

namespace SCR_t
def RE : Nat := 4
def TE : Nat := 5
end SCR_t

namespace IRCR_t
def IRE : Nat := 7
end IRCR_t

namespace TMB1_t
def CNT : Nat := 6
end TMB1_t

namespace TMRW_t
def CTS : Nat := 7
end TMRW_t

namespace TCRW_t
def CCLR : Nat := 7
end TCRW_t

namespace RTCCR1_t
def PM : Nat := 5
def HR24 : Nat := 6
def RUN : Nat := 7
end RTCCR1_t

namespace ADSR_t
def ADSF : Nat := 7
end ADSR_t

namespace CKSTPR1_t
def RTCCKSTP : Nat := 0
def TB1CKSTP : Nat := 2
def ADCKSTP : Nat := 4
def S3CKSTP : Nat := 6
end CKSTPR1_t

namespace CKSTPR2_t
def SSUCKSTP : Nat := 4
def TWCKSTP : Nat := 6
end CKSTPR2_t

-- ---------------------------------------------------------------------------
-- Devices
-- ---------------------------------------------------------------------------

/-- `SP` points to `registers[7]`. -/
structure CPU where
  PC : BitVec 16 := 0
  flags : Flags := {}
  registers : Registers := fun _ => 0
  sleep : Bool := false

structure Interrupts where
  IENR1 : Byte := 0
  IENR2 : Byte := 0
  IRR1 : Byte := 0
  IRR2 : Byte := 0
  RTCFLG : Byte := 0
  RTCCR2 : Byte := 0
  TIERW : Byte := 0
  TSRW : Byte := 0
  deriving DecidableEq, Repr

structure SSU where
  PDRB : Byte := 0
  PMRB : Byte := 0
  PFCR : Byte := 0
  SSMR : Byte := 0
  SSER : Byte := 0
  SSSR : Byte := 0
  SSRDR : Byte := 0
  SSTDR : Byte := 0
  ssu_cycles : BitVec 32 := 0
  deriving DecidableEq, Repr

structure SCI3 where
  SMR : Byte := 0
  SSR : Byte := 0
  SCR : Byte := 0
  IRCR : Byte := 0
  BRR : Byte := 0
  TDR : Byte := 0
  RDR : Byte := 0
  sci3_cycles : BitVec 32 := 0
  receive_queue : List Byte := []
  deriving DecidableEq, Repr

structure TimerB1 where
  TMB1 : Byte := 0
  TCB1 : Byte := 0
  TLB1 : Byte := 0
  timer_b1_cycles : BitVec 32 := 0
  deriving DecidableEq, Repr

/-- `TCNT` and `GRA` to `GRD` point into the IO memory. -/
structure TimerW where
  TMRW : Byte := 0
  TCRW : Byte := 0
  timer_w_cycles : BitVec 32 := 0
  deriving DecidableEq, Repr

/-- The fields of `std::tm` that the clock reads. -/
structure Tm where
  tm_sec : Nat := 0
  tm_min : Nat := 0
  tm_hour : Nat := 0
  tm_mday : Nat := 0
  tm_wday : Nat := 0
  deriving DecidableEq, Repr

structure RTC where
  RTCCR1 : Byte := 0
  RSECDR : Byte := 0
  RMINDR : Byte := 0
  RHRDR : Byte := 0
  RWKDR : Byte := 0
  rtc_cycles : BitVec 32 := 0
  quarters : Byte := 0
  initialized : Bool := false
  last_time : Tm := {}
  deriving DecidableEq, Repr

/-- `ADRR` points into the IO memory. -/
structure ADC where
  ADSR : Byte := 0
  AMR : Byte := 0
  deriving DecidableEq, Repr

structure StepSampleProvider where
  is_enabled : Bool := false
  deriving DecidableEq, Repr

-- ---------------------------------------------------------------------------
-- The whole
-- ---------------------------------------------------------------------------

/-- The addresses with handlers. -/
inductive IoRegister
  | IENR1
  | IENR2
  | IRR1
  | IRR2
  | RTCFLG
  | RTCCR2
  | TIERW
  | TSRW
  | SSTDR
  | SSRDR
  | SSSR
  | SSMR
  | SSER
  | PDRB
  | PMRB
  | PFCR
  | SMR
  | SCR
  | IRCR
  | BRR
  | SSR
  | TDR
  | RDR
  | TMB1
  | TCB1_TLB1
  | TMRW
  | TCRW
  | RTCCR1
  | RSECDR
  | RMINDR
  | RHRDR
  | RWKDR
  | ADSR
  | AMR
  | CKSTPR1
  | CKSTPR2
  deriving DecidableEq, Repr

/-- In the order in which they are registered. -/
inductive Peripheral
  | accelerometer
  | eeprom
  | lcd
  deriving DecidableEq, Repr

/-- What happens to bytes, at the registers, on the serial bus and at the
infrared queue. -/
inductive Event
  | read (r : IoRegister) (value : Byte)
  | write (r : IoRegister) (value : Byte)
  | receive (p : Peripheral) (data : Byte)
  | transmit (p : Peripheral) (data : Byte)
  | reset (p : Peripheral)
  /-- to the callback `on_transmit_ir`, when it has returned -/
  | transmitIR (data : Byte)
  /-- into the queue -/
  | receiveIR (data : Byte)
  /-- from the queue -/
  | takeIR (data : Byte)
  | clearIR
  deriving DecidableEq, Repr

abbrev IO_LOW_SIZE : Nat := 0xE0
abbrev IO_HIGH_SIZE : Nat := 0xE0

/-- The SoC and its peripherals, and their history, which no operation reads. -/
structure H838606 where
  rom : Bytes ROM_SIZE
  ram : Bytes RAM_SIZE := fun _ => 0
  io_low : Bytes IO_LOW_SIZE := fun _ => 0
  io_high : Bytes IO_HIGH_SIZE := fun _ => 0
  cpu : CPU := {}
  interrupts : Interrupts := {}
  ssu : SSU := {}
  sci3 : SCI3 := {}
  timer_b1 : TimerB1 := {}
  timer_w : TimerW := {}
  rtc : RTC := {}
  adc : ADC := {}
  CKSTPR1 : Byte := 0
  CKSTPR2 : Byte := 0
  accelerometer : BMA150 := {}
  steps : StepSampleProvider := {}
  eeprom : M95512
  lcd : SSD1854 := {}
  log : List Event := []

/-- The arrays of the memories and of the peripherals. -/
inductive HostArray
  | rom
  | ram
  | io_low
  | io_high
  /-- of the accelerometer -/
  | mem
  /-- of the LCD -/
  | vram
  deriving DecidableEq, Repr

/-- How an execution can end early. -/
inductive Fault
  /-- an exception, with its `what()` -/
  | exception (what : String)
  /-- an access outside an array, which has no defined effect -/
  | undefined (array : HostArray)
  deriving DecidableEq, Repr

/-- The text an execution ends with; an access outside an array may do anything, and
here it ends the execution too. -/
def Fault.what : Fault → String
  | exception what => what
  | undefined _ => "undefined"

abbrev Exec := EStateM Fault H838606

def record (e : Event) (s : H838606) : H838606 := { s with log := s.log ++ [e] }

end PokeStroller.Soc
