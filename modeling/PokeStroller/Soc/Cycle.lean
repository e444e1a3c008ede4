import PokeStroller.Soc.Tables

/-!
# A cycle

`H838606::Cycle`: one instruction, the interrupts, and the devices whose clocks
are on, in the order of h838606.cpp.
-/

namespace PokeStroller.Soc

-- ---------------------------------------------------------------------------
-- The processor
-- ---------------------------------------------------------------------------

def CPU.advance (instruction : Instruction) : Exec Unit :=
  if instruction.branch_absolute then return
  else jumpBy (BitVec.ofNat 16 instruction.size)

def CPU.Cycle : Exec Byte := do
  if (← get).cpu.sleep then return 1
  else
    let instruction ← root.Decode
    instruction.execute
    CPU.advance instruction
    return BitVec.ofNat 8 instruction.cycles.Count

def CPU.Interrupt (vector_address : BitVec 16) : Exec Unit := do
  let target_pc ← Read16 vector_address
  if target_pc = 0xFFFF then return
  else
    Push16 (CCR (← get).cpu.flags ++ (0 : Byte))
    Push16 (← get).cpu.PC
    setCpu fun cpu => { cpu with PC := target_pc, flags.I := true, sleep := false }

-- ---------------------------------------------------------------------------
-- Interrupts
-- ---------------------------------------------------------------------------

def INTERRUPT_VECTOR_ADDR_IRQ0 : BitVec 16 := 0x0020
def INTERRUPT_VECTOR_ADDR_IRQ1 : BitVec 16 := 0x0022
def INTERRUPT_VECTOR_ADDR_RTC_QUARTER_SEC : BitVec 16 := 0x002E
def INTERRUPT_VECTOR_ADDR_RTC_HALF_SEC : BitVec 16 := 0x0030
def INTERRUPT_VECTOR_ADDR_RTC_SEC : BitVec 16 := 0x0032
def INTERRUPT_VECTOR_ADDR_RTC_MIN : BitVec 16 := 0x0034
def INTERRUPT_VECTOR_ADDR_RTC_HOUR : BitVec 16 := 0x0036
def INTERRUPT_VECTOR_ADDR_RTC_DAY : BitVec 16 := 0x0038
def INTERRUPT_VECTOR_ADDR_RTC_WEEK : BitVec 16 := 0x003A
def INTERRUPT_VECTOR_ADDR_RTC_FREE : BitVec 16 := 0x003C
def INTERRUPT_VECTOR_ADDR_TIMER_B1 : BitVec 16 := 0x0042
def INTERRUPT_VECTOR_ADDR_TIMER_W : BitVec 16 := 0x0046

namespace Interrupts

def rtc (i : Interrupts) (enable flag : Nat) : Bool :=
  i.IENR1.getLsbD IENR1_t.IENRTC && i.RTCCR2.getLsbD enable && i.RTCFLG.getLsbD flag

/-- The conditions of `Cycle`, in their order, each with its vector. -/
def branches (i : Interrupts) : List (Bool × BitVec 16) :=
  [(i.IENR1.getLsbD IENR1_t.IEN0 && i.IRR1.getLsbD IRR1_t.IRRI0, INTERRUPT_VECTOR_ADDR_IRQ0),
    (i.IENR1.getLsbD IENR1_t.IEN1 && i.IRR1.getLsbD IRR1_t.IRRI1, INTERRUPT_VECTOR_ADDR_IRQ1),
    (i.rtc RTCCR2_t.SEIE025 RTCFLG_t.SEIFG025, INTERRUPT_VECTOR_ADDR_RTC_QUARTER_SEC),
    (i.rtc RTCCR2_t.SEIE05 RTCFLG_t.SEIFG05, INTERRUPT_VECTOR_ADDR_RTC_HALF_SEC),
    (i.rtc RTCCR2_t.SEIE1 RTCFLG_t.SEIFG1, INTERRUPT_VECTOR_ADDR_RTC_SEC),
    (i.rtc RTCCR2_t.MNIE RTCFLG_t.MNIFG, INTERRUPT_VECTOR_ADDR_RTC_MIN),
    (i.rtc RTCCR2_t.HRIE RTCFLG_t.HRIFG, INTERRUPT_VECTOR_ADDR_RTC_HOUR),
    (i.rtc RTCCR2_t.DYIE RTCFLG_t.DYIFG, INTERRUPT_VECTOR_ADDR_RTC_DAY),
    (i.rtc RTCCR2_t.WKIE RTCFLG_t.WKIFG, INTERRUPT_VECTOR_ADDR_RTC_WEEK),
    (i.rtc RTCCR2_t.FOIE RTCFLG_t.FOIFG, INTERRUPT_VECTOR_ADDR_RTC_FREE),
    (i.IENR2.getLsbD IENR2_t.IENTB1 && i.IRR2.getLsbD IRR2_t.IRRTB1,
      INTERRUPT_VECTOR_ADDR_TIMER_B1),
    (i.TIERW.getLsbD TIERW_t.OVIE && i.TSRW.getLsbD TSRW_t.OVF, INTERRUPT_VECTOR_ADDR_TIMER_W),
    (i.TIERW.getLsbD TIERW_t.IMIEA && i.TSRW.getLsbD TSRW_t.IMFA, INTERRUPT_VECTOR_ADDR_TIMER_W)]

def pending (i : Interrupts) : Option (BitVec 16) := (i.branches.find? (·.1)).map (·.2)

def Cycle : Exec Unit := do
  let s ← get
  if s.cpu.flags.I then return
  else
    match s.interrupts.pending with
    | some vector => CPU.Interrupt vector
    | none => return

end Interrupts

-- ---------------------------------------------------------------------------
-- The serial bus
-- ---------------------------------------------------------------------------

def SSU_ADDR_PDR1 : BitVec 16 := 0xFFD4
def SSU_ADDR_PDR9 : BitVec 16 := 0xFFDC
def SSU_ADDR_PDRB : BitVec 16 := 0xFFDE

namespace Peripheral

def port_addr : Peripheral → BitVec 16
  | accelerometer => SSU_ADDR_PDR9
  | eeprom => SSU_ADDR_PDR1
  | lcd => SSU_ADDR_PDR1

def pin_index : Peripheral → Nat
  | accelerometer => 0
  | eeprom => 2
  | lcd => 0

def PW_ADDR_ACCEL_SAMPLE_COUNT : BitVec 16 := 0xF7AE
def PW_ADDR_IS_NOT_WALKING : BitVec 16 := 0xF8EF

def STEP_SINE_LUT (index : BitVec 3) : Byte := [0, 18, 26, 18, 0, -18, -26, -18][index.toNat]!

/-- `StepSampleProvider::GetSample`. -/
def GetSample : Exec (Byte × Byte × Byte) := do
  let sample_count ← Read8 PW_ADDR_ACCEL_SAMPLE_COUNT
  if sample_count = 0 then Write8 PW_ADDR_IS_NOT_WALKING 0
  let s := STEP_SINE_LUT (sample_count.setWidth 3)
  return (s, s.sshiftRight 1, 0)

/-- Where its data are; the EEPROM has as many bytes as there are addresses. -/
def array : Peripheral → HostArray
  | lcd => .vram
  | _ => .mem

def Receive (data : Byte) (s : H838606) : Peripheral → Option H838606
  | accelerometer => (s.accelerometer.Receive data).map ({ s with accelerometer := · })
  | eeprom => some { s with eeprom := s.eeprom.Receive data }
  | lcd => (s.lcd.Receive data).map ({ s with lcd := · })

def storeSample (x y z : Byte) : Exec Unit := do
  let s ← get
  let a ← checked .mem (s.accelerometer.setSample x y z)
  set { s with accelerometer := a }

/-- The sample that a reply of the accelerometer may begin with. -/
def sample : Peripheral → Exec Unit
  | accelerometer => do
    let s ← get
    if s.accelerometer.wantsSample && s.steps.is_enabled then
      let (x, y, z) ← GetSample
      storeSample x y z
  | _ => return

def reply (s : H838606) : Peripheral → Option (Byte × H838606)
  | accelerometer =>
    s.accelerometer.Transmit.map fun (data, a) => (data, { s with accelerometer := a })
  | eeprom => some (s.eeprom.Transmit.1, { s with eeprom := s.eeprom.Transmit.2 })
  | lcd => some (SSD1854.Transmit, s)

def Reset : Peripheral → H838606 → H838606
  | accelerometer, s => { s with accelerometer := s.accelerometer.Reset }
  | eeprom, s => { s with eeprom := s.eeprom.Reset }
  | lcd, s => s

end Peripheral

namespace SSU

def clock_rates (CKS : BitVec 3) : Nat := [256, 128, 64, 32, 16, 8, 4, 2][CKS.toNat]!

/-- The callback of `OnOutputPin` for `BMA150_PIN_INT`, which is bit 1 of port B. -/
def onOutputPin (value : Bool) : Exec Unit := do
  let port ← Read8 SSU_ADDR_PDRB
  Write8 SSU_ADDR_PDRB (withBit port PDRB_t.PB1 value)

/-- `BMA150::Cycle`, and whether it raises and lowers its pin. -/
def cycleAccelerometer (cycles : Byte) : Exec Bool := do
  let s ← get
  set { s with accelerometer := (s.accelerometer.Cycle cycles).1 }
  return (s.accelerometer.Cycle cycles).2

/-- The loop over the peripherals that lets time pass; the others have no `Cycle`. -/
def cyclePeripherals (cycles : Byte) : Exec Unit := do
  if ← cycleAccelerometer cycles then
    onOutputPin true
    onOutputPin false

/-- The bit of the port at which the data pin of the LCD is registered. -/
def input_pin_index : Nat := 1

/-- The loop over the input pins: only the LCD has one. -/
def inputPins (p : Peripheral) : Exec Unit := do
  if p = .lcd then
    let pin_port ← Read8 SSU_ADDR_PDR1
    modify fun s => { s with lcd := s.lcd.onInputPin (pin_port.getLsbD input_pin_index) }

/-- The loop of `ActivePeripheral`. -/
def selectAmong : List Peripheral → Exec (Option Peripheral)
  | [] => return none
  | p :: ps => do
    let port ← Read8 p.port_addr
    if port.getLsbD p.pin_index then
      modify fun s => record (.reset p) (p.Reset s)
      selectAmong ps
    else
      inputPins p
      return some p

def ActivePeripheral : Exec (Option Peripheral) := selectAmong [.accelerometer, .eeprom, .lcd]

def transmitted (p : Peripheral) (data : Byte) (s : H838606) : H838606 :=
  record (.receive p data)
    { s with ssu.SSSR := withBit (withBit s.ssu.SSSR SSSR_t.TDRE true) SSSR_t.TEND false }

def transmitByte (p : Peripheral) : Exec Unit := do
  let s ← get
  if s.ssu.SSER.getLsbD SSER_t.TE then
    if s.ssu.SSSR.getLsbD SSSR_t.TDRE then
      set { s with ssu.SSSR := withBit s.ssu.SSSR SSSR_t.TEND true }
    else
      let t ← checked p.array (p.Receive s.ssu.SSTDR s)
      set (transmitted p s.ssu.SSTDR t)

def received (p : Peripheral) (data : Byte) (s : H838606) : H838606 :=
  record (.transmit p data)
    { s with ssu.SSRDR := data, ssu.SSSR := withBit s.ssu.SSSR SSSR_t.RDRF true }

/-- `SSRDR = peripheral->Transmit()` after the sample. -/
def answer (p : Peripheral) : Exec Unit := do
  let s ← get
  let reply ← checked p.array (p.reply s)
  set (received p reply.1 reply.2)

def receiveByte (p : Peripheral) : Exec Unit := do
  let s ← get
  if s.ssu.SSER.getLsbD SSER_t.RE && !s.ssu.SSSR.getLsbD SSSR_t.RDRF then
    p.sample
    answer p

def tick : Exec Unit := do
  match ← ActivePeripheral with
  | none => return
  | some p =>
    transmitByte p
    receiveByte p

def Cycle (cycles : Byte) : Exec Unit := do
  cyclePeripherals cycles
  let s ← get
  let ssu_cycles := s.ssu.ssu_cycles + cycles.setWidth 32
  let clock_rate := clock_rates (s.ssu.SSMR.setWidth 3)
  if ssu_cycles.toNat < clock_rate then set { s with ssu.ssu_cycles := ssu_cycles }
  else
    set { s with ssu.ssu_cycles := ssu_cycles - BitVec.ofNat 32 clock_rate }
    tick

end SSU

-- ---------------------------------------------------------------------------
-- Infrared
-- ---------------------------------------------------------------------------

def IR_RECEIVE_QUEUE_SIZE : Nat := 65536

namespace SCI3

/-- Ten bits of `32 * (BRR + 1) * 4^CKS` clocks. -/
def clock_rate (sci3 : SCI3) : Nat :=
  10 * 32 * (sci3.BRR.toNat + 1) * 2 ^ (2 * (sci3.SMR.setWidth 2).toNat)

def transmitted (s : H838606) : H838606 :=
  record (.transmitIR s.sci3.TDR)
    { s with sci3.SSR := withBit (withBit s.sci3.SSR SSR_t.TDRE true) SSR_t.TEND true }

def transmitByte : Exec (List (Byte × H838606)) := do
  let s ← get
  if s.sci3.SCR.getLsbD SCR_t.TE then
    if s.sci3.SSR.getLsbD SSR_t.TDRE then
      set { s with sci3.SSR := withBit s.sci3.SSR SSR_t.TEND true }
      return []
    else if s.sci3.IRCR.getLsbD IRCR_t.IRE then
      set (transmitted s)
      return [(s.sci3.TDR, s)]
    else throw (.exception "Unimplemented SCI3 TXD Transmit")
  else return []

def received (data : Byte) (rest : List Byte) (s : H838606) : H838606 :=
  record (.takeIR data)
    { s with
      sci3.RDR := data
      sci3.receive_queue := rest
      sci3.SSR := withBit s.sci3.SSR SSR_t.RDRF true }

def receiveByte : Exec Unit := do
  let s ← get
  if s.sci3.SCR.getLsbD SCR_t.RE && !s.sci3.SSR.getLsbD SSR_t.RDRF then
    match s.sci3.receive_queue with
    | [] => return
    | data :: rest =>
      if s.sci3.IRCR.getLsbD IRCR_t.IRE then set (received data rest s)
      else throw (.exception "Unimplemented SCI3 RXD Receive")

def tick : Exec (List (Byte × H838606)) := do
  let calls ← transmitByte
  receiveByte
  return calls

def Cycle (cycles : Byte) : Exec (List (Byte × H838606)) := do
  let s ← get
  let sci3_cycles := s.sci3.sci3_cycles + cycles.setWidth 32
  if s.sci3.clock_rate ≤ sci3_cycles.toNat then
    set { s with sci3.sci3_cycles := sci3_cycles - BitVec.ofNat 32 s.sci3.clock_rate }
    tick
  else
    set { s with sci3.sci3_cycles := sci3_cycles }
    return []

def queued (data : Byte) (s : H838606) : H838606 :=
  record (.receiveIR data) { s with sci3.receive_queue := s.sci3.receive_queue ++ [data] }

def ReceiveIR (data : Byte) : Exec Unit := do
  let s ← get
  if s.sci3.IRCR.getLsbD IRCR_t.IRE then
    if IR_RECEIVE_QUEUE_SIZE ≤ s.sci3.receive_queue.length then
      throw (.exception "IR receive queue overflow")
    else set (queued data s)

end SCI3

-- ---------------------------------------------------------------------------
-- Timers
-- ---------------------------------------------------------------------------

namespace TimerB1

def clock_rates (CKS : BitVec 3) : Nat :=
  [8192, 2048, 256, 64, 16, 4, PHI_CLK / PHI_W_CLK * 1024, PHI_CLK / PHI_W_CLK * 256][CKS.toNat]!

/-- `TCB1`, and whether it overflows. -/
def count (t : TimerB1) : TimerB1 × Bool :=
  if t.TCB1 = 0xFF then ({ t with TCB1 := t.TLB1 }, true)
  else ({ t with TCB1 := t.TCB1 + 1 }, false)

def Cycle (cycles : Byte) (s : H838606) : H838606 :=
  if s.timer_b1.TMB1.getLsbD TMB1_t.CNT then
    let t := { s.timer_b1 with
      timer_b1_cycles := s.timer_b1.timer_b1_cycles + cycles.setWidth 32 }
    let clock_rate := clock_rates (t.TMB1.setWidth 3)
    if clock_rate ≤ t.timer_b1_cycles.toNat then
      let t := { t with timer_b1_cycles := t.timer_b1_cycles - BitVec.ofNat 32 clock_rate }
      let (t, overflow) := t.count
      let s := { s with timer_b1 := t }
      if overflow then
        { s with interrupts.IRR2 := withBit s.interrupts.IRR2 IRR2_t.IRRTB1 true }
      else s
    else { s with timer_b1 := t }
  else s

end TimerB1

/-- A word of the IO memory, behind the handlers: `Ptr16` with an `h8300h_ptr`. -/
def ioWord (io : Bytes n) (i : Fin n) (j : Fin n) : BitVec 16 := io i ++ io j

def setIoWord (io : Bytes n) (i j : Fin n) (value : BitVec 16) : Bytes n :=
  Function.update (Function.update io i (value.extractLsb' 8 8)) j (value.extractLsb' 0 8)

namespace TimerW

def clock_rates (CKS : BitVec 3) : Nat :=
  [1, 2, 4, 8, PHI_CLK / PHI_W_CLK, PHI_CLK / PHI_W_CLK * 4, PHI_CLK / PHI_W_CLK * 16,
    0][CKS.toNat]!

-- The words at 0xF0F6 to 0xF0FC.
def TCNT (s : H838606) : BitVec 16 := ioWord s.io_low 0xD6 0xD7
def GRA (s : H838606) : BitVec 16 := ioWord s.io_low 0xD8 0xD9
def GRB (s : H838606) : BitVec 16 := ioWord s.io_low 0xDA 0xDB
def GRC (s : H838606) : BitVec 16 := ioWord s.io_low 0xDC 0xDD

def setTCNT (value : BitVec 16) (s : H838606) : H838606 :=
  { s with io_low := setIoWord s.io_low 0xD6 0xD7 value }

def request (flag : Nat) (s : H838606) : H838606 :=
  { s with interrupts.TSRW := withBit s.interrupts.TSRW flag true }

def count (s : H838606) : H838606 :=
  if TCNT s = 0xFFFF then request TSRW_t.OVF (setTCNT 0 s) else setTCNT (TCNT s + 1) s

def compareA (s : H838606) : H838606 :=
  if GRA s ≤ TCNT s then
    request TSRW_t.IMFA (if s.timer_w.TCRW.getLsbD TCRW_t.CCLR then setTCNT 0 s else s)
  else s

def Cycle (cycles : Byte) (s : H838606) : H838606 :=
  if s.timer_w.TMRW.getLsbD TMRW_t.CTS then
    let timer_w_cycles := s.timer_w.timer_w_cycles + cycles.setWidth 32
    let clock_rate := clock_rates (s.timer_w.TCRW.extractLsb' 4 3)
    if clock_rate ≤ timer_w_cycles.toNat then
      compareA <| count
        { s with timer_w.timer_w_cycles := timer_w_cycles - BitVec.ofNat 32 clock_rate }
    else { s with timer_w.timer_w_cycles := timer_w_cycles }
  else s

end TimerW

-- ---------------------------------------------------------------------------
-- The clock and the converter
-- ---------------------------------------------------------------------------

def BCD (number : Nat) : Byte :=
  let number : Byte := BitVec.ofNat 8 number
  number / 10 * 16 + number % 10

namespace RTC

def setTime (now : Tm) (rtc : RTC) : RTC :=
  { rtc with
    RSECDR := BCD now.tm_sec
    RMINDR := BCD now.tm_min
    RHRDR := BCD (if rtc.RTCCR1.getLsbD RTCCR1_t.HR24 then now.tm_hour else now.tm_hour % 12)
    RWKDR := BCD now.tm_wday
    RTCCR1 := withBit rtc.RTCCR1 RTCCR1_t.PM (12 ≤ now.tm_hour)
    last_time := if rtc.initialized then rtc.last_time else now
    initialized := true
    quarters := rtc.quarters + 1 }

/-- The flags that the fourth quarter sets, each with its condition. -/
def changes (now last : Tm) : List (Bool × Nat) :=
  [(now.tm_sec != last.tm_sec, RTCFLG_t.SEIFG1), (now.tm_min != last.tm_min, RTCFLG_t.MNIFG),
    (now.tm_hour != last.tm_hour, RTCFLG_t.HRIFG), (now.tm_mday != last.tm_mday, RTCFLG_t.DYIFG),
    (now.tm_wday != last.tm_wday, RTCFLG_t.WKIFG)]

def setFlags (flags : List (Bool × Nat)) (RTCFLG : Byte) : Byte :=
  flags.foldl (fun RTCFLG (set, flag) => if set then withBit RTCFLG flag true else RTCFLG) RTCFLG

def quarter (now : Tm) (s : H838606) : H838606 :=
  let rtc := s.rtc.setTime now
  let RTCFLG := withBit s.interrupts.RTCFLG RTCFLG_t.SEIFG025 true
  let RTCFLG := if rtc.quarters % 2 = 0 then withBit RTCFLG RTCFLG_t.SEIFG05 true else RTCFLG
  if rtc.quarters % 4 = 0 then
    { s with
      rtc := { rtc with quarters := 0, last_time := now }
      interrupts.RTCFLG := setFlags (changes now rtc.last_time) RTCFLG }
  else { s with rtc := rtc, interrupts.RTCFLG := RTCFLG }

/-- `now` is what `localtime_r` makes of what `Now` returns. -/
def Cycle (now : Tm) (cycles : Byte) (s : H838606) : H838606 :=
  if s.rtc.RTCCR1.getLsbD RTCCR1_t.RUN then
    let rtc_cycles := s.rtc.rtc_cycles + cycles.setWidth 32
    if PHI_CLK / 4 ≤ rtc_cycles.toNat then
      quarter now { s with rtc.rtc_cycles := rtc_cycles - BitVec.ofNat 32 (PHI_CLK / 4) }
    else { s with rtc.rtc_cycles := rtc_cycles }
  else s

end RTC

def ADC_READ_CONST : BitVec 16 := 0b1111111111

/-- `ADC::Cycle`; `ADRR` is the word at 0xFFBC. -/
def ADC.Cycle (s : H838606) : H838606 :=
  if s.adc.ADSR.getLsbD ADSR_t.ADSF then
    { s with
      io_high := setIoWord s.io_high 0x3C 0x3D (ADC_READ_CONST <<< 6)
      adc.ADSR := withBit s.adc.ADSR ADSR_t.ADSF false }
  else s

-- ---------------------------------------------------------------------------
-- The whole
-- ---------------------------------------------------------------------------

/-- The devices after the infrared interface, none of which throws. -/
def H838606.lateDevices (now : Tm) (cycles : Byte) (s : H838606) : H838606 :=
  let s := if s.CKSTPR1.getLsbD CKSTPR1_t.TB1CKSTP then TimerB1.Cycle cycles s else s
  let s := if s.CKSTPR2.getLsbD CKSTPR2_t.TWCKSTP then TimerW.Cycle cycles s else s
  let s := if s.CKSTPR1.getLsbD CKSTPR1_t.RTCCKSTP then RTC.Cycle now cycles s else s
  if s.CKSTPR1.getLsbD CKSTPR1_t.ADCKSTP then ADC.Cycle s else s

def H838606.ssuCycle (cycles : Byte) : Exec Unit := do
  if (← get).CKSTPR2.getLsbD CKSTPR2_t.SSUCKSTP then SSU.Cycle cycles

def H838606.sci3Cycle (cycles : Byte) : Exec (List (Byte × H838606)) := do
  if (← get).CKSTPR1.getLsbD CKSTPR1_t.S3CKSTP then SCI3.Cycle cycles else return []

/-- `H838606::Cycle`, with the calls of `on_transmit_ir`. -/
def H838606.Cycle (now : Tm) : Exec (Byte × List (Byte × H838606)) := do
  let cycles ← CPU.Cycle
  Interrupts.Cycle
  H838606.ssuCycle cycles
  let calls ← H838606.sci3Cycle cycles
  modify (H838606.lateDevices now cycles)
  return (cycles, calls)

end PokeStroller.Soc
