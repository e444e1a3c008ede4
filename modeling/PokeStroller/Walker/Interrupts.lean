import PokeStroller.Walker.Memory

/-!
# Input events, interrupts and timers

`setKeys`, the real-time clock events, the interrupt dispatch of
`runNextInstruction` and `runSubClock`.
-/

namespace PokeStroller

-- ---------------------------------------------------------------------------
-- The input queue
-- ---------------------------------------------------------------------------

def addElement (queue : List Int) (value : Int) : List Int := queue ++ [value]

/-- `popElement`: the head, 0 on the empty queue, and what is left. -/
def popElement : List Int → Int × List Int
  | [] => (0, [])
  | value :: rest => (value, rest)

def isEmpty (queue : List Int) : Bool := queue.isEmpty

namespace Walker

def orMemory (s : Walker) (address : BitVec 16) (bits : Byte) : Walker :=
  { s with memory := Function.update s.memory address (s.memory address ||| bits) }

/-- IRQ0 is requested only when unmasked; otherwise the press and a simulated
release are queued. -/
def setKeys (s : Walker) (input : Byte) : Walker :=
  if !s.flags.I && input.has ENTER then s.orMemory IRQ_IRR1 IRRI0
  else
    let queue := addElement (addElement s.inputQueue input.toNat) 0
    { s with inputQueue := queue, sleep := false }

def quarterRTCInterrupt (s : Walker) : Walker :=
  let s := s.orMemory RTCFLG SEIFG025
  let s := { s with quartersEllapsed := s.quartersEllapsed + 1 }
  let s := if s.quartersEllapsed % 2 = 0 then s.orMemory RTCFLG SEIFG05 else s
  if s.quartersEllapsed % 4 = 0 then s.orMemory RTCFLG SEIFG1 else s

-- ---------------------------------------------------------------------------
-- Interrupt entry
-- ---------------------------------------------------------------------------

def enterInterrupt (s : Walker) (vector : BitVec 16) : Walker :=
  { s with
    interruptSavedAddress := s.pc
    interruptSavedFlags := s.flags
    flags := { s.flags with I := true }
    pc := vector
    sleep := false }

/-- The dispatch after the instruction. RTC requests are looked at only when
IENRTC is set, and Timer B1 only when it is clear. -/
def interruptHandling (s : Walker) : Walker :=
  if s.flags.I then s
  else if (s.memory IRQ_IRR1).has IRRI0 && (s.memory IRQ_IENR1).has IEN0 then
    let s := s.enterInterrupt VECTOR_IRQ0
    { s with inputQueue := addElement (addElement s.inputQueue ENTER.toNat) 0 }
  else if (s.memory IRQ_IENR1).has IENRTC then
    if (s.memory RTCFLG).has SEIFG025 then s.enterInterrupt VECTOR_RTC_QUARTER_SEC
    else if (s.memory RTCFLG).has SEIFG05 then s.enterInterrupt VECTOR_RTC_HALF_SEC
    else if (s.memory RTCFLG).has SEIFG1 then s.enterInterrupt VECTOR_RTC_EVERY_SEC
    else s
  else if (s.memory IRQ_IRR2).has IRRTB1 && (s.memory IRQ_IENR2).has IENTB1 then
    s.enterInterrupt VECTOR_TIMER_B1
  else s

-- ---------------------------------------------------------------------------
-- The subclock
-- ---------------------------------------------------------------------------

def runTimerB (s : Walker) : Walker :=
  if s.TimerB.on && s.subClockCyclesEllapsed % 256 == 0 then
    let count := s.memory TCB1 + 1
    let s := { s with memory := Function.update s.memory TCB1 count }
    if count = 0 then
      let s := s.orMemory IRQ_IRR2 IRRTB1
      { s with memory := Function.update s.memory TCB1 s.TimerB.TLBvalue }
    else s
  else s

/-- TCNT equals GRA: clear, set IMFA, and enter the handler if it is enabled
and unmasked. -/
def compareMatchA (s : Walker) : Walker :=
  let s :=
    if (s.memory TCRW).has CCLR then { s with memory := setMemory16 s.memory TCNT_ADDRESS 0 }
    else s
  let s := s.orMemory TSRW 0x1
  if (s.memory TIERW).has 0x1 && !s.flags.I then s.enterInterrupt VECTOR_TIMER_W else s

def runTimerW (s : Walker) : Walker :=
  if s.TimerW.on then
    let s :=
      if (s.memory TMRW).has CTS then
        let count := getMemory16 s.memory TCNT_ADDRESS + 1
        { s with memory := setMemory16 s.memory TCNT_ADDRESS count }
      else s
    if getMemory16 s.memory TCNT_ADDRESS = getMemory16 s.memory 0xf0f8 then s.compareMatchA
    else s
  else s

/-- Both timers, and then the latches that start them on the next subclock. -/
def runSubClock (s : Walker) : Walker :=
  let s := s.runTimerB.runTimerW
  { s with
    TimerB := { s.TimerB with
      on := (s.memory CKSTPR1).has TB1CKSTP && (s.memory TMB1).has TMB_COUNTING }
    TimerW := { on := (s.memory CKSTPR2).has TWCKSTP && (s.memory TMRW).has CTS } }

end Walker

end PokeStroller
