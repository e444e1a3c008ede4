import PokeStroller.Walker.Execute
import PokeStroller.Walker.Interrupts
import PokeStroller.Walker.Ssu

/-!
# runNextInstruction

One call: unless the CPU sleeps, an instruction (or one of the hard-wired
skips, which return at once); then the interrupt dispatch; then two clock
cycles with the SSU on every 4th and the subclock on every 112th.
-/

namespace PokeStroller

namespace Walker

/-- The calls the emulator skips, which `return 0` before anything else. -/
def skipHook (s : Walker) : Option Walker :=
  if s.pc = 0x336 then some { s with pc := s.pc + 4 }
  else if s.pc = 0x350 then
    some { s with pc := s.pc + 4, registers := setReg8 s.registers 0x8 0 }
  else if s.pc = 0x7700 then some { s with pc := s.pc + 2 }
  else none

/-- At 0x9b84 the ROM reads the keys: pop an event into 0xffde. -/
def keyHook (s : Walker) : Walker :=
  if s.pc = 0x9b84 ∧ ¬ isEmpty s.inputQueue then
    let (value, queue) := popElement s.inputQueue
    { s with
      inputQueue := queue
      memory := setMemory8 s.memory 0xffde (BitVec.ofInt 8 value) }
  else s

/-- At 0x79b8 some watts are hacked in, after the fetch. -/
def wattsHook (s : Walker) : Walker :=
  if s.pc = 0x79b8 then { s with memory := setMemory16 s.memory 0xf78e STARTING_WATTS }
  else s

def fetch (s : Walker) : Instr :=
  let pc := s.pc.setWidth 32
  decode (getMemory16 s.memory pc) (getMemory16 s.memory (pc + 2))
    (getMemory16 s.memory (pc + 4))

/-- Deselected devices forget a transaction in progress. -/
def ssuCleanup (s : Walker) : Walker :=
  let s :=
    if s.accelSelected then s
    else
      let buffer := { s.accel.buffer with state := .gettingAddress, offset := 0 }
      { s with accel := { s.accel with buffer := buffer } }
  if s.eepromSelected then s
  else s.setEepromBuffer { s.eeprom.buffer with state := .empty, offset := 0 }

def opcodeSwitch (s : Walker) (i : Instr) : Outcome Fault Walker :=
  (execute s.interruptSavedAddress s.interruptSavedFlags s.toCpu i).map fun cpu =>
    { s with toCpu := cpu }

/-- The instruction part of a call: fetch, switch, SSU cleanup, `pc += 2`. -/
def instructionPhase (s : Walker) : Outcome Fault Walker :=
  let s := s.keyHook
  let i := s.fetch
  (s.wattsHook.opcodeSwitch i).andThen fun s =>
    let s := s.ssuCleanup
    .ok { s with pc := s.pc + 2 }

end Walker

namespace Machine

def clockCycle (m : Machine) : Outcome Fault Machine :=
  let m := { m with cycleCount := m.cycleCount + 1 }
  let ticked : Outcome Fault Machine :=
    if m.cycleCount % 4 = 0 then m.toWalker.ssuTick.map fun s => { m with toWalker := s }
    else .ok m
  ticked.andThen fun m =>
    if m.cycleCount %
        BitVec.ofNat 64 (SYSTEM_CLOCK_CYCLES_PER_SECOND / SUB_CLOCK_CYCLES_PER_SECOND) = 0 then
      let s := { m.toWalker with subClockCyclesEllapsed := m.subClockCyclesEllapsed + 1 }
      .ok { m with toWalker := s.runSubClock }
    else .ok m

def clockHandling (m : Machine) : Outcome Fault Machine :=
  m.clockCycle.andThen clockCycle

def finishCall (m : Machine) : Outcome Fault Machine :=
  { m with toWalker := m.toWalker.interruptHandling }.clockHandling

/-- `runNextInstruction(&cycleCount)`: `ok` is `return 0`, `error` is `return 1`. -/
def runNextInstruction (m : Machine) : Outcome Fault Machine :=
  if m.sleep then m.finishCall
  else match m.toWalker.skipHook with
    | some s => .ok { m with toWalker := s }
    | none =>
      (m.toWalker.instructionPhase.map fun s => { m with toWalker := s }).andThen finishCall

end Machine

end PokeStroller
