import PokeStroller.Lib.Bytes

/-!
# The emulator adapter

The run loop and the infrared transmit queue of emulator.cpp, around the core
in third_party/pocketwalker. The core is a parameter: what one `Cycle` of the
SoC does to its own state, the bytes for which it calls the transmit callback,
and the cycles it reports or the exception it throws. So is the floating-point
synthesis of a sample.
-/

namespace PokeStroller

def PW_CLOCK : Nat := 3686400
def PW_AUDIO_RATE : Nat := 32000
def PHI_CLK : Nat := 3686400
def PHI_W_CLK : Nat := 32000
def IR_QUEUE_SIZE : Nat := 65536

structure BuzzerInformation where
  /-- `PHI_W_CLK / GRA`, given by `GRA`; `none` is `0.0f`. -/
  frequency : Option (BitVec 16)
  is_full_volume : Bool

structure Core (σ τ : Type) where
  /-- `soc->Cycle()`, given the time `Now` returns. Each byte comes with the SoC
  as it is during the callback, which it stays if the callback throws. -/
  Cycle : BitVec 64 → σ → List (Byte × σ) × Except String Byte × σ
  -- the registers of timer W that the buzzer reads
  CTS : σ → Bool
  GRA : σ → BitVec 16
  GRB : σ → BitVec 16
  GRC : σ → BitVec 16
  /-- `phase`, `envelope` and `frequency` after a sample, and the sample. -/
  synthesize : BuzzerInformation → τ → τ × BitVec 16

/-- Every `Cycle` that does not throw takes time. -/
def Core.Advances (core : Core σ τ) : Prop :=
  ∀ now s calls elapsed t, core.Cycle now s = (calls, .ok elapsed, t) → 0 < elapsed.toNat

/-- The fields of `PWEmulator` that the run loop and the queues use, with the
count of its buzzer. -/
structure PWEmulator (σ τ : Type) where
  soc : σ
  sound : τ
  buzzer_cycles : BitVec 32 := 0
  audio : List (BitVec 16) := []
  ir : List Byte := []
  error : String := ""
  cycles : BitVec 64 := 0
  target : BitVec 64 := 0
  last_ir_cycle : BitVec 64 := 0
  clock_origin : BitVec 64 := -1

/-- What happens to bytes, and the time that passes. -/
inductive IrEvent
  /-- by the core, into the queue -/
  | emitted (byte : Byte)
  /-- by the core, with the queue full -/
  | overflow (byte : Byte)
  /-- reported by a `Cycle` -/
  | elapsed (cycles : Byte)
  /-- by a call of `pw_ir_transmit` -/
  | returned (bytes : List Byte)
  deriving DecidableEq, Repr

/-- An emulator and its history, which no operation reads. -/
structure Adapter (σ τ : Type) extends PWEmulator σ τ where
  log : List IrEvent := []

namespace Adapter

/-- The `Now` callback, given what `std::time` returns. -/
def Now (wall : BitVec 64) (pw : Adapter σ τ) : BitVec 64 :=
  if pw.clock_origin.slt 0 then wall
  else pw.clock_origin + pw.cycles / BitVec.ofNat 64 PW_CLOCK

def onTransmitIR (byte : Byte) (pw : Adapter σ τ) : Adapter σ τ × Option String :=
  if pw.ir.length = IR_QUEUE_SIZE then
    ({ pw with log := pw.log ++ [.overflow byte] }, some "IR transmit queue overflow")
  else
    ({ pw with
       ir := pw.ir ++ [byte], last_ir_cycle := pw.cycles, log := pw.log ++ [.emitted byte] }, none)

def transmitIR : List (Byte × σ) → Adapter σ τ → Adapter σ τ × Option String
  | [], pw => (pw, none)
  | (byte, soc) :: calls, pw =>
    match onTransmitIR byte { pw with soc := soc } with
    | (pw, some error) => (pw, some error)
    | (pw, none) => transmitIR calls pw

section

variable (core : Core σ τ)

def onSamplePushed (info : BuzzerInformation) (pw : Adapter σ τ) : Adapter σ τ :=
  let (sound, sample) := core.synthesize info pw.sound
  let audio := if pw.audio.length = PW_AUDIO_RATE / 2 then pw.audio.tail else pw.audio
  { pw with sound := sound, audio := audio ++ [sample] }

/-- The loop of `Buzzer::Cycle`, with its passes left. -/
def buzzerLoop : Nat → Adapter σ τ → Adapter σ τ
  | 0, pw => pw
  | passes + 1, pw =>
    if PHI_CLK ≤ pw.buzzer_cycles.toNat then
      let GRA := core.GRA pw.soc
      let info : BuzzerInformation :=
        { frequency := if core.CTS pw.soc ∧ 0 < GRA.toNat then some GRA else none
          is_full_volume := core.GRB pw.soc = core.GRC pw.soc }
      buzzerLoop passes (onSamplePushed core info
        { pw with buzzer_cycles := pw.buzzer_cycles - BitVec.ofNat 32 PHI_CLK })
    else pw

def buzzerCycle (cycles : Byte) (pw : Adapter σ τ) : Adapter σ τ :=
  let buzzer_cycles := pw.buzzer_cycles + cycles.setWidth 32 * BitVec.ofNat 32 PHI_W_CLK
  buzzerLoop core (buzzer_cycles.toNat / PHI_CLK) { pw with buzzer_cycles := buzzer_cycles }

/-- One pass of the loop of `pw_run`, with the exception that ends it. -/
def Cycle (wall : BitVec 64) (pw : Adapter σ τ) : Adapter σ τ × Option String :=
  match core.Cycle (pw.Now wall) pw.soc with
  | (calls, result, soc) =>
    match transmitIR calls pw with
    | (pw, some error) => (pw, some error)
    | (pw, none) =>
      match result with
      | .error error => ({ pw with soc := soc }, some error)
      | .ok elapsed =>
        (buzzerCycle core elapsed
          { pw with
            soc := soc, cycles := pw.cycles + elapsed.setWidth 64
            log := pw.log ++ [.elapsed elapsed] }, none)

/-- The loop, with what `std::time` returns in each pass; `none` if there are
more passes than that. -/
def runLoop : List (BitVec 64) → Adapter σ τ → Option (Adapter σ τ × Bool)
  | [], pw => if pw.cycles < pw.target then none else some (pw, true)
  | wall :: walls, pw =>
    if pw.cycles < pw.target then
      match pw.Cycle core wall with
      | (pw, some error) => some ({ pw with error := error }, false)
      | (pw, none) => runLoop walls pw
    else some (pw, true)

def pw_run (walls : List (BitVec 64)) (cycles : BitVec 32) (pw : Adapter σ τ) :
    Option (Adapter σ τ × Bool) :=
  if pw.error ≠ "" then some (pw, false)
  else runLoop core walls { pw with target := pw.target + cycles.setWidth 64 }

end

def drain (queue : List α) (capacity : Nat) : List α × List α :=
  let count := min queue.length capacity
  (queue.take count, queue.drop count)

def pw_audio (n : Nat) (pw : Adapter σ τ) : Adapter σ τ × List (BitVec 16) :=
  let (samples, audio) := drain pw.audio n
  ({ pw with audio := audio }, samples)

def pw_ir_transmit (n : Nat) (pw : Adapter σ τ) : Adapter σ τ × List Byte :=
  if pw.cycles - pw.last_ir_cycle < BitVec.ofNat 64 (PW_CLOCK / 4000) then
    ({ pw with log := pw.log ++ [.returned []] }, [])
  else
    let (bytes, ir) := drain pw.ir n
    ({ pw with ir := ir, log := pw.log ++ [.returned bytes] }, bytes)

end Adapter

end PokeStroller
