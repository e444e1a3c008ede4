import PokeStroller.Walker.Interrupts

/-!
# Loading images

`initializeWalkerImages`, `readImage` and `initWalkerFromFiles`. A path
argument comes with what the C library does on it, so that every way a call
can fail is a value. A `Char` of an error text stands for a byte.
-/

namespace PokeStroller

-- ---------------------------------------------------------------------------
-- Files
-- ---------------------------------------------------------------------------

/-- An opened file and the outcomes of the calls `readImage` makes on it. -/
structure File where
  content : List Byte
  seekFails : Bool := false
  tellFails : Bool := false
  /-- `fread` stops after this many bytes, if the file and the request allow. -/
  readLimit : Nat
  readError : Bool := false
  closeFails : Bool := false

inductive ImagePath
  | null
  | unopened (path strerror : String)
  | opened (path : String) (file : File)

def File.length (f : File) : Int := if f.tellFails then -1 else f.content.length

def File.read (f : File) (expected : Nat) : List Byte :=
  f.content.take (min f.readLimit expected)

/-- The `error` argument: `capacity` bytes holding a C string. -/
structure ErrorText where
  capacity : Nat
  text : String

def ErrorText.snprintf (error : ErrorText) (text : String) : ErrorText :=
  if error.capacity = 0 then error
  else { error with text := String.ofList (text.toList.take (error.capacity - 1)) }

def readImage (path : ImagePath) (expected : Nat) (allowFullMemoryDump : Bool)
    (error : ErrorText) : Option (Bytes expected) × ErrorText :=
  match path with
  | .null => (none, error.snprintf "Cannot open image: no path supplied")
  | .unopened path strerror => (none, error.snprintf s!"Cannot open {path}: {strerror}")
  | .opened path file =>
    if file.seekFails then (none, error.snprintf s!"Cannot read image size: {path}")
    else if file.length ≠ expected ∧ ¬ (allowFullMemoryDump ∧ file.length = MEM_SIZE) then
      let dump := if allowFullMemoryDump then " (or a 65536-byte memory dump)" else ""
      (none, error.snprintf s!"{path} has {file.length} bytes; expected {expected}{dump}.")
    else
      let bytes := file.read expected
      if bytes.length = expected ∧ ¬ file.readError ∧ ¬ file.closeFails then
        (some fun i => bytes.getD i.val 0, error)
      else (none, error.snprintf s!"Could not read the complete image: {path}")

-- ---------------------------------------------------------------------------
-- Initialisation
-- ---------------------------------------------------------------------------

def drainQueue : List Int → List Int
  | [] => []
  | _ :: rest => drainQueue rest

def memcpy (dst : Bytes n) (src : Bytes k) : Bytes n :=
  fun i => if h : i.val < k then src ⟨i.val, h⟩ else dst i

namespace Walker

def writeMemory8 (s : Walker) (address : BitVec 32) (value : Byte) : Walker :=
  { s with memory := setMemory8 s.memory address value }

def writeMemory16 (s : Walker) (address : BitVec 32) (value : BitVec 16) : Walker :=
  { s with memory := setMemory16 s.memory address value }

def initMemory (s : Walker) (rom : Bytes WALKER_ROM_SIZE) : Walker :=
  let cleared : Bytes MEM_SIZE := fun _ => 0
  { s with memory := fun a => memcpy cleared rom a.toFin }

/-- The device structs are cleared; their storage is overwritten separately. -/
def initDevices (s : Walker) (image : Bytes WALKER_EEPROM_SIZE) : Walker :=
  let s := { s with eeprom := { memory := s.eeprom.memory } }
  let s := { s with eeprom := { s.eeprom with memory := memcpy s.eeprom.memory image } }
  let s := { s with accel := { memory := s.accel.memory } }
  let s := { s with accel := { s.accel with memory := fun _ => 0 } }
  let chipId := Function.update s.accel.memory 0 0x2
  let s := { s with accel := { s.accel with memory := chipId } }
  let s := { s with lcd := { memory := s.lcd.memory } }
  let s := { s with lcd := { s.lcd with contrast := 20, state := .empty } }
  { s with lcd := { s.lcd with memory := fun _ => 0 } }

def initSsu (s : Walker) : Walker :=
  let s := { s with SSU := {} }
  let s := s.writeMemory8 (SSRDR.setWidth 32) 0x0
  let s := s.writeMemory8 (SSTDR.setWidth 32) 0x0
  let s := s.writeMemory8 (SSER.setWidth 32) 0x0
  s.writeMemory8 (SSSR.setWidth 32) 0x4

def initTimers (s : Walker) : Walker :=
  let s := { s with TimerB := { s.TimerB with on := false } }
  let s := s.writeMemory8 0xf0d0 0b00111000
  let s := s.writeMemory8 0xf0d1 0
  let s := { s with TimerB := { s.TimerB with TLBvalue := 0 }, TimerW := {} }
  let s := s.writeMemory8 0xf0f0 0b01001000
  let s := s.writeMemory8 0xf0f1 0
  let s := s.writeMemory8 0xf0f2 0b01110000
  let s := s.writeMemory8 0xf0f3 0b01110000
  let s := s.writeMemory8 0xf0f4 0b10001000
  let s := s.writeMemory8 0xf0f5 0b10001000
  let s := s.writeMemory16 TCNT_ADDRESS 0
  let s := s.writeMemory16 0xf0f8 0xffff
  let s := s.writeMemory16 0xf0fa 0xffff
  let s := s.writeMemory16 0xf0fc 0xffff
  -- both clock halt values go to 0xfffa
  let s := s.writeMemory8 0xfffa 0b00000011
  s.writeMemory8 0xfffa 0b00000100

def initInterrupts (s : Walker) : Walker :=
  let s := s.writeMemory8 0xfff3 0
  let s := s.writeMemory8 0xfff4 0
  let s := s.writeMemory8 0xfff6 0
  let s := s.writeMemory8 0xfff7 0
  let s := s.writeMemory8 0xf067 0
  { s with interruptSavedAddress := 0, interruptSavedFlags := {} }

/-- Every static is reset in place, over the state of the session before. -/
def initializeWalkerImages (s : Walker) (rom : Bytes WALKER_ROM_SIZE)
    (image : Bytes WALKER_EEPROM_SIZE) : Walker :=
  let s := { s with inputQueue := drainQueue s.inputQueue }
  let s := { s with sleep := false, subClockCyclesEllapsed := 0 }
  let s := ((s.initMemory rom).initDevices image).initSsu
  let s := { s with registers := fun _ => 0 }
  let s := { s with flags := {} }
  let s := s.initTimers.initInterrupts
  { s with quartersEllapsed := 0, pc := 0x02c4, initialized := true }

/-- `initWalkerFromFiles`: the status, the error text and the new state. -/
def initWalkerFromFiles (s : Walker) (romPath eepromPath : ImagePath) (error : ErrorText) :
    Bool × ErrorText × Walker :=
  let error := if error.capacity = 0 then error else { error with text := "" }
  match readImage romPath WALKER_ROM_SIZE true error with
  | (none, error) => (false, error, s)
  | (some rom, error) =>
    match readImage eepromPath WALKER_EEPROM_SIZE false error with
    | (none, error) => (false, error, s)
    | (some image, error) => (true, error, s.initializeWalkerImages rom image)

end Walker

end PokeStroller
