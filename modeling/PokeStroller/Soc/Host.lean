import PokeStroller.Frontend.WalkerApp
import PokeStroller.Soc.Cycle

/-!
# The emulator API on the SoC

What emulator.cpp does with the core: the core of the run loop, and the functions
that reach into the SoC. The host's `localtime_r` is a parameter.
-/

namespace PokeStroller.Soc

-- ---------------------------------------------------------------------------
-- Creation
-- ---------------------------------------------------------------------------

/-- The SoC that the constructor of `PWEmulator` connects; the processor starts at
its reset vector. -/
def H838606.reset (rom : Bytes ROM_SIZE) (data : BitVec 16 → Byte) : H838606 where
  rom := rom
  eeprom := { eeprom := data }
  cpu := { PC := rom ⟨0, by decide⟩ ++ rom ⟨1, by decide⟩ }

def fingerprint (rom : List Byte) : BitVec 64 :=
  rom.foldl (fun fingerprint byte => (fingerprint ^^^ byte.setWidth 64) * 1099511628211)
    14695981039346656037

def PW_ROM_SIZE : Nat := 49152

/-- `pw_create`: the emulator and `known_firmware`. A null pointer is `none`. -/
def pw_create (sound : τ) (rom eeprom : Option (List Byte)) :
    Except String (Adapter H838606 τ × Bool) :=
  match rom, eeprom with
  | some rom, some eeprom =>
    if rom.length ≠ PW_ROM_SIZE ∧ rom.length ≠ 65536 ∨ eeprom.length ≠ PW_EEPROM_SIZE then
      .error "ROM: 48 or 64 KiB; EEPROM: exactly 64 KiB required."
    else
      let soc := H838606.reset (fun i => rom.getD i 0) (fun i => eeprom.getD i.toNat 0)
      .ok ({ soc := soc, sound := sound },
        fingerprint (rom.take PW_ROM_SIZE) = 0x4fb3ade124517802)
  | _, _ => .error "ROM: 48 or 64 KiB; EEPROM: exactly 64 KiB required."

-- ---------------------------------------------------------------------------
-- The core of the run loop
-- ---------------------------------------------------------------------------

/-- `soc->Cycle()`, with what the buzzer reads. -/
def core (localtime : BitVec 64 → Tm) (synthesize : BuzzerInformation → τ → τ × BitVec 16) :
    Core H838606 τ where
  Cycle now soc :=
    match H838606.Cycle (localtime now) soc with
    | .ok (cycles, calls) soc => (calls, .ok cycles, soc)
    | .error fault soc => ([], .error fault.what, soc)
  CTS soc := soc.timer_w.TMRW.getLsbD TMRW_t.CTS
  GRA := TimerW.GRA
  GRB := TimerW.GRB
  GRC := TimerW.GRC
  synthesize := synthesize

-- ---------------------------------------------------------------------------
-- The functions
-- ---------------------------------------------------------------------------

def pw_button (mask : Byte) (down : Bool) : Exec Unit := do
  let value ← Read8 SSU_ADDR_PDRB
  let mask := mask &&& (PW_CENTER ||| PW_LEFT ||| PW_RIGHT)
  Write8 SSU_ADDR_PDRB (if down then value ||| mask else value &&& ~~~mask)

def pw_walk (enabled : Bool) (soc : H838606) : H838606 := { soc with steps.is_enabled := enabled }

def receiveAll : List Byte → Exec Unit
  | [] => return
  | byte :: bytes => do
    SCI3.ReceiveIR byte
    receiveAll bytes

def pw_ir_receive (bytes : List Byte) (pw : Adapter H838606 τ) : Adapter H838606 τ × Bool :=
  match receiveAll bytes pw.soc with
  | .ok _ soc => ({ pw with soc := soc }, true)
  | .error fault soc => ({ pw with soc := soc, error := fault.what }, false)

def clearReceiveIR (soc : H838606) : H838606 :=
  record .clearIR { soc with sci3 := soc.sci3.ClearReceiveIR }

def pw_ir_clear (pw : Adapter H838606 τ) : Adapter H838606 τ :=
  { pw with ir := [], soc := clearReceiveIR pw.soc }

-- ---------------------------------------------------------------------------
-- The frame
-- ---------------------------------------------------------------------------

def PW_WIDTH : Nat := 96
def PW_HEIGHT : Nat := 64

def palette (shade : BitVec 2) : BitVec 32 :=
  [0xe0e7ce, 0xa5af94, 0x69765d, 0x2b3726][shade.toNat]!

def shade (lcd : SSD1854) (x : Fin PW_WIDTH) (y : Fin PW_HEIGHT) : Option (BitVec 2) := do
  let base := (y.val / 8 + lcd.page_offset.toNat) * 256 + x.val * 2
  if lcd.power_save_mode then return 0
  let high ← lcd.vram.get? base
  let low ← lcd.vram.get? (base + 1)
  return BitVec.ofBool (high.getLsbD (y % 8)) ++ BitVec.ofBool (low.getLsbD (y % 8))

def pw_frame (lcd : SSD1854) (x : Fin PW_WIDTH) (y : Fin PW_HEIGHT) : Option (BitVec 32) :=
  (shade lcd x y).map palette

end PokeStroller.Soc
