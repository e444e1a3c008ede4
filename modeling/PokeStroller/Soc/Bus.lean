import PokeStroller.Lib.Exec
import PokeStroller.Soc.State

/-!
# The bus

The memory bus (bus.cpp, interface.cpp and the regions), with the handlers that
the devices register for their addresses.
-/

namespace PokeStroller.Soc

-- ---------------------------------------------------------------------------
-- Handlers
-- ---------------------------------------------------------------------------

namespace IoRegister

def address : IoRegister → BitVec 16
  | IENR1 => 0xFFF3
  | IENR2 => 0xFFF4
  | IRR1 => 0xFFF6
  | IRR2 => 0xFFF7
  | RTCFLG => 0xF067
  | RTCCR2 => 0xF06D
  | TIERW => 0xF0F2
  | TSRW => 0xF0F3
  | SSTDR => 0xF0EB
  | SSRDR => 0xF0E9
  | SSSR => 0xF0E4
  | SSMR => 0xF0E2
  | SSER => 0xF0E3
  | PDRB => 0xFFDE
  | PMRB => 0xFFCA
  | PFCR => 0xF085
  | SMR => 0xFF98
  | SCR => 0xFF9A
  | IRCR => 0xFFA7
  | BRR => 0xFF99
  | SSR => 0xFF9C
  | TDR => 0xFF9B
  | RDR => 0xFF9D
  | TMB1 => 0xF0D0
  | TCB1_TLB1 => 0xF0D1
  | TMRW => 0xF0F0
  | TCRW => 0xF0F1
  | RTCCR1 => 0xF06C
  | RSECDR => 0xF068
  | RMINDR => 0xF069
  | RHRDR => 0xF06A
  | RWKDR => 0xF06B
  | ADSR => 0xFFBF
  | AMR => 0xFFBE
  | CKSTPR1 => 0xFFFA
  | CKSTPR2 => 0xFFFB

def all : List IoRegister :=
  [IENR1, IENR2, IRR1, IRR2, RTCFLG, RTCCR2, TIERW, TSRW, SSTDR, SSRDR, SSSR, SSMR, SSER, PDRB,
    PMRB, PFCR, SMR, SCR, IRCR, BRR, SSR, TDR, RDR, TMB1, TCB1_TLB1, TMRW, TCRW, RTCCR1, RSECDR,
    RMINDR, RHRDR, RWKDR, ADSR, AMR, CKSTPR1, CKSTPR2]

def find? (address : BitVec 16) : Option IoRegister := all.find? (·.address = address)

def value (s : H838606) : IoRegister → Byte
  | IENR1 => s.interrupts.IENR1
  | IENR2 => s.interrupts.IENR2
  | IRR1 => s.interrupts.IRR1
  | IRR2 => s.interrupts.IRR2
  | RTCFLG => s.interrupts.RTCFLG
  | RTCCR2 => s.interrupts.RTCCR2
  | TIERW => s.interrupts.TIERW
  | TSRW => s.interrupts.TSRW
  | SSTDR => s.ssu.SSTDR
  | SSRDR => s.ssu.SSRDR
  | SSSR => s.ssu.SSSR
  | SSMR => s.ssu.SSMR
  | SSER => s.ssu.SSER
  | PDRB => s.ssu.PDRB
  | PMRB => s.ssu.PMRB
  | PFCR => s.ssu.PFCR
  | SMR => s.sci3.SMR
  | SCR => s.sci3.SCR
  | IRCR => s.sci3.IRCR
  | BRR => s.sci3.BRR
  | SSR => s.sci3.SSR
  | TDR => s.sci3.TDR
  | RDR => s.sci3.RDR
  | TMB1 => s.timer_b1.TMB1
  | TCB1_TLB1 => s.timer_b1.TCB1
  | TMRW => s.timer_w.TMRW
  | TCRW => s.timer_w.TCRW
  | RTCCR1 => s.rtc.RTCCR1
  | RSECDR => s.rtc.RSECDR
  | RMINDR => s.rtc.RMINDR
  | RHRDR => s.rtc.RHRDR
  | RWKDR => s.rtc.RWKDR
  | ADSR => s.adc.ADSR
  | AMR => s.adc.AMR
  | CKSTPR1 => s.CKSTPR1
  | CKSTPR2 => s.CKSTPR2

def onRead (s : H838606) : IoRegister → H838606
  | SSRDR => { s with ssu.SSSR := withBit s.ssu.SSSR SSSR_t.RDRF false }
  | RDR => { s with sci3.SSR := withBit s.sci3.SSR SSR_t.RDRF false }
  | _ => s

end IoRegister

def SCI3.ClearReceiveIR (sci3 : SCI3) : SCI3 :=
  { sci3 with receive_queue := [], SSR := withBit sci3.SSR SSR_t.RDRF false }

/-- `if (PFCR.IRQ0S == 0b00 && PDRB.PB0)` and the same for IRQ1. -/
def SSU.requests (ssu : SSU) (irr1 : Byte) : Byte :=
  let irr1 :=
    if ssu.PFCR.extractLsb' 0 2 = 0 ∧ ssu.PDRB.getLsbD PDRB_t.PB0 then
      withBit irr1 IRR1_t.IRRI0 true
    else irr1
  if ssu.PFCR.extractLsb' 2 2 = 0 ∧ ssu.PDRB.getLsbD PDRB_t.PB1 then
    withBit irr1 IRR1_t.IRRI1 true
  else irr1

namespace IoRegister

def onWrite (value : Byte) (s : H838606) : IoRegister → H838606
  | IENR1 => { s with interrupts.IENR1 := value }
  | IENR2 => { s with interrupts.IENR2 := value }
  | IRR1 => { s with interrupts.IRR1 := value }
  | IRR2 => { s with interrupts.IRR2 := value }
  | RTCFLG => { s with interrupts.RTCFLG := value }
  | RTCCR2 => { s with interrupts.RTCCR2 := value }
  | TIERW => { s with interrupts.TIERW := value }
  | TSRW => { s with interrupts.TSRW := value }
  | SSTDR =>
    { s with
      ssu.SSTDR := value
      ssu.SSSR := withBit (withBit s.ssu.SSSR SSSR_t.TDRE false) SSSR_t.TEND false }
  | SSRDR => s
  | SSSR =>
    let SSSR := s.ssu.SSSR &&& value
    { s with
      ssu.SSSR :=
        if s.ssu.SSER.getLsbD SSER_t.TE then SSSR else withBit SSSR SSSR_t.TDRE true }
  | SSMR => { s with ssu.SSMR := value }
  | SSER => { s with ssu.SSER := value }
  | PDRB =>
    let ssu := { s.ssu with PDRB := value }
    { s with ssu := ssu, interrupts.IRR1 := ssu.requests s.interrupts.IRR1 }
  | PMRB => { s with ssu.PMRB := value }
  | PFCR => { s with ssu.PFCR := value }
  | SMR => { s with sci3.SMR := value }
  | SCR => { s with sci3.SCR := value }
  | IRCR =>
    let sci3 := { s.sci3 with IRCR := value }
    if value.getLsbD IRCR_t.IRE then { s with sci3 := sci3 }
    else record .clearIR { s with sci3 := sci3.ClearReceiveIR }
  | BRR => { s with sci3.BRR := value }
  | SSR =>
    if s.sci3.SCR.getLsbD SCR_t.TE then s
    else { s with sci3.SSR := withBit s.sci3.SSR SSR_t.TDRE true }
  | TDR =>
    { s with
      sci3.TDR := value
      sci3.SSR := withBit (withBit s.sci3.SSR SSR_t.TDRE false) SSR_t.TEND false }
  | RDR => s
  | TMB1 => { s with timer_b1.TMB1 := value }
  | TCB1_TLB1 => { s with timer_b1.TLB1 := value }
  | TMRW => { s with timer_w.TMRW := value }
  | TCRW => { s with timer_w.TCRW := value }
  | RTCCR1 => { s with rtc.RTCCR1 := value }
  | RSECDR => { s with rtc.RSECDR := value }
  | RMINDR => { s with rtc.RMINDR := value }
  | RHRDR => { s with rtc.RHRDR := value }
  | RWKDR => { s with rtc.RWKDR := value }
  | ADSR => { s with adc.ADSR := value }
  | AMR => { s with adc.AMR := value }
  | CKSTPR1 => { s with CKSTPR1 := value }
  | CKSTPR2 => { s with CKSTPR2 := value }

/-- A read handler, with its history. -/
def read (r : IoRegister) (s : H838606) : H838606 := record (.read r (r.value s)) (r.onRead s)

/-- A write handler, with its history. -/
def write (r : IoRegister) (value : Byte) (s : H838606) : H838606 :=
  r.onWrite value (record (.write r value) s)

end IoRegister

-- ---------------------------------------------------------------------------
-- Accesses
-- ---------------------------------------------------------------------------

def checked (array : HostArray) : Option α → Exec α
  | some a => pure a
  | none => throw (.undefined array)

def ioRead (address : BitVec 16) : Exec Byte := do
  let s ← get
  match IoRegister.find? address with
  | some r =>
    modify r.read
    return r.value s
  | none =>
    if IO_LOW_START ≤ address.toNat ∧ address.toNat ≤ IO_LOW_END then
      checked .io_low (s.io_low.get? (address.toNat - IO_LOW_START))
    else if IO_HIGH_START ≤ address.toNat ∧ address.toNat ≤ IO_HIGH_END then
      checked .io_high (s.io_high.get? (address.toNat - IO_HIGH_START))
    else return 0xFF

def ioWrite (address : BitVec 16) (value : Byte) : Exec Unit := do
  let s ← get
  match IoRegister.find? address with
  | some r => modify (r.write value)
  | none =>
    if IO_LOW_START ≤ address.toNat ∧ address.toNat ≤ IO_LOW_END then
      let io_low ← checked .io_low (s.io_low.set? (address.toNat - IO_LOW_START) value)
      modify ({ · with io_low := io_low })
    else if IO_HIGH_START ≤ address.toNat ∧ address.toNat ≤ IO_HIGH_END then
      let io_high ← checked .io_high (s.io_high.set? (address.toNat - IO_HIGH_START) value)
      modify ({ · with io_high := io_high })
    else return

def isIo (address : BitVec 16) : Prop :=
  IO_LOW_START ≤ address.toNat ∧ address.toNat ≤ IO_LOW_END ∨
    IO_HIGH_START ≤ address.toNat ∧ address.toNat ≤ IO_HIGH_END

instance (address : BitVec 16) : Decidable (isIo address) := inferInstanceAs (Decidable (_ ∨ _))

def Read8 (address : BitVec 16) : Exec Byte := do
  let s ← get
  if address.toNat ≤ ROM_END then checked .rom (s.rom.get? address.toNat)
  else if RAM_START ≤ address.toNat ∧ address.toNat ≤ RAM_END then
    checked .ram (s.ram.get? (address.toNat - RAM_START))
  else if isIo address then ioRead address
  else return 0xFF

def Write8 (address : BitVec 16) (value : Byte) : Exec Unit := do
  let s ← get
  if address.toNat ≤ ROM_END then return
  else if RAM_START ≤ address.toNat ∧ address.toNat ≤ RAM_END then
    let ram ← checked .ram (s.ram.set? (address.toNat - RAM_START) value)
    modify ({ · with ram := ram })
  else if isIo address then ioWrite address value
  else return

def Read16 (address : BitVec 16) : Exec (BitVec 16) := do
  let high ← Read8 address
  let low ← Read8 (address + 1)
  return high ++ low

def Read32 (address : BitVec 16) : Exec (BitVec 32) := do
  let a ← Read8 address
  let b ← Read8 (address + 1)
  let c ← Read8 (address + 2)
  let d ← Read8 (address + 3)
  return a ++ b ++ c ++ d

def Write16 (address : BitVec 16) (value : BitVec 16) : Exec Unit := do
  Write8 address (value.extractLsb' 8 8)
  Write8 (address + 1) (value.extractLsb' 0 8)

def Write32 (address : BitVec 16) (value : BitVec 32) : Exec Unit := do
  Write8 address (value.extractLsb' 24 8)
  Write8 (address + 1) (value.extractLsb' 16 8)
  Write8 (address + 2) (value.extractLsb' 8 8)
  Write8 (address + 3) (value.extractLsb' 0 8)

end PokeStroller.Soc
