import PokeStroller.Walker.Flags
import PokeStroller.Walker.Instr

/-!
# Instruction bodies

The case bodies of the opcode switch, in the order of `Instr`. A body does
its own part of `pc`; the `pc += 2` common to all cases follows the switch.
Signed overflow and left shifts of `int` wrap; a division C leaves undefined,
and a shift by 32 or more, is a fault.
-/

namespace PokeStroller

def Source.value (registers : Registers) (sz : Size) : Source → BitVec 32
  | .reg rs => getReg registers sz rs
  | .imm v => v

def Logic.apply : Logic → BitVec 32 → BitVec 32 → BitVec 32
  | .and, x, y => x &&& y
  | .or, x, y => x ||| y
  | .xor, x, y => x ^^^ y

def signExtendedDisp (disp : BitVec 16) : BitVec 32 := disp.signExtend 32

-- ---------------------------------------------------------------------------
-- Memory operands
-- ---------------------------------------------------------------------------

def getMemory (m : Memory) (sz : Size) (address : BitVec 32) : BitVec 32 :=
  match sz with
  | .b => (getMemory8 m address).setWidth 32
  | .w => (getMemory16 m address).setWidth 32
  | .l => getMemory32 m address

def setMemory (m : Memory) (sz : Size) (address value : BitVec 32) : Memory :=
  match sz with
  | .b => setMemory8 m address (value.setWidth 8)
  | .w => setMemory16 m address (value.setWidth 16)
  | .l => setMemory32 m address value

def Size.bytes : Size → BitVec 32
  | .b => 1
  | .w => 2
  | .l => 4

namespace Cpu

def loadReg (s : Cpu) (sz : Size) (rd : BitVec 4) (value : BitVec 32) : Cpu :=
  { s with
    flags := setFlagsMOV s.flags value sz
    registers := setReg s.registers sz rd value }

def storeMem (s : Cpu) (sz : Size) (address value : BitVec 32) : Cpu :=
  { s with
    flags := setFlagsMOV s.flags value sz
    memory := setMemory s.memory sz address value }

def addPc (s : Cpu) (n : BitVec 16) : Cpu := { s with pc := s.pc + n }

/-- `MOV.* @aa:16, Rd`. Reading SSRDR with the byte form clears RDRF. -/
def movAbs16Load (s : Cpu) (sz : Size) (address : BitVec 16) (rd : BitVec 4) : Cpu :=
  let value := getMemory s.memory sz (address.setWidth 32 ||| 0x00ff0000)
  let s := s.loadReg sz rd value
  let s :=
    if sz = .b ∧ address = SSRDR then
      { s with memory := Function.update s.memory SSSR (clearBit8 (s.memory SSSR) 1) }
    else s
  s.addPc (if sz = .l then 4 else 2)

/-- `MOV.* Rs, @aa:16`. The byte form starts an SSU transfer at SSTDR and
sets the Timer B reload value at TLB1. -/
def movAbs16Store (s : Cpu) (sz : Size) (rs : BitVec 4) (address : BitVec 16) : Cpu :=
  let value := getReg s.registers sz rs
  let s := s.storeMem sz (address.setWidth 32 ||| 0x00ff0000) value
  let s :=
    if sz = .b ∧ address = SSTDR then
      { s with memory :=
          Function.update s.memory SSSR (clearBit8 (clearBit8 (s.memory SSSR) 2) 3) }
    else if sz = .b ∧ address = TCB1 then
      { s with TimerB := { s.TimerB with TLBvalue := value.setWidth 8 } }
    else s
  s.addPc (if sz = .l then 4 else 2)

def movAbs8Load (s : Cpu) (address : Byte) (rd : BitVec 4) : Cpu :=
  s.loadReg .b rd (getMemory s.memory .b (address.setWidth 32 ||| 0x00ffff00))

def movAbs8Store (s : Cpu) (rs : BitVec 4) (address : Byte) : Cpu :=
  s.storeMem .b (address.setWidth 32 ||| 0x00ffff00) (getReg s.registers .b rs)

/-- The 32-bit forms carry the `0x01` prefix word. -/
def prefixPc (sz : Size) : BitVec 16 := if sz = .l then 2 else 0

def movIndLoad (s : Cpu) (sz : Size) (rs rd : BitVec 4) : Cpu :=
  (s.loadReg sz rd (getMemory s.memory sz (getReg32 s.registers rs))).addPc (prefixPc sz)

def movIndStore (s : Cpu) (sz : Size) (rs rd : BitVec 4) : Cpu :=
  (s.storeMem sz (getReg32 s.registers rd) (getReg s.registers sz rs)).addPc (prefixPc sz)

def movPostInc (s : Cpu) (sz : Size) (rs rd : BitVec 4) : Cpu :=
  let value := getMemory s.memory sz (getReg32 s.registers rs)
  let s := { s with
    registers := setReg32 s.registers rs (getReg32 s.registers rs + sz.bytes) }
  (s.loadReg sz rd value).addPc (prefixPc sz)

/-- `MOV.* Rs, @-ERd`. The byte form stores at the address `*Rs.ptr`, not at
`*Rd.ptr` as the other two. -/
def movPreDec (s : Cpu) (sz : Size) (rs rd : BitVec 4) : Cpu :=
  let s := { s with
    registers := setReg32 s.registers rd (getReg32 s.registers rd - sz.bytes) }
  let value := getReg s.registers sz rs
  let address := if sz = .b then value else getReg32 s.registers rd
  (s.storeMem sz address value).addPc (prefixPc sz)

def movDispLoad (s : Cpu) (sz : Size) (disp : BitVec 16) (rs rd : BitVec 4) : Cpu :=
  let value := getMemory s.memory sz (getReg32 s.registers rs + signExtendedDisp disp)
  (s.loadReg sz rd value).addPc (if sz = .l then 4 else 2)

def movDispStore (s : Cpu) (sz : Size) (rs : BitVec 4) (disp : BitVec 16) (rd : BitVec 4) : Cpu :=
  let value := getReg s.registers sz rs
  (s.storeMem sz (getReg32 s.registers rd + signExtendedDisp disp) value).addPc
    (if sz = .l then 4 else 2)

/-- Immediate operands of `.w` and `.l` instructions follow the opcode word. -/
def immediatePc (sz : Size) : Source → BitVec 16
  | .reg _ => 0
  | .imm _ => match sz with
    | .b => 0
    | .w => 2
    | .l => 4

def mov (s : Cpu) (sz : Size) (src : Source) (rd : BitVec 4) : Cpu :=
  (s.loadReg sz rd (src.value s.registers sz)).addPc (immediatePc sz src)

def ldc (s : Cpu) (src : Source) : Cpu :=
  { s with flags := setFlags ((src.value s.registers .b).setWidth 8) }

-- ---------------------------------------------------------------------------
-- Arithmetic
-- ---------------------------------------------------------------------------

def add (s : Cpu) (sz : Size) (src : Source) (rd : BitVec 4) : Cpu :=
  let d := getReg s.registers sz rd
  let v := src.value s.registers sz
  { s with
    flags := setFlagsADD s.flags d v sz
    registers := setReg s.registers sz rd (d + v) }.addPc (immediatePc sz src)

def sub (s : Cpu) (sz : Size) (src : Source) (rd : BitVec 4) : Cpu :=
  let d := getReg s.registers sz rd
  let v := src.value s.registers sz
  { s with
    flags := setFlagsSUB s.flags d v sz
    registers := setReg s.registers sz rd (d - v) }.addPc (immediatePc sz src)

def cmp (s : Cpu) (sz : Size) (src : Source) (rd : BitVec 4) : Cpu :=
  let d := getReg s.registers sz rd
  let v := src.value s.registers sz
  { s with flags := setFlagsSUB s.flags d v sz }.addPc (immediatePc sz src)

/-- `SUBX Rs, Rd`. The last subtraction reads the carry the flag call set. -/
def subx (s : Cpu) (rs rd : BitVec 4) : Cpu :=
  let v := getReg s.registers .b rs
  let flags := setFlagsSUB s.flags (getReg s.registers .b rd)
    (v + (BitVec.ofBool s.flags.C).setWidth 32) .b
  let registers := setReg s.registers .b rd (getReg s.registers .b rd - v)
  let registers := setReg registers .b rd
    (getReg registers .b rd - (BitVec.ofBool flags.C).setWidth 32)
  { s with flags := flags, registers := registers }

def adds (s : Cpu) (k : BitVec 32) (rd : BitVec 4) : Cpu :=
  { s with registers := setReg32 s.registers rd (getReg32 s.registers rd + k) }

def subs (s : Cpu) (k : BitVec 32) (rd : BitVec 4) : Cpu :=
  { s with registers := setReg32 s.registers rd (getReg32 s.registers rd - k) }

def inc (s : Cpu) (sz : Size) (k : BitVec 32) (rd : BitVec 4) : Cpu :=
  let d := getReg s.registers sz rd
  { s with
    flags := setFlagsINC s.flags d k sz
    registers := setReg s.registers sz rd (d + k) }

def dec (s : Cpu) (sz : Size) (k : BitVec 32) (rd : BitVec 4) : Cpu :=
  let d := getReg s.registers sz rd
  { s with
    flags := setFlagsINC s.flags d (-k) sz
    registers := setReg s.registers sz rd (d - k) }

def mulxuB (s : Cpu) (rs rd : BitVec 4) : Cpu :=
  let lowerBitsRd := getReg16 s.registers rd &&& 0x00ff
  let product := (getReg8 s.registers rs).setWidth 16 * lowerBitsRd
  { s with registers := setReg16 s.registers rd product }

def mulxuW (s : Cpu) (rs rd : BitVec 4) : Cpu :=
  let lowerBitsRd := getReg32 s.registers rd &&& 0x0000ffff
  let product := (getReg16 s.registers rs).setWidth 32 * lowerBitsRd
  { s with registers := setReg32 s.registers rd product }

/-- `DIVXU.B`. The flags read `*Rs.ptr` after `*Rd.ptr` was written. -/
def divxuB (s : Cpu) (rs rd : BitVec 4) : Outcome Fault Cpu :=
  let divisor := (getReg8 s.registers rs).setWidth 16
  let dividend := getReg16 s.registers rd
  if divisor = 0 then .fault .divisionByZero
  else
    let quotient : Byte := (dividend / divisor).setWidth 8
    let remainder : Byte := (dividend % divisor).setWidth 8
    let registers := setReg16 s.registers rd
      ((remainder.setWidth 16 <<< 8) ||| quotient.setWidth 16)
    .ok { s with
      registers := registers
      flags := { s.flags with
        Z := getReg8 registers rs == 0
        N := (getReg8 registers rs).setWidth 32 &&& 0x8000 != 0#32 } }

def divxuW (s : Cpu) (rs rd : BitVec 4) : Outcome Fault Cpu :=
  let divisor := (getReg16 s.registers rs).setWidth 32
  let dividend := getReg32 s.registers rd
  if divisor = 0 then .fault .divisionByZero
  else
    let quotient : BitVec 16 := (dividend / divisor).setWidth 16
    let remainder : BitVec 16 := (dividend % divisor).setWidth 16
    let registers := setReg32 s.registers rd
      ((remainder.setWidth 32 <<< 16) ||| quotient.setWidth 32)
    .ok { s with
      registers := registers
      flags := { s.flags with
        Z := getReg16 registers rs == 0
        N := (getReg16 registers rs).setWidth 32 &&& 0x80000000 != 0#32 } }

/-- `MULXS.B`. `*Rs.ptr` is unsigned, so its cast to `int16_t` zero-extends. -/
def mulxsB (s : Cpu) (rs rd : BitVec 4) : Cpu :=
  let lowerBitsRd : Byte := (getReg16 s.registers rd).setWidth 8
  let product := (getReg8 s.registers rs).setWidth 16 * lowerBitsRd.signExtend 16
  { s with
    registers := setReg16 s.registers rd product
    flags := { s.flags with Z := product == 0, N := product &&& 0x8000 != 0 } }

def mulxsW (s : Cpu) (rs rd : BitVec 4) : Cpu :=
  let lowerBitsRd : BitVec 16 := (getReg32 s.registers rd).setWidth 16
  let product := (getReg16 s.registers rs).setWidth 32 * lowerBitsRd.signExtend 32
  { s with
    registers := setReg32 s.registers rd product
    flags := { s.flags with Z := product == 0, N := product &&& 0x80000000 != 0 } }

/-- `DIVXS.B`. Quotient and remainder are packed as promoted `int`s. -/
def divxsB (s : Cpu) (rs rd : BitVec 4) : Outcome Fault Cpu :=
  let divisor := (getReg8 s.registers rs).signExtend 32
  let dividend := (getReg16 s.registers rd).signExtend 32
  if divisor = 0 then .fault .divisionByZero
  else
    let quotient : Byte := (dividend.sdiv divisor).setWidth 8
    let remainder : Byte := (dividend.srem divisor).setWidth 8
    let registers := setReg16 s.registers rd
      (((remainder.signExtend 32 <<< 8) ||| quotient.signExtend 32).setWidth 16)
    .ok { s with
      registers := registers
      flags := { s.flags with
        Z := getReg8 registers rs == 0
        N := !(BitVec.slt 0 quotient) } }

/-- `DIVXS.W`. The most negative `int32_t` by -1 has no quotient in C. -/
def divxsW (s : Cpu) (rs rd : BitVec 4) : Outcome Fault Cpu :=
  let divisor := (getReg16 s.registers rs).signExtend 32
  let dividend := getReg32 s.registers rd
  if divisor = 0 then .fault .divisionByZero
  else if dividend = 0x80000000 ∧ divisor = -1 then .fault .divisionOverflow
  else
    let quotient : BitVec 16 := (dividend.sdiv divisor).setWidth 16
    let remainder : BitVec 16 := (dividend.srem divisor).setWidth 16
    let registers := setReg32 s.registers rd
      ((remainder.signExtend 32 <<< 16) ||| quotient.signExtend 32)
    .ok { s with
      registers := registers
      flags := { s.flags with
        Z := getReg16 registers rs == 0
        N := quotient.signExtend 32 &&& 0x80000000 != 0 } }

-- ---------------------------------------------------------------------------
-- Logic and shifts
-- ---------------------------------------------------------------------------

def logic (s : Cpu) (op : Logic) (sz : Size) (src : Source) (rd : BitVec 4) : Cpu :=
  let newValue := op.apply (src.value s.registers sz) (getReg s.registers sz rd)
  let pc := match src with
    | .reg _ => prefixPc sz
    | .imm _ => immediatePc sz src
  (s.loadReg sz rd newValue).addPc pc

def shiftValue (op : Shift) (sz : Size) (flags : Flags) (v : BitVec 32) : BitVec 32 × Bool :=
  let top := v &&& sz.negativeFlag != 0
  let bottom := v &&& 1 != 0
  match op with
  | .shll | .shal => (v <<< 1, top)
  | .shlr => (v >>> 1, bottom)
  -- at .w and .l; SHAR.B, which returns 1, is not decoded to a shift
  | .shar => ((v >>> 1) ||| (v &&& sz.negativeFlag), bottom)
  | .rotxl => ((v <<< 1) ||| (BitVec.ofBool flags.C).setWidth 32, top)
  | .rotl => ((v <<< 1) ||| (BitVec.ofBool top).setWidth 32, top)

def shift (s : Cpu) (op : Shift) (sz : Size) (rd : BitVec 4) : Cpu :=
  let (value, carry) := shiftValue op sz s.flags (getReg s.registers sz rd)
  let registers := setReg s.registers sz rd value
  let result := getReg registers sz rd
  let flags := setFlagsMOV { s.flags with C := carry } result sz
  let flags := match op with
    | .shal => { flags with V := carry && !(result &&& sz.negativeFlag != 0) }
    | _ => flags
  { s with registers := registers, flags := flags }

def update (s : Cpu) (sz : Size) (rd : BitVec 4) (f : BitVec 32 → BitVec 32) : Cpu :=
  let registers := setReg s.registers sz rd (f (getReg s.registers sz rd))
  { s with registers := registers, flags := setFlagsMOV s.flags (getReg registers sz rd) sz }

def not (s : Cpu) (sz : Size) (rd : BitVec 4) : Cpu := s.update sz rd fun v => ~~~v

def neg (s : Cpu) (sz : Size) (rd : BitVec 4) : Cpu :=
  let v := getReg s.registers sz rd
  { s with
    flags := setFlagsSUB s.flags 0 v sz
    registers := if v = sz.negativeFlag then s.registers else setReg s.registers sz rd (0 - v) }

def extuW (s : Cpu) (rd : BitVec 4) : Cpu := s.update .w rd fun v => v &&& 0x00ff

def extuL (s : Cpu) (rd : BitVec 4) : Cpu := s.update .l rd fun v => v &&& 0x0000ffff

def extsW (s : Cpu) (rd : BitVec 4) : Cpu :=
  s.update .w rd fun v => if v &&& 0x80 = 0 then v &&& 0x00ff else (v &&& 0x00ff) ||| 0xff00

def extsL (s : Cpu) (rd : BitVec 4) : Cpu :=
  s.update .l rd fun v =>
    if v &&& 0x8000 = 0 then v &&& 0x0000ffff else (v &&& 0x0000ffff) ||| 0xffff0000

-- ---------------------------------------------------------------------------
-- Branches
-- ---------------------------------------------------------------------------

def condition8 (cc : BitVec 4) (f : Flags) : Bool :=
  match cc.toNat with
  | 0x0 => true
  | 0x2 => !(f.C || f.Z)
  | 0x3 => f.C || f.Z
  | 0x4 => !f.C
  | 0x5 => f.C
  | 0x6 => !f.Z
  | 0x7 => f.Z
  | 0x8 => !f.V
  | 0x9 => f.V
  | 0xa => !f.N
  | 0xb => f.N
  | 0xc => !(f.N ^^ f.V)
  | 0xd => f.N ^^ f.V
  | 0xe => !(f.Z || (f.N ^^ f.V))
  | 0xf => f.Z || (f.N ^^ f.V)
  | _ => false

def bcc8 (s : Cpu) (cc : BitVec 4) (disp : BitVec 8) : Cpu :=
  if condition8 cc s.flags then s.addPc (disp.signExtend 16) else s

def condition16 (cc : BitVec 4) (f : Flags) : Bool :=
  match cc.toNat with
  | 0x0 => true
  | 0x2 => !(f.C || f.Z)
  | 0x3 => f.C || f.Z
  | 0x4 => !f.C
  | 0x5 => f.C
  | 0x6 => !f.Z
  | 0x7 => f.Z
  | 0x8 => !f.V
  | 0x9 => f.V
  | 0xa => !f.N
  | 0xb => f.N
  | 0xc => !(f.N ^^ f.V)
  | 0xd => f.N ^^ f.V
  | 0xe => !(f.Z || (f.N ^^ f.V))
  | 0xf => f.Z || (f.N ^^ f.V)
  | _ => false

/-- `Bcc d:16`. The BRN case leaves `pc` alone, on its displacement word. -/
def bcc16 (s : Cpu) (cc : BitVec 4) (disp : BitVec 16) : Cpu :=
  if cc = 0x1 then s
  else if condition16 cc s.flags then s.addPc (2 + disp)
  else s.addPc 2

def push16 (s : Cpu) (value : BitVec 16) : Cpu :=
  let registers := setReg32 s.registers SP (getReg32 s.registers SP - 2)
  { s with
    registers := registers
    memory := setMemory16 s.memory (getReg32 registers SP) value }

def jmpInd (s : Cpu) (er : BitVec 4) : Cpu :=
  { s with pc := (getReg32 s.registers er).setWidth 16 - 2 }

def jmpAbs (s : Cpu) (address : BitVec 32) : Cpu := { s with pc := address.setWidth 16 - 2 }

def bsr8 (s : Cpu) (disp : BitVec 8) : Cpu :=
  (s.push16 (s.pc + 2)).addPc (disp.signExtend 16)

def bsr16 (s : Cpu) (disp : BitVec 16) : Cpu := (s.push16 (s.pc + 4)).addPc (2 + disp)

def jsrInd (s : Cpu) (er : BitVec 4) : Cpu := (s.push16 (s.pc + 2)).jmpInd er

def jsrAbs (s : Cpu) (address : BitVec 32) : Cpu := (s.push16 (s.pc + 4)).jmpAbs address

def rts (s : Cpu) : Cpu :=
  { s with
    pc := getMemory16 s.memory (getReg32 s.registers SP) - 2
    registers := setReg32 s.registers SP (getReg32 s.registers SP + 2) }

def rte (s : Cpu) (interruptSavedAddress : BitVec 16) (interruptSavedFlags : Flags) : Cpu :=
  { s with pc := interruptSavedAddress - 2, flags := interruptSavedFlags }

-- ---------------------------------------------------------------------------
-- Bits
-- ---------------------------------------------------------------------------

def bitCount (s : Cpu) : BitNumber → Nat
  | .imm n => n.toNat
  | .reg rn => (getReg8 s.registers rn).toNat

def bitMask (n : Nat) : Byte := ((1 : BitVec 32) <<< n).setWidth 8

def abs8Address (b : Byte) : BitVec 32 := 0x0000ff00 ||| b.setWidth 32

def getBitTarget (s : Cpu) : BitTarget → Byte
  | .reg rd => getReg8 s.registers rd
  | .ind rd => getMemory8 s.memory (getReg32 s.registers rd)
  | .abs8 b => getMemory8 s.memory (abs8Address b)

def setBitTarget (s : Cpu) (target : BitTarget) (v : Byte) : Cpu :=
  match target with
  | .reg rd => { s with registers := setReg8 s.registers rd v }
  | .ind rd => { s with memory := setMemory8 s.memory (getReg32 s.registers rd) v }.addPc 2
  | .abs8 b => { s with memory := setMemory8 s.memory (abs8Address b) v }.addPc 2

def bset (s : Cpu) (bit : BitNumber) (target : BitTarget) : Outcome Fault Cpu :=
  let n := s.bitCount bit
  if 32 ≤ n then .fault .shiftCount
  else .ok (s.setBitTarget target (s.getBitTarget target ||| bitMask n))

def bclr (s : Cpu) (bit : BitNumber) (target : BitTarget) : Outcome Fault Cpu :=
  let n := s.bitCount bit
  if 32 ≤ n then .fault .shiftCount
  else .ok (s.setBitTarget target (s.getBitTarget target &&& ~~~bitMask n))

/-- `BNOT #xx:3, @ERd`. The test masks with the bit number itself. -/
def bnotInd (s : Cpu) (bit rd : BitVec 4) : Cpu :=
  let v := s.getBitTarget (.ind rd)
  let bitValue := v.setWidth 32 &&& bit.setWidth 32 != 0#32
  s.setBitTarget (.ind rd)
    (if bitValue then v &&& ~~~bitMask bit.toNat else v ||| bitMask bit.toNat)

def storeCarry (s : Cpu) (bit : BitVec 4) (v : Byte) : Byte :=
  if s.flags.C then v ||| bitMask bit.toNat else v &&& ~~~bitMask bit.toNat

/-- `BST #xx:3, Rd`. The register byte is used as a memory address. -/
def bstReg (s : Cpu) (bit rd : BitVec 4) : Cpu :=
  let address := (getReg8 s.registers rd).setWidth 32
  let value := s.storeCarry bit (getMemory8 s.memory address)
  { s with memory := setMemory8 s.memory address value }

def bstInd (s : Cpu) (bit rd : BitVec 4) : Cpu :=
  s.setBitTarget (.ind rd) (s.storeCarry bit (s.getBitTarget (.ind rd)))

def btst (s : Cpu) (bit rd : BitVec 4) : Cpu :=
  { s with flags := { s.flags with
      Z := !(getReg8 s.registers rd &&& bitMask bit.toNat != 0) } }

def bld (s : Cpu) (bit : BitVec 4) (target : BitTarget) : Cpu :=
  { s with flags := { s.flags with
      C := s.getBitTarget target &&& bitMask bit.toNat != 0 } }.addPc
    (match target with
      | .reg _ => 0
      | _ => 2)

end Cpu

/-- The body of a switch case. The saved interrupt context is only read, by
RTE; everything else a body can touch is in `Cpu`. -/
def execute (interruptSavedAddress : BitVec 16) (interruptSavedFlags : Flags) (s : Cpu) :
    Instr → Outcome Fault Cpu
  | .nop => .ok s
  | .sleep => .ok { s with sleep := true }
  | .skip2 => .ok (s.addPc 2)
  | .unsupported => .error s
  | .unsupported2 => .error (s.addPc 2)
  | .movAbs16Load sz address rd => .ok (s.movAbs16Load sz address rd)
  | .movAbs16Store sz rs address => .ok (s.movAbs16Store sz rs address)
  | .movAbs8Load address rd => .ok (s.movAbs8Load address rd)
  | .movAbs8Store rs address => .ok (s.movAbs8Store rs address)
  | .movIndLoad sz rs rd => .ok (s.movIndLoad sz rs rd)
  | .movIndStore sz rs rd => .ok (s.movIndStore sz rs rd)
  | .movPostInc sz rs rd => .ok (s.movPostInc sz rs rd)
  | .movPreDec sz rs rd => .ok (s.movPreDec sz rs rd)
  | .movDispLoad sz disp rs rd => .ok (s.movDispLoad sz disp rs rd)
  | .movDispStore sz rs disp rd => .ok (s.movDispStore sz rs disp rd)
  | .mov sz src rd => .ok (s.mov sz src rd)
  | .ldc src => .ok (s.ldc src)
  | .add sz src rd => .ok (s.add sz src rd)
  | .sub sz src rd => .ok (s.sub sz src rd)
  | .cmp sz src rd => .ok (s.cmp sz src rd)
  | .subx rs rd => .ok (s.subx rs rd)
  | .adds k rd => .ok (s.adds k rd)
  | .subs k rd => .ok (s.subs k rd)
  | .inc sz k rd => .ok (s.inc sz k rd)
  | .dec sz k rd => .ok (s.dec sz k rd)
  | .mulxuB rs rd => .ok (s.mulxuB rs rd)
  | .mulxuW rs rd => .ok (s.mulxuW rs rd)
  | .divxuB rs rd => s.divxuB rs rd
  | .divxuW rs rd => s.divxuW rs rd
  | .mulxsB rs rd => .ok ((s.mulxsB rs rd).addPc 2)
  | .mulxsW rs rd => .ok ((s.mulxsW rs rd).addPc 2)
  | .divxsB rs rd => (s.divxsB rs rd).map (·.addPc 2)
  | .divxsW rs rd => (s.divxsW rs rd).map (·.addPc 2)
  | .logic op sz src rd => .ok (s.logic op sz src rd)
  | .shift op sz rd => .ok (s.shift op sz rd)
  | .not sz rd => .ok (s.not sz rd)
  | .neg sz rd => .ok (s.neg sz rd)
  | .extuW rd => .ok (s.extuW rd)
  | .extuL rd => .ok (s.extuL rd)
  | .extsW rd => .ok (s.extsW rd)
  | .extsL rd => .ok (s.extsL rd)
  | .bcc8 cc disp => .ok (s.bcc8 cc disp)
  | .bcc16 cc disp => .ok (s.bcc16 cc disp)
  | .jmpInd er => .ok (s.jmpInd er)
  | .jmpAbs address => .ok (s.jmpAbs address)
  | .bsr8 disp => .ok (s.bsr8 disp)
  | .bsr16 disp => .ok (s.bsr16 disp)
  | .jsrInd er => .ok (s.jsrInd er)
  | .jsrAbs address => .ok (s.jsrAbs address)
  | .rts => .ok s.rts
  | .rte => .ok (s.rte interruptSavedAddress interruptSavedFlags)
  | .bset bit target => s.bset bit target
  | .bclr bit target => s.bclr bit target
  | .bnotInd bit rd => .ok (s.bnotInd bit rd)
  | .bstReg bit rd => .ok (s.bstReg bit rd)
  | .bstInd bit rd => .ok (s.bstInd bit rd)
  | .btst bit rd => .ok (s.btst bit rd)
  | .bld bit target => .ok (s.bld bit target)

end PokeStroller
