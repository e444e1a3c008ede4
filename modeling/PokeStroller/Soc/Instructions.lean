import PokeStroller.Soc.Operands

/-!
# The instructions of the core

The entries of the instruction tables of set.cpp: name, size, cycles, what is
executed, and whether it leaves the program counter to the instruction. What
several entries execute in the same way is one definition with the operands as
arguments.
-/

namespace PokeStroller.Soc

open CPU

structure InstructionCycles where
  instruction_fetch : Nat
  branch_address_read : Nat
  stack_operation : Nat
  byte_data_access : Nat
  word_data_access : Nat
  internal_operation : Nat
  deriving DecidableEq, Repr

def InstructionCycles.Count (c : InstructionCycles) : Nat :=
  c.instruction_fetch + c.branch_address_read + c.stack_operation + c.byte_data_access +
    c.word_data_access + c.internal_operation

structure Instruction where
  name : String
  size : Nat
  cycles : InstructionCycles
  execute : Exec Unit
  branch_absolute : Bool := false

-- ---------------------------------------------------------------------------
-- Operations
-- ---------------------------------------------------------------------------

section

variable {w : Nat}

def mov (_ rs : BitVec w) (flags : Flags) : BitVec w × Flags := (rs, MovFlags rs flags)
def or (rd rs : BitVec w) (flags : Flags) : BitVec w × Flags :=
  (rd ||| rs, MovFlags (rd ||| rs) flags)
def xor (rd rs : BitVec w) (flags : Flags) : BitVec w × Flags :=
  (rd ^^^ rs, MovFlags (rd ^^^ rs) flags)
def and (rd rs : BitVec w) (flags : Flags) : BitVec w × Flags :=
  (rd &&& rs, MovFlags (rd &&& rs) flags)

/-- `*rs + cpu.reg.flags.C` is converted to the operand's type. -/
def subx (rd rs : BitVec w) (flags : Flags) : BitVec w × Flags :=
  Sub rd (rs + (BitVec.ofBool flags.C).setWidth w) flags

def not (rd : BitVec w) (flags : Flags) : BitVec w × Flags := (~~~rd, MovFlags (~~~rd) flags)
def neg (rd : BitVec w) (flags : Flags) : BitVec w × Flags := Sub 0 rd flags
def inc (n rd : BitVec w) (flags : Flags) : BitVec w × Flags := Inc rd n flags
def dec (n rd : BitVec w) (flags : Flags) : BitVec w × Flags := Dec rd n flags
def adds (n rd : BitVec w) (flags : Flags) : BitVec w × Flags := (rd + n, flags)
def subs (n rd : BitVec w) (flags : Flags) : BitVec w × Flags := (rd - n, flags)

def extu (n : Nat) (rd : BitVec w) (flags : Flags) : BitVec w × Flags :=
  let result := (rd.setWidth n).setWidth w
  (result, MovFlags result flags)

def exts (n : Nat) (rd : BitVec w) (flags : Flags) : BitVec w × Flags :=
  let result := (rd.setWidth n).signExtend w
  (result, MovFlags result flags)

def shll (rd : BitVec w) (flags : Flags) : BitVec w × Flags :=
  let result := rd <<< 1
  (result, MovFlags result { flags with C := rd &&& NEGATIVE_MASK w != 0 })

def shlr (rd : BitVec w) (flags : Flags) : BitVec w × Flags :=
  let result := rd >>> 1
  (result, MovFlags result { flags with C := rd.getLsbD 0 })

def shar (rd : BitVec w) (flags : Flags) : BitVec w × Flags :=
  let result := rd >>> 1 ||| rd &&& NEGATIVE_MASK w
  (result, MovFlags result { flags with C := rd.getLsbD 0 })

def rotl (rd : BitVec w) (flags : Flags) : BitVec w × Flags :=
  let msb := rd.getLsbD (w - 1)
  let result := rd <<< 1 ||| (BitVec.ofBool msb).setWidth w
  (result, MovFlags result { flags with C := msb })

end

/-- `*rd` and the flags become what `f` makes of `*rd` and the source. -/
def binary (sz : Size)
    (f : BitVec sz.numberOfBits → BitVec sz.numberOfBits → Flags →
      BitVec sz.numberOfBits × Flags)
    (source : Exec (BitVec sz.numberOfBits)) (destination : Exec (BitVec 4)) : Exec Unit := do
  let rs ← source
  let rd ← destination
  let (result, flags) := f (← Reg sz rd) rs (← get).cpu.flags
  SetReg sz rd result
  SetFlags fun _ => flags

def compare (sz : Size) (source : Exec (BitVec sz.numberOfBits))
    (destination : Exec (BitVec 4)) : Exec Unit := do
  let rs ← source
  let rd ← Reg sz (← destination)
  SetFlags fun flags => (Sub rd rs flags).2

def unary (sz : Size)
    (f : BitVec sz.numberOfBits → Flags → BitVec sz.numberOfBits × Flags) : Exec Unit := do
  let rd ← bL
  let (result, flags) := f (← Reg sz rd) (← get).cpu.flags
  SetReg sz rd result
  SetFlags fun _ => flags

/-- The register that the upper half of the second byte selects. -/
def register (sz : Size) : Exec (BitVec sz.numberOfBits) := do Reg sz (← bH)

def imm32 : Exec (BitVec 32) := return (← cd) ++ (← ef)

-- ---------------------------------------------------------------------------
-- Moves
-- ---------------------------------------------------------------------------

def indirect (select : Exec (BitVec 4)) : Exec (BitVec 16) := do pointer (← select)

def abs8 : Exec (BitVec 16) := return (0xFF : Byte) ++ (← b)

def displaced (disp : Exec (BitVec 16)) (select : Exec (BitVec 4)) : Exec (BitVec 16) := do
  let disp ← disp
  return ((← Reg32 (← select)) + disp.signExtend 32).setWidth 16

def load (sz : Size) (address : Exec (BitVec 16)) (destination : Exec (BitVec 4)) : Exec Unit := do
  let address ← address
  let rd ← destination
  SetReg sz rd (← Read sz address)
  let value ← Reg sz rd
  SetFlags (MovFlags value)

def store (sz : Size) (address : Exec (BitVec 16)) (source : Exec (BitVec 4)) : Exec Unit := do
  let address ← address
  let rs ← source
  Write sz address (← Reg sz rs)
  let value ← Reg sz rs
  SetFlags (MovFlags value)

def advance (select : BitVec 4) (n : BitVec 32) : Exec Unit := do
  SetReg32 select ((← Reg32 select) + n)

/-- MOV.B and MOV.W from `@ERs+`: the flags come before the increment. -/
def loadIncrement (sz : Size) (n : BitVec 32) (source destination : Exec (BitVec 4)) :
    Exec Unit := do
  let ers ← source
  let rd ← destination
  SetReg sz rd (← Read sz (← pointer ers))
  let value ← Reg sz rd
  SetFlags (MovFlags value)
  advance ers n

/-- MOV.L from `@ERs+`: the flags come after it. -/
def loadIncrementL (source destination : Exec (BitVec 4)) : Exec Unit := do
  let ers ← source
  let erd ← destination
  SetReg32 erd (← Read32 (← pointer ers))
  advance ers 4
  let value ← Reg32 erd
  SetFlags (MovFlags value)

def storeDecrement (sz : Size) (n : BitVec 32) (destination source : Exec (BitVec 4)) :
    Exec Unit := do
  let erd ← destination
  let rs ← source
  advance erd (-n)
  let address ← pointer erd
  Write sz address (← Reg sz rs)
  let value ← Reg sz rs
  SetFlags (MovFlags value)

-- ---------------------------------------------------------------------------
-- Branches
-- ---------------------------------------------------------------------------

def BRA (_ : Flags) : Bool := true
def BHI (flags : Flags) : Bool := !(flags.C || flags.Z)
def BLS (flags : Flags) : Bool := flags.C || flags.Z
def BCC (flags : Flags) : Bool := !flags.C
def BCS (flags : Flags) : Bool := flags.C
def BNE (flags : Flags) : Bool := !flags.Z
def BEQ (flags : Flags) : Bool := flags.Z
def BPL (flags : Flags) : Bool := !flags.N
def BMI (flags : Flags) : Bool := flags.N
def BGE (flags : Flags) : Bool := flags.N == flags.V
def BLT (flags : Flags) : Bool := flags.N != flags.V
def BGT (flags : Flags) : Bool := !(flags.Z || (flags.N != flags.V))
def BLE (flags : Flags) : Bool := flags.Z || (flags.N != flags.V)

def setPC (PC : BitVec 16) : Exec Unit := setCpu fun cpu => { cpu with PC := PC }

def jumpBy (disp : BitVec 16) : Exec Unit := setCpu fun cpu => { cpu with PC := cpu.PC + disp }

def disp8 : Exec (BitVec 16) := return (← b).signExtend 16

def branch (disp : Exec (BitVec 16)) (condition : Flags → Bool) : Exec Unit := do
  let disp ← disp
  if condition (← get).cpu.flags then jumpBy disp

/-- `(cpu.b() << 16) | cpu.cd()`, of which the program counter keeps 16 bits. -/
def abs24 : Exec (BitVec 16) := do
  let _ ← b
  cd

def call (n : BitVec 16) : Exec Unit := do Push16 ((← get).cpu.PC + n)

def bsr : Exec Unit := do
  call 2
  jumpBy (← disp8)

def jmp (target : Exec (BitVec 16)) : Exec Unit := do setPC (← target)

def jsr (n : BitVec 16) (target : Exec (BitVec 16)) : Exec Unit := do
  call n
  jmp target

def rts : Exec Unit := do setPC (← Pop16)

def rte : Exec Unit := do
  setPC (← Pop16)
  let CCR ← Pop16
  SetFlags fun _ => ofCCR (CCR.extractLsb' 8 8)

-- ---------------------------------------------------------------------------
-- The condition code register
-- ---------------------------------------------------------------------------

def control (f : Byte → Byte → Byte) : Exec Unit := do
  let imm ← b
  SetFlags fun flags => ofCCR (f (CCR flags) imm)

def sleep : Exec Unit := setCpu fun cpu => { cpu with sleep := true }

-- ---------------------------------------------------------------------------
-- Bits
-- ---------------------------------------------------------------------------

def bitMask (imm : BitVec 4) : Byte := 1 <<< imm.toNat

def bset (value : Byte) (imm : BitVec 4) : Byte := value ||| bitMask imm
def bclr (value : Byte) (imm : BitVec 4) : Byte := value &&& ~~~bitMask imm
def bnot (value : Byte) (imm : BitVec 4) : Byte := value ^^^ bitMask imm

/-- `bset` or `bclr`, after the carry. -/
def bst (flags : Flags) (value : Byte) (imm : BitVec 4) : Byte :=
  if flags.C then bset value imm else bclr value imm

def bitRegister (f : Flags → Byte → BitVec 4 → Byte) : Exec Unit := do
  let imm ← bH
  let rd ← bL
  SetReg .b rd (f (← get).cpu.flags (← Reg .b rd) imm)

def bsetRn : Exec Unit := do
  let rn : Byte ← Reg .b (← bH)
  let rd ← bL
  SetReg .b rd (bset (← Reg .b rd) (rn.setWidth 4 &&& 7))

def btst : Exec Unit := do
  let imm ← bH
  let rd : Byte ← Reg .b (← bL)
  SetFlags fun flags => { flags with Z := rd &&& bitMask imm == 0 }

def bld : Exec Unit := do
  let imm ← bH
  let rd : Byte ← Reg .b (← bL)
  SetFlags fun flags => { flags with C := rd.getLsbD imm.toNat }

def bitMemory (address : Exec (BitVec 16)) (f : Flags → Byte → BitVec 4 → Byte) : Exec Unit := do
  let address ← address
  let imm ← dH
  let value ← Read8 address
  Write8 address (f (← get).cpu.flags value imm)

def bldMemory (address : Exec (BitVec 16)) : Exec Unit := do
  let address ← address
  let imm ← dH
  let value ← Read8 address
  SetFlags fun flags => { flags with C := value &&& bitMask imm != 0 }

-- ---------------------------------------------------------------------------
-- Multiplication and division
-- ---------------------------------------------------------------------------

def mulxuB : Exec Unit := do
  let rs ← Reg .b (← bH)
  let rd ← bL
  let low := BitVec.setWidth 8 (← Reg .w rd)
  SetReg .w rd (low.setWidth 16 * BitVec.setWidth 16 rs)

def mulxuW : Exec Unit := do
  let rs ← Reg .w (← bH)
  let erd ← bL
  let low := BitVec.setWidth 16 (← Reg32 erd)
  SetReg32 erd (low.setWidth 32 * BitVec.setWidth 32 rs)

def mulxsW : Exec Unit := do
  let rs ← Reg .w (← dH)
  let erd ← dL
  let low := BitVec.setWidth 16 (← Reg32 erd)
  let result := low.signExtend 32 * BitVec.signExtend 32 rs
  SetReg32 erd result
  SetFlags fun flags => { flags with Z := result == 0, N := result.slt 0 }

/-- The quotient has 16 bits, of which the register has place for 8. -/
def divxuB : Exec Unit := do
  let rs ← Reg .b (← bH)
  let rd ← bL
  if BitVec.toNat rs = 0 then SetFlags fun flags => { flags with Z := true }
  else
    let dividend : BitVec 16 ← Reg .w rd
    let quotient := dividend / BitVec.setWidth 16 rs
    let remainder := dividend % BitVec.setWidth 16 rs
    SetReg .w rd (remainder <<< 8 ||| quotient)
    SetFlags fun flags => { flags with Z := quotient == 0, N := quotient &&& 0x80 != 0 }

def divxuW : Exec Unit := do
  let rs ← Reg .w (← bH)
  let erd ← bL
  if BitVec.toNat rs = 0 then SetFlags fun flags => { flags with Z := true }
  else
    let dividend ← Reg32 erd
    let quotient := (dividend / BitVec.setWidth 32 rs).setWidth 16
    let remainder := (dividend % BitVec.setWidth 32 rs).setWidth 16
    SetReg32 erd (remainder ++ quotient)
    SetFlags fun flags => { flags with Z := quotient == 0, N := quotient &&& NEGATIVE_MASK 16 != 0 }

/-- The division rounds towards zero, in 64 bits. -/
def divxsW : Exec Unit := do
  let rs ← Reg .w (← dH)
  let erd ← dL
  if BitVec.toNat rs = 0 then SetFlags fun flags => { flags with Z := true }
  else
    let dividend ← Reg32 erd
    let quotient := BitVec.ofInt 16 (dividend.toInt.tdiv (BitVec.toInt rs))
    let remainder := BitVec.ofInt 16 (dividend.toInt.tmod (BitVec.toInt rs))
    SetReg32 erd (remainder ++ quotient)
    SetFlags fun flags => { flags with Z := quotient == 0, N := quotient.slt 0 }

end PokeStroller.Soc
