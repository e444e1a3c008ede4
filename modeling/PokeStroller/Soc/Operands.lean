import PokeStroller.Soc.Alu
import PokeStroller.Soc.Bus
import PokeStroller.Walker.Memory

/-!
# Operands

What the instructions of set.cpp read and write: the bytes at the program
counter, the registers, memory and the stack (cpu.h, cpu.cpp, registers.cpp).
`Reg8`, `Reg16` and `Reg32` are pointers in the source, here one function for
each size.
-/

namespace PokeStroller.Soc

-- ---------------------------------------------------------------------------
-- Bytes of the instruction
-- ---------------------------------------------------------------------------

namespace CPU

def byteAt (offset : BitVec 16) : Exec Byte := do Read8 ((← get).cpu.PC + offset)

def wordAt (offset : BitVec 16) : Exec (BitVec 16) := do Read16 ((← get).cpu.PC + offset)

def a : Exec Byte := byteAt 0
def b : Exec Byte := byteAt 1
def c : Exec Byte := byteAt 2
def d : Exec Byte := byteAt 3

def aH : Exec (BitVec 4) := return (← a).extractLsb' 4 4
def aL : Exec (BitVec 4) := return (← a).extractLsb' 0 4
def bH : Exec (BitVec 4) := return (← b).extractLsb' 4 4
def bL : Exec (BitVec 4) := return (← b).extractLsb' 0 4
def cH : Exec (BitVec 4) := return (← c).extractLsb' 4 4
def cL : Exec (BitVec 4) := return (← c).extractLsb' 0 4
def dH : Exec (BitVec 4) := return (← d).extractLsb' 4 4
def dL : Exec (BitVec 4) := return (← d).extractLsb' 0 4

def ab : Exec (BitVec 16) := wordAt 0
def cd : Exec (BitVec 16) := wordAt 2
def ef : Exec (BitVec 16) := wordAt 4

end CPU

-- ---------------------------------------------------------------------------
-- Registers
-- ---------------------------------------------------------------------------

def setCpu (f : CPU → CPU) : Exec Unit := modify fun s => { s with cpu := f s.cpu }

def CPU.reg (cpu : CPU) (select : BitVec 4) : (sz : Size) → BitVec sz.numberOfBits
  | .b => getReg8 cpu.registers select
  | .w => getReg16 cpu.registers select
  | .l => getReg32 cpu.registers select

def CPU.setReg (cpu : CPU) (select : BitVec 4) : (sz : Size) → BitVec sz.numberOfBits → CPU
  | .b, value => { cpu with registers := setReg8 cpu.registers select value }
  | .w, value => { cpu with registers := setReg16 cpu.registers select value }
  | .l, value => { cpu with registers := setReg32 cpu.registers select value }

/-- `*cpu.reg.Reg8(select)` and the like. -/
def Reg (sz : Size) (select : BitVec 4) : Exec (BitVec sz.numberOfBits) :=
  return (← get).cpu.reg select sz

/-- `*cpu.reg.Reg8(select) = value` and the like. -/
def SetReg (sz : Size) (select : BitVec 4) (value : BitVec sz.numberOfBits) : Exec Unit :=
  setCpu (·.setReg select sz value)

def Reg32 (select : BitVec 4) : Exec (BitVec 32) := Reg .l select
def SetReg32 (select : BitVec 4) (value : BitVec 32) : Exec Unit := SetReg .l select value

def SetFlags (f : Flags → Flags) : Exec Unit := setCpu fun cpu => { cpu with flags := f cpu.flags }

-- ---------------------------------------------------------------------------
-- Memory and the stack
-- ---------------------------------------------------------------------------

def Read : (sz : Size) → BitVec 16 → Exec (BitVec sz.numberOfBits)
  | .b, address => Read8 address
  | .w, address => Read16 address
  | .l, address => Read32 address

def Write : (sz : Size) → BitVec 16 → BitVec sz.numberOfBits → Exec Unit
  | .b, address, value => Write8 address value
  | .w, address, value => Write16 address value
  | .l, address, value => Write32 address value

/-- The 32 bits of a register as a 16-bit address. -/
def pointer (select : BitVec 4) : Exec (BitVec 16) := return (← Reg32 select).setWidth 16

def REG_SP_INDEX : BitVec 4 := 7

def Push16 (value : BitVec 16) : Exec Unit := do
  SetReg32 REG_SP_INDEX ((← Reg32 REG_SP_INDEX) - 2)
  Write16 (← pointer REG_SP_INDEX) value

def Pop16 : Exec (BitVec 16) := do
  let value ← Read16 (← pointer REG_SP_INDEX)
  SetReg32 REG_SP_INDEX ((← Reg32 REG_SP_INDEX) + 2)
  return value

end PokeStroller.Soc
