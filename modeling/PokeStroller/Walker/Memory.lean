import PokeStroller.Walker.State

/-!
# Memory and registers

The memory bus (`setMemory*`, `getMemory*`), the register references of
regRef.h and the bit helper `clearBit8`.
-/

namespace PokeStroller

-- ---------------------------------------------------------------------------
-- The memory bus
-- ---------------------------------------------------------------------------

/-- `address & 0x0000ffff`: the emulator has one 64 KiB block. -/
def maskAddress (address : BitVec 32) : BitVec 16 := address.setWidth 16

def setMemory8 (m : Memory) (address : BitVec 32) (value : Byte) : Memory :=
  Function.update m (maskAddress address) value

def setMemory16 (m : Memory) (address : BitVec 32) (value : BitVec 16) : Memory :=
  let m := Function.update m (maskAddress address) ((value >>> 8).setWidth 8)
  Function.update m (maskAddress address + 1) (value.setWidth 8)

def setMemory32 (m : Memory) (address : BitVec 32) (value : BitVec 32) : Memory :=
  let m := Function.update m (maskAddress address) ((value >>> 24).setWidth 8)
  let m := Function.update m (maskAddress address + 1) ((value >>> 16).setWidth 8)
  let m := Function.update m (maskAddress address + 2) ((value >>> 8).setWidth 8)
  Function.update m (maskAddress address + 3) (value.setWidth 8)

def getMemory8 (m : Memory) (address : BitVec 32) : Byte := m (maskAddress address)

def getMemory16 (m : Memory) (address : BitVec 32) : BitVec 16 :=
  m (maskAddress address) ++ m (maskAddress address + 1)

def getMemory32 (m : Memory) (address : BitVec 32) : BitVec 32 :=
  m (maskAddress address) ++ m (maskAddress address + 1) ++
    m (maskAddress address + 2) ++ m (maskAddress address + 3)

def clearBit8 (operand : Byte) (bit : Nat) : Byte := operand &&& ~~~((1 : Byte) <<< bit)

def Byte.has (x mask : Byte) : Bool := x &&& mask != 0

theorem Byte.has_or (x y mask : Byte) : Byte.has (x ||| y) mask = (x.has mask || y.has mask) := by
  simp [Byte.has, BitVec.and_or_distrib_right, bne, Bool.beq_eq_decide_eq]

@[simp] theorem setMemory8_self (m : Memory) (address : BitVec 32) (v : Byte) :
    setMemory8 m address v (maskAddress address) = v := by
  simp [setMemory8]

theorem setMemory8_ne (m : Memory) (h : a ≠ maskAddress address) (v : Byte) :
    setMemory8 m address v a = m a := by
  simp [setMemory8, Function.update_of_ne h]

theorem setMemory16_ne (m : Memory) (value : BitVec 16) (h : a ≠ maskAddress address)
    (h' : a ≠ maskAddress address + 1) : setMemory16 m address value a = m a := by
  unfold setMemory16
  rw [Function.update_of_ne h', Function.update_of_ne h]

theorem getMemory16_setMemory16 (m : Memory) (address : BitVec 32) (value : BitVec 16) :
    getMemory16 (setMemory16 m address value) address = value := by
  have hne : maskAddress address ≠ maskAddress address + 1 := by bv_omega
  unfold getMemory16 setMemory16
  rw [Function.update_of_ne hne, Function.update_self, Function.update_self]
  apply BitVec.eq_of_getLsbD_eq
  intro i hi
  simp only [BitVec.getLsbD_append, BitVec.getLsbD_setWidth, BitVec.getLsbD_ushiftRight]
  grind

-- ---------------------------------------------------------------------------
-- Register references
-- ---------------------------------------------------------------------------

inductive Size
  | b
  | w
  | l
  deriving DecidableEq, Repr

def Size.numberOfBits : Size → Nat
  | .b => 8
  | .w => 16
  | .l => 32

def regIdx (operand : BitVec 4) : BitVec 3 := operand.setWidth 3

/-- `operand & 0b1000`: `l` among `h`/`l`, `e` among `r`/`e`. -/
def regHigh (operand : BitVec 4) : Bool := operand.getLsbD 3

def getReg8 (registers : Registers) (operand : BitVec 4) : Byte :=
  let er := registers (regIdx operand)
  if regHigh operand then er.extractLsb' 0 8 else er.extractLsb' 8 8

def setReg8 (registers : Registers) (operand : BitVec 4) (v : Byte) : Registers :=
  let er := registers (regIdx operand)
  Function.update registers (regIdx operand) <|
    if regHigh operand then er.extractLsb' 8 24 ++ v
    else er.extractLsb' 16 16 ++ v ++ er.extractLsb' 0 8

def getReg16 (registers : Registers) (operand : BitVec 4) : BitVec 16 :=
  let er := registers (regIdx operand)
  if regHigh operand then er.extractLsb' 16 16 else er.extractLsb' 0 16

def setReg16 (registers : Registers) (operand : BitVec 4) (v : BitVec 16) : Registers :=
  let er := registers (regIdx operand)
  Function.update registers (regIdx operand) <|
    if regHigh operand then v ++ er.extractLsb' 0 16 else er.extractLsb' 16 16 ++ v

def getReg32 (registers : Registers) (operand : BitVec 4) : BitVec 32 :=
  registers (regIdx operand)

def setReg32 (registers : Registers) (operand : BitVec 4) (v : BitVec 32) : Registers :=
  Function.update registers (regIdx operand) v

def getReg (registers : Registers) : Size → BitVec 4 → BitVec 32
  | .b, operand => (getReg8 registers operand).setWidth 32
  | .w, operand => (getReg16 registers operand).setWidth 32
  | .l, operand => getReg32 registers operand

def setReg (registers : Registers) (sz : Size) (operand : BitVec 4) (v : BitVec 32) : Registers :=
  match sz with
  | .b => setReg8 registers operand (v.setWidth 8)
  | .w => setReg16 registers operand (v.setWidth 16)
  | .l => setReg32 registers operand v

theorem getReg8_setReg8 (registers : Registers) (operand : BitVec 4) (v : Byte) :
    getReg8 (setReg8 registers operand v) operand = v := by
  unfold getReg8 setReg8
  rw [Function.update_self]
  split
  · exact BitVec.extractLsb'_append_eq_right
  · apply BitVec.eq_of_getLsbD_eq
    intro i hi
    rw [BitVec.getLsbD_extractLsb']
    grind

theorem getReg16_setReg16 (registers : Registers) (operand : BitVec 4) (v : BitVec 16) :
    getReg16 (setReg16 registers operand v) operand = v := by
  unfold getReg16 setReg16
  rw [Function.update_self]
  split
  · apply BitVec.eq_of_getLsbD_eq
    intro i hi
    rw [BitVec.getLsbD_extractLsb']
    grind
  · exact BitVec.extractLsb'_append_eq_right

theorem getReg32_setReg32 (registers : Registers) (operand : BitVec 4) (v : BitVec 32) :
    getReg32 (setReg32 registers operand v) operand = v := Function.update_self _ _ _

def SP : BitVec 4 := 7

end PokeStroller
