import PokeStroller.Walker.Memory

/-!
# Condition flags

The flag functions of walker.c. Their arithmetic is in `uint32_t` at every
operand size, and a flag assignment converts to `bool`: any non-zero value is
true.
-/

namespace PokeStroller

def Size.negativeFlag : Size → BitVec 32
  | .b => 0x80
  | .w => 0x8000
  | .l => 0x80000000

def Size.maxValueLo : Size → BitVec 32
  | .b => 0xf
  | .w => 0xff
  | .l => 0xffff

def Size.halfCarryFlag : Size → BitVec 32
  | .b => 0x8
  | .w => 0x100
  | .l => 0x10000

def Size.truncate : Size → BitVec 32 → BitVec 32
  | .b, value => value &&& 0xff
  | .w, value => value &&& 0xffff
  | .l, value => value

def setFlags (value : Byte) : Flags where
  C := value.has (1 <<< 0)
  V := value.has (1 <<< 1)
  Z := value.has (1 <<< 2)
  N := value.has (1 <<< 3)
  U := value.has (1 <<< 4)
  H := value.has (1 <<< 5)
  UI := value.has (1 <<< 6)
  I := value.has (1 <<< 7)

def setFlagsADD (flags : Flags) (value1 value2 : BitVec 32) (sz : Size) : Flags :=
  { flags with
    Z := sz.truncate (value1 + value2) == 0
    N := sz.truncate (value1 + value2) &&& sz.negativeFlag != 0
    V := ~~~(value1 ^^^ value2) &&& ((value1 + value2) ^^^ value1) &&& sz.negativeFlag != 0
    C := (value1 &&& sz.negativeFlag != 0) && !(value2 &&& sz.negativeFlag != 0) &&
      !((value1 + value2) &&& sz.negativeFlag != 0)
    H := ((value1 &&& sz.maxValueLo) + (value2 &&& sz.maxValueLo)) &&& sz.halfCarryFlag ==
      sz.halfCarryFlag }

def setFlagsSUB (flags : Flags) (value1 value2 : BitVec 32) (sz : Size) : Flags :=
  { flags with
    N := sz.truncate (value1 - value2) &&& sz.negativeFlag != 0
    Z := value1 - value2 == 0
    V := ((value1 ^^^ value2) &&& sz.negativeFlag != 0) &&
      (~~~((value1 - value2) ^^^ value2) &&& sz.negativeFlag != 0)
    C := value1 < value2
    H := (value1 &&& sz.maxValueLo) < (value2 &&& sz.maxValueLo) }

def setFlagsINC (flags : Flags) (value1 value2 : BitVec 32) (sz : Size) : Flags :=
  { flags with
    N := (value1 + value2) &&& sz.negativeFlag != 0
    Z := value1 + value2 == 0
    V := ~~~(value1 ^^^ value2) &&& ((value1 + value2) ^^^ value1) &&& sz.negativeFlag != 0 }

def setFlagsMOV (flags : Flags) (value : BitVec 32) (sz : Size) : Flags :=
  { flags with
    V := false
    Z := value == 0
    N := value &&& sz.negativeFlag != 0 }

-- Only `setFlags` and RTE write the interrupt mask.
@[simp] theorem setFlagsADD_I : (setFlagsADD flags v w sz).I = flags.I := rfl
@[simp] theorem setFlagsSUB_I : (setFlagsSUB flags v w sz).I = flags.I := rfl
@[simp] theorem setFlagsINC_I : (setFlagsINC flags v w sz).I = flags.I := rfl
@[simp] theorem setFlagsMOV_I : (setFlagsMOV flags v sz).I = flags.I := rfl

end PokeStroller
