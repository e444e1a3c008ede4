import PokeStroller.Soc.State

/-!
# Arithmetic and flags

The member templates of `Registers` (registers.h), for operands of any width:
the result and the flags after it.
-/

namespace PokeStroller.Soc

def CCR (flags : Flags) : Byte :=
  BitVec.ofBool flags.I ++ BitVec.ofBool flags.UI ++ BitVec.ofBool flags.H ++
    BitVec.ofBool flags.U ++ BitVec.ofBool flags.N ++ BitVec.ofBool flags.Z ++
    BitVec.ofBool flags.V ++ BitVec.ofBool flags.C

def ofCCR (value : Byte) : Flags where
  C := value.getLsbD 0
  V := value.getLsbD 1
  Z := value.getLsbD 2
  N := value.getLsbD 3
  U := value.getLsbD 4
  H := value.getLsbD 5
  UI := value.getLsbD 6
  I := value.getLsbD 7

theorem ofCCR_CCR (flags : Flags) : ofCCR (CCR flags) = flags := by
  obtain ⟨I, UI, H, U, N, Z, V, C⟩ := flags
  revert I UI H U N Z V C
  decide

theorem CCR_ofCCR (value : Byte) : CCR (ofCCR value) = value := by
  revert value
  decide

def NEGATIVE_MASK (w : Nat) : BitVec w := BitVec.twoPow w (w - 1)

def HALF_MASK (w : Nat) : BitVec w := BitVec.twoPow w (w - 4)

variable {w : Nat}

def MovFlags (value : BitVec w) (flags : Flags) : Flags :=
  { flags with N := value &&& NEGATIVE_MASK w != 0, Z := value == 0, V := false }

def Add (rd rs : BitVec w) (flags : Flags) : BitVec w × Flags :=
  let sum := rd.toNat + rs.toNat
  let result := BitVec.ofNat w sum
  (result, { flags with
    Z := result == 0
    N := result &&& NEGATIVE_MASK w != 0
    V := ~~~(rd ^^^ rs) &&& (rd ^^^ result) &&& NEGATIVE_MASK w != 0
    C := decide (2 ^ w - 1 < sum)
    H := (rd ^^^ rs ^^^ result) &&& HALF_MASK w != 0 })

def Sub (rd rs : BitVec w) (flags : Flags) : BitVec w × Flags :=
  let result := rd - rs
  (result, { flags with
    Z := result == 0
    N := result &&& NEGATIVE_MASK w != 0
    V := (rd ^^^ rs) &&& (rd ^^^ result) &&& NEGATIVE_MASK w != 0
    C := decide (rd < rs)
    H := (rd ^^^ rs ^^^ result) &&& HALF_MASK w != 0 })

def Inc (value inc : BitVec w) (flags : Flags) : BitVec w × Flags :=
  let result := value + inc
  (result, { flags with
    N := result &&& NEGATIVE_MASK w != 0
    Z := result == 0
    V := ~~~(value ^^^ inc) &&& (value ^^^ result) &&& NEGATIVE_MASK w != 0 })

def Dec (value dec : BitVec w) (flags : Flags) : BitVec w × Flags :=
  let result := value - dec
  (result, { flags with
    N := result &&& NEGATIVE_MASK w != 0
    Z := result == 0
    V := (value ^^^ dec) &&& (value ^^^ result) &&& NEGATIVE_MASK w != 0 })

end PokeStroller.Soc
