import PokeStroller.Soc.Instructions

/-!
# The instruction tables

The tables of set.cpp and their decoding (table.cpp). A table is named by the
digits that lead to it.
-/

namespace PokeStroller.Soc

open CPU

/-- `Add`, for one second key or several. -/
structure Entry where
  first : Nat
  seconds : List Nat
  instruction : Instruction

/-- `AddPattern`. -/
structure PatternEntry where
  first_value : Nat
  first_mask : Nat
  second_value : Nat
  second_mask : Nat
  instruction : Instruction

def PatternEntry.Matches (p : PatternEntry) (first second : Nat) : Bool :=
  first &&& p.first_mask == p.first_value && second &&& p.second_mask == p.second_value

/-- `AddSubtable`. -/
structure Subtable where
  first : Nat
  second : Nat
  Decode : Exec Instruction

structure InstructionTable where
  first_key : Exec Nat
  second_key : Exec Nat
  entries : List Entry := []
  subtables : List Subtable := []
  patterns : List PatternEntry := []

/-- A number as `std::hex` writes it. -/
def hex (n : Nat) : String := String.ofList (Nat.toDigits 16 n)

def invalidInstruction (PC first second : Nat) : String :=
  "Invalid instruction (PC, opcode) " ++ hex PC ++ " " ++ hex first ++ " " ++ hex second

namespace InstructionTable

def Lookup (t : InstructionTable) (first second : Nat) : Option Instruction :=
  match t.entries.find? fun e => e.first == first && e.seconds.contains second with
  | some e => some e.instruction
  | none => (t.patterns.find? fun p => p.Matches first second).map (·.instruction)

def Decode (t : InstructionTable) : Exec Instruction := do
  let first ← t.first_key
  let second ← t.second_key
  match t.subtables.find? fun u => u.first == first && u.second == second with
  | some u => u.Decode
  | none =>
    match t.Lookup first second with
    | some instruction => return instruction
    | none => throw (.exception (invalidInstruction (← get).cpu.PC.toNat first second))

end InstructionTable

-- ---------------------------------------------------------------------------
-- Keys
-- ---------------------------------------------------------------------------

def key4 (digit : Exec (BitVec 4)) : Exec Nat := return (← digit).toNat
def key8 (byte : Exec Byte) : Exec Nat := return (← byte).toNat

def topBit (digit : Exec (BitVec 4)) : Exec Nat := return (← digit).toNat >>> 3 &&& 1

def key20 : Exec Nat := return ((← ab) ++ (← cH)).toNat

-- ---------------------------------------------------------------------------
-- Tables
-- ---------------------------------------------------------------------------

def table0A : InstructionTable where
  first_key := key8 a
  second_key := key4 bH
  entries := [
    ⟨0x0A, [0x0], "INC.B Rd", 2, ⟨1, 0, 0, 0, 0, 0⟩, unary .b (inc 1), false⟩,
    ⟨0x0A, [0x8, 0x9, 0xA, 0xB, 0xC, 0xD, 0xE, 0xF], "ADD.L ERs, ERd", 2, ⟨1, 0, 0, 0, 0, 0⟩,
      binary .l Add (register .l) bL, false⟩]

def table0B : InstructionTable where
  first_key := key8 a
  second_key := key4 bH
  entries := [
    ⟨0x0B, [0x0], "ADDS #1, ERd", 2, ⟨1, 0, 0, 0, 0, 0⟩, unary .l (adds 1), false⟩,
    ⟨0x0B, [0x5], "INC.W #1, Rd", 2, ⟨1, 0, 0, 0, 0, 0⟩, unary .w (inc 1), false⟩,
    ⟨0x0B, [0xD], "INC.W #2, Rd", 2, ⟨1, 0, 0, 0, 0, 0⟩, unary .w (inc 2), false⟩,
    ⟨0x0B, [0x7], "INC.L #1, ERd", 2, ⟨1, 0, 0, 0, 0, 0⟩, unary .l (inc 1), false⟩,
    ⟨0x0B, [0x8], "ADDS #2, ERd", 2, ⟨1, 0, 0, 0, 0, 0⟩, unary .l (adds 2), false⟩,
    ⟨0x0B, [0x9], "ADDS #4, ERd", 2, ⟨1, 0, 0, 0, 0, 0⟩, unary .l (adds 4), false⟩]

def table0F : InstructionTable where
  first_key := key8 a
  second_key := key4 bH
  entries := [
    ⟨0x0F, [0x8, 0x9, 0xA, 0xB, 0xC, 0xD, 0xE, 0xF], "MOV.L ERs, ERd", 2, ⟨1, 0, 0, 0, 0, 0⟩,
      binary .l mov (register .l) bL, false⟩]

def table010069 : InstructionTable where
  first_key := key8 c
  second_key := topBit dH
  entries := [
    ⟨0x69, [0x0], "MOV.L @ERs, ERd", 4, ⟨2, 0, 0, 0, 2, 0⟩, load .l (indirect dH) dL, false⟩,
    ⟨0x69, [0x1], "MOV.L ERs, @ERd", 4, ⟨2, 0, 0, 0, 2, 0⟩, store .l (indirect dH) dL, false⟩]

def table01006B : InstructionTable where
  first_key := key8 c
  second_key := key4 dH
  entries := [
    ⟨0x6B, [0x0], "MOV.L @aa:16, ERd", 6, ⟨3, 0, 0, 0, 2, 0⟩, load .l ef dL, false⟩,
    ⟨0x6B, [0x8], "MOV.L ERs, @aa:16", 6, ⟨3, 0, 0, 0, 2, 0⟩, store .l ef dL, false⟩]

def table01006D : InstructionTable where
  first_key := key8 c
  second_key := topBit dH
  entries := [
    ⟨0x6D, [0x1], "MOV.L ERs, @-ERd", 4, ⟨2, 0, 0, 0, 2, 2⟩, storeDecrement .l 4 dH dL, false⟩,
    ⟨0x6D, [0x0], "MOV.L @ERs+, ERd", 4, ⟨2, 0, 0, 0, 2, 2⟩, loadIncrementL dH dL, false⟩]

def table01006F : InstructionTable where
  first_key := key8 c
  second_key := topBit dH
  entries := [
    ⟨0x6F, [0x0], "MOV.L @(d:16,ERs), ERd", 6, ⟨3, 0, 0, 0, 2, 0⟩,
      load .l (displaced ef dH) dL, false⟩,
    ⟨0x6F, [0x1], "MOV.L ERs, @(d:16,ERd)", 6, ⟨3, 0, 0, 0, 2, 0⟩,
      store .l (displaced ef dH) dL, false⟩]

def table0100 : InstructionTable where
  first_key := key4 cH
  second_key := key4 cL
  subtables := [⟨0x6, 0x9, table010069.Decode⟩,
    ⟨0x6, 0xB, table01006B.Decode⟩,
    ⟨0x6, 0xD, table01006D.Decode⟩,
    ⟨0x6, 0xF, table01006F.Decode⟩]

def table01C : InstructionTable where
  first_key := key20
  second_key := key4 cL
  entries := [
    ⟨0x01C05, [0x2], "MULXS.W Rs, ERd", 4, ⟨2, 0, 0, 0, 0, 20⟩, mulxsW, false⟩]

def table01D : InstructionTable where
  first_key := key20
  second_key := key4 cL
  entries := [
    ⟨0x01D05, [0x3], "DIVXS.W Rs, ERd", 4, ⟨2, 0, 0, 0, 0, 20⟩, divxsW, false⟩]

def table01F : InstructionTable where
  first_key := key20
  second_key := key4 cL
  entries := [
    ⟨0x01F06, [0x5], "XOR.L ERs, ERd", 4, ⟨3, 0, 0, 0, 0, 0⟩,
      binary .l xor (do Reg .l (← dH)) dL, false⟩]

def table01 : InstructionTable where
  first_key := key8 a
  second_key := key4 bH
  subtables := [⟨0x1, 0x0, table0100.Decode⟩,
    ⟨0x1, 0xC, table01C.Decode⟩,
    ⟨0x1, 0xD, table01D.Decode⟩,
    ⟨0x1, 0xF, table01F.Decode⟩]
  entries := [
    ⟨0x01, [0x8], "SLEEP", 2, ⟨1, 0, 0, 0, 0, 0⟩, sleep, false⟩]

def table10 : InstructionTable where
  first_key := key8 a
  second_key := key4 bH
  entries := [
    ⟨0x10, [0x0], "SHLL.B Rd", 2, ⟨1, 0, 0, 0, 0, 0⟩, unary .b shll, false⟩,
    ⟨0x10, [0x1], "SHLL.W Rd", 2, ⟨1, 0, 0, 0, 0, 0⟩, unary .w shll, false⟩,
    ⟨0x10, [0x3], "SHLL.L ERd", 2, ⟨1, 0, 0, 0, 0, 0⟩, unary .l shll, false⟩]

def table11 : InstructionTable where
  first_key := key8 a
  second_key := key4 bH
  entries := [
    ⟨0x11, [0x0], "SHLR.B Rd", 2, ⟨1, 0, 0, 0, 0, 0⟩, unary .b shlr, false⟩,
    ⟨0x11, [0x1], "SHLR.W Rd", 2, ⟨1, 0, 0, 0, 0, 0⟩, unary .w shlr, false⟩,
    ⟨0x11, [0x3], "SHLR.L ERd", 2, ⟨1, 0, 0, 0, 0, 0⟩, unary .l shlr, false⟩,
    ⟨0x11, [0x9], "SHAR.W Rd", 2, ⟨1, 0, 0, 0, 0, 0⟩, unary .w shar, false⟩,
    ⟨0x11, [0xB], "SHAR.L ERd", 2, ⟨1, 0, 0, 0, 0, 0⟩, unary .l shar, false⟩]

def table12 : InstructionTable where
  first_key := key8 a
  second_key := key4 bH
  entries := [
    ⟨0x12, [0x8], "ROTL.B Rd", 2, ⟨1, 0, 0, 0, 0, 0⟩, unary .b rotl, false⟩,
    ⟨0x12, [0x9], "ROTL.W Rd", 2, ⟨1, 0, 0, 0, 0, 0⟩, unary .w rotl, false⟩]

def table17 : InstructionTable where
  first_key := key8 a
  second_key := key4 bH
  entries := [
    ⟨0x17, [0x0], "NOT.B Rd", 2, ⟨1, 0, 0, 0, 0, 0⟩, unary .b not, false⟩,
    ⟨0x17, [0x5], "EXTU.W Rd", 2, ⟨1, 0, 0, 0, 0, 0⟩, unary .w (extu 8), false⟩,
    ⟨0x17, [0x7], "EXTU.L ERd", 2, ⟨1, 0, 0, 0, 0, 0⟩, unary .l (extu 16), false⟩,
    ⟨0x17, [0x8], "NEG.B Rd", 2, ⟨1, 0, 0, 0, 0, 0⟩, unary .b neg, false⟩,
    ⟨0x17, [0x9], "NEG.W Rd", 2, ⟨1, 0, 0, 0, 0, 0⟩, unary .w neg, false⟩,
    ⟨0x17, [0xD], "EXTS.W Rd", 2, ⟨1, 0, 0, 0, 0, 0⟩, unary .w (exts 8), false⟩,
    ⟨0x17, [0xF], "EXTS.L ERd", 2, ⟨1, 0, 0, 0, 0, 0⟩, unary .l (exts 16), false⟩]

def table1A : InstructionTable where
  first_key := key8 a
  second_key := key4 bH
  entries := [
    ⟨0x1A, [0x0], "DEC.B Rd", 2, ⟨1, 0, 0, 0, 0, 0⟩, unary .b (dec 1), false⟩,
    ⟨0x1A, [0x8, 0x9, 0xA, 0xB, 0xC, 0xD, 0xE, 0xF], "SUB.L ERs, ERd", 2, ⟨1, 0, 0, 0, 0, 0⟩,
      binary .l Sub (register .l) bL, false⟩]

def table1B : InstructionTable where
  first_key := key8 a
  second_key := key4 bH
  entries := [
    ⟨0x1B, [0x5], "DEC.W #1, Rd", 2, ⟨1, 0, 0, 0, 0, 0⟩, unary .w (dec 1), false⟩,
    ⟨0x1B, [0x8], "SUBS #2, ERd", 2, ⟨1, 0, 0, 0, 0, 0⟩, unary .l (subs 2), false⟩,
    ⟨0x1B, [0x9], "SUBS #4, ERd", 2, ⟨1, 0, 0, 0, 0, 0⟩, unary .l (subs 4), false⟩]

def table1F : InstructionTable where
  first_key := key8 a
  second_key := key4 bH
  entries := [
    ⟨0x1F, [0x8, 0x9, 0xA, 0xB, 0xC, 0xD, 0xE, 0xF], "CMP.L ERs, ERd", 2, ⟨1, 0, 0, 0, 0, 0⟩,
      compare .l (register .l) bL, false⟩]

def table58 : InstructionTable where
  first_key := key8 a
  second_key := key4 bH
  entries := [
    ⟨0x58, [0x2], "BHI d:16", 4, ⟨2, 0, 0, 0, 0, 2⟩, branch cd BHI, false⟩,
    ⟨0x58, [0x3], "BLS d:16", 4, ⟨2, 0, 0, 0, 0, 2⟩, branch cd BLS, false⟩,
    ⟨0x58, [0x4], "BCC d:16", 4, ⟨2, 0, 0, 0, 0, 2⟩, branch cd BCC, false⟩,
    ⟨0x58, [0x5], "BCS d:16", 4, ⟨2, 0, 0, 0, 0, 2⟩, branch cd BCS, false⟩,
    ⟨0x58, [0x6], "BNE d:16", 4, ⟨2, 0, 0, 0, 0, 2⟩, branch cd BNE, false⟩,
    ⟨0x58, [0x7], "BEQ d:16", 4, ⟨2, 0, 0, 0, 0, 2⟩, branch cd BEQ, false⟩,
    ⟨0x58, [0xC], "BGE d:16", 4, ⟨2, 0, 0, 0, 0, 2⟩, branch cd BGE, false⟩,
    ⟨0x58, [0xD], "BLT d:16", 4, ⟨2, 0, 0, 0, 0, 2⟩, branch cd BLT, false⟩]

def table68 : InstructionTable where
  first_key := key8 a
  second_key := topBit bH
  entries := [
    ⟨0x68, [0x0], "MOV.B @ERs, Rd", 2, ⟨1, 0, 0, 1, 0, 0⟩, load .b (indirect bH) bL, false⟩,
    ⟨0x68, [0x1], "MOV.B Rs, @ERd", 2, ⟨1, 0, 0, 1, 0, 0⟩, store .b (indirect bH) bL, false⟩]

def table6A : InstructionTable where
  first_key := key8 a
  second_key := key4 bH
  entries := [
    ⟨0x6A, [0x0], "MOV.B @aa:16, Rd", 4, ⟨2, 0, 0, 1, 0, 0⟩, load .b cd bL, false⟩,
    ⟨0x6A, [0x8], "MOV.B Rs, @aa:16", 4, ⟨2, 0, 0, 1, 0, 0⟩, store .b cd bL, false⟩]

def table6C : InstructionTable where
  first_key := key8 a
  second_key := topBit bH
  entries := [
    ⟨0x6C, [0x0], "MOV.B @ERs+, Rd", 2, ⟨1, 0, 0, 1, 0, 2⟩, loadIncrement .b 1 bH bL, false⟩,
    ⟨0x6C, [0x1], "MOV.B Rs, @-ERd", 2, ⟨1, 0, 0, 1, 0, 2⟩, storeDecrement .b 1 bH bL, false⟩]

def table6E : InstructionTable where
  first_key := key8 a
  second_key := topBit bH
  entries := [
    ⟨0x6E, [0x0], "MOV.B @(d:16,ERs), Rd", 4, ⟨2, 0, 0, 1, 0, 0⟩,
      load .b (displaced cd bH) bL, false⟩,
    ⟨0x6E, [0x1], "MOV.B Rs, @(d:16,ERd)", 4, ⟨2, 0, 0, 1, 0, 0⟩,
      store .b (displaced cd bH) bL, false⟩]

def table69 : InstructionTable where
  first_key := key8 a
  second_key := topBit bH
  entries := [
    ⟨0x69, [0x0], "MOV.W @ERs, Rd", 2, ⟨1, 0, 0, 0, 1, 0⟩, load .w (indirect bH) bL, false⟩,
    ⟨0x69, [0x1], "MOV.W Rs, @ERd", 2, ⟨1, 0, 0, 0, 1, 0⟩, store .w (indirect bH) bL, false⟩]

def table6B : InstructionTable where
  first_key := key8 a
  second_key := key4 bH
  entries := [
    ⟨0x6B, [0x0], "MOV.W @aa:16, Rd", 4, ⟨2, 0, 0, 0, 1, 0⟩, load .w cd bL, false⟩,
    ⟨0x6B, [0x8], "MOV.W Rs, @aa:16", 4, ⟨2, 0, 0, 0, 1, 0⟩, store .w cd bL, false⟩]

def table6D : InstructionTable where
  first_key := key8 a
  second_key := topBit bH
  entries := [
    ⟨0x6D, [0x0], "MOV.W @ERs+, Rd", 2, ⟨1, 0, 0, 0, 1, 2⟩, loadIncrement .w 2 bH bL, false⟩,
    ⟨0x6D, [0x1], "MOV.W Rs, @-ERd", 2, ⟨1, 0, 0, 0, 1, 2⟩, storeDecrement .w 2 bH bL, false⟩]

def table6F : InstructionTable where
  first_key := key8 a
  second_key := topBit bH
  entries := [
    ⟨0x6F, [0x0], "MOV.W @(d:16,ERs), Rd", 4, ⟨2, 0, 0, 0, 1, 0⟩,
      load .w (displaced cd bH) bL, false⟩,
    ⟨0x6F, [0x1], "MOV.W Rs, @(d:16,ERd)", 4, ⟨2, 0, 0, 0, 1, 0⟩,
      store .w (displaced cd bH) bL, false⟩]

def table79 : InstructionTable where
  first_key := key8 a
  second_key := key4 bH
  entries := [
    ⟨0x79, [0x0], "MOV.W #xx:16, Rd", 4, ⟨2, 0, 0, 0, 0, 0⟩, binary .w mov cd bL, false⟩,
    ⟨0x79, [0x1], "ADD.W #xx:16, Rd", 4, ⟨2, 0, 0, 0, 0, 0⟩, binary .w Add cd bL, false⟩,
    ⟨0x79, [0x2], "CMP.W #xx:16, Rd", 4, ⟨2, 0, 0, 0, 0, 0⟩, compare .w cd bL, false⟩,
    ⟨0x79, [0x3], "SUB.W #xx:16, Rd", 4, ⟨2, 0, 0, 0, 0, 0⟩, binary .w Sub cd bL, false⟩,
    ⟨0x79, [0x4], "OR.W #xx:16, Rd", 4, ⟨2, 0, 0, 0, 0, 0⟩, binary .w or cd bL, false⟩,
    ⟨0x79, [0x6], "AND.W #xx:16, Rd", 4, ⟨2, 0, 0, 0, 0, 0⟩, binary .w and cd bL, false⟩]

def table7A : InstructionTable where
  first_key := key8 a
  second_key := key4 bH
  entries := [
    ⟨0x7A, [0x0], "MOV.L #xx:32, ERd", 6, ⟨3, 0, 0, 0, 0, 0⟩, binary .l mov imm32 bL, false⟩,
    ⟨0x7A, [0x1], "ADD.L #xx:32, ERd", 6, ⟨3, 0, 0, 0, 0, 0⟩, binary .l Add imm32 bL, false⟩,
    ⟨0x7A, [0x2], "CMP.L #xx:32, ERd", 6, ⟨3, 0, 0, 0, 0, 0⟩, compare .l imm32 bL, false⟩,
    ⟨0x7A, [0x6], "AND.L #xx:32, ERd", 6, ⟨3, 0, 0, 0, 0, 0⟩, binary .l and imm32 bL, false⟩]

def table7C : InstructionTable where
  first_key := key20
  second_key := key4 cL
  patterns := [
    ⟨0x7C007, 0xFF0FF, 0x07, 0xFF, "BLD #xx:3, @ERd", 4, ⟨2, 0, 0, 2, 0, 0⟩,
      bldMemory (indirect bH), false⟩]

def table7D : InstructionTable where
  first_key := key20
  second_key := key4 cL
  patterns := [
    ⟨0x7D006, 0xFF0FF, 0x07, 0xFF, "BST #xx:3, @ERd", 4, ⟨2, 0, 0, 2, 0, 0⟩,
      bitMemory (indirect bH) bst, false⟩,
    ⟨0x7D007, 0xFF0FF, 0x00, 0xFF, "BSET #xx:3, @ERd", 4, ⟨2, 0, 0, 2, 0, 0⟩,
      bitMemory (indirect bH) fun _ => bset, false⟩,
    ⟨0x7D007, 0xFF0FF, 0x01, 0xFF, "BNOT #xx:3, @ERd", 4, ⟨2, 0, 0, 2, 0, 0⟩,
      bitMemory (indirect bH) fun _ => bnot, false⟩,
    ⟨0x7D007, 0xFF0FF, 0x02, 0xFF, "BCLR #xx:3, @ERd", 4, ⟨2, 0, 0, 2, 0, 0⟩,
      bitMemory (indirect bH) fun _ => bclr, false⟩]

def table7E : InstructionTable where
  first_key := key20
  second_key := key4 cL
  patterns := [
    ⟨0x7E007, 0xFF00F, 0x07, 0xFF, "BLD #xx:3, @aa:8", 4, ⟨2, 0, 0, 1, 0, 0⟩,
      bldMemory abs8, false⟩]

def table7F : InstructionTable where
  first_key := key20
  second_key := key4 cL
  patterns := [
    ⟨0x7F007, 0xFF00F, 0x00, 0xFF, "BSET #xx:3, @aa:8", 4, ⟨2, 0, 0, 2, 0, 0⟩,
      bitMemory abs8 fun _ => bset, false⟩,
    ⟨0x7F007, 0xFF00F, 0x02, 0xFF, "BCLR #xx:3, @aa:8", 4, ⟨2, 0, 0, 2, 0, 0⟩,
      bitMemory abs8 fun _ => bclr, false⟩]

def root : InstructionTable where
  first_key := key4 aH
  second_key := key4 aL
  subtables := [⟨0x0, 0xA, table0A.Decode⟩,
    ⟨0x0, 0xB, table0B.Decode⟩,
    ⟨0x0, 0xF, table0F.Decode⟩,
    ⟨0x0, 0x1, table01.Decode⟩,
    ⟨0x1, 0x0, table10.Decode⟩,
    ⟨0x1, 0x1, table11.Decode⟩,
    ⟨0x1, 0x2, table12.Decode⟩,
    ⟨0x1, 0x7, table17.Decode⟩,
    ⟨0x1, 0xA, table1A.Decode⟩,
    ⟨0x1, 0xB, table1B.Decode⟩,
    ⟨0x1, 0xF, table1F.Decode⟩,
    ⟨0x5, 0x8, table58.Decode⟩,
    ⟨0x6, 0x8, table68.Decode⟩,
    ⟨0x6, 0x9, table69.Decode⟩,
    ⟨0x6, 0xA, table6A.Decode⟩,
    ⟨0x6, 0xB, table6B.Decode⟩,
    ⟨0x6, 0xC, table6C.Decode⟩,
    ⟨0x6, 0xD, table6D.Decode⟩,
    ⟨0x6, 0xE, table6E.Decode⟩,
    ⟨0x6, 0xF, table6F.Decode⟩,
    ⟨0x7, 0x9, table79.Decode⟩,
    ⟨0x7, 0xA, table7A.Decode⟩,
    ⟨0x7, 0xC, table7C.Decode⟩,
    ⟨0x7, 0xD, table7D.Decode⟩,
    ⟨0x7, 0xE, table7E.Decode⟩,
    ⟨0x7, 0xF, table7F.Decode⟩]
  entries := [
    ⟨0x0, [0x0], "NOP", 2, ⟨1, 0, 0, 0, 0, 0⟩, pure (), false⟩,
    ⟨0x0, [0x7], "LDC.B #xx:8, CCR", 2, ⟨1, 0, 0, 0, 0, 0⟩, control fun _ imm => imm, false⟩,
    ⟨0x0, [0x4], "ORC #xx:8, CCR", 2, ⟨1, 0, 0, 0, 0, 0⟩, control (· ||| ·), false⟩,
    ⟨0x0, [0x5], "XORC #xx:8, CCR", 2, ⟨1, 0, 0, 0, 0, 0⟩, control (· ^^^ ·), false⟩,
    ⟨0x0, [0x6], "ANDC #xx:8, CCR", 2, ⟨1, 0, 0, 0, 0, 0⟩, control (· &&& ·), false⟩,
    ⟨0x0, [0x8], "ADD.B Rs, Rd", 2, ⟨1, 0, 0, 0, 0, 0⟩, binary .b Add (register .b) bL, false⟩,
    ⟨0x0, [0x9], "ADD.W Rs, Rd", 2, ⟨1, 0, 0, 0, 0, 0⟩, binary .w Add (register .w) bL, false⟩,
    ⟨0x0, [0xC], "MOV.B Rs, Rd", 2, ⟨1, 0, 0, 0, 0, 0⟩, binary .b mov (register .b) bL, false⟩,
    ⟨0x0, [0xD], "MOV.W Rs, Rd", 2, ⟨1, 0, 0, 0, 0, 0⟩, binary .w mov (register .w) bL, false⟩,
    ⟨0x1, [0x4], "OR.B Rs, Rd", 2, ⟨1, 0, 0, 0, 0, 0⟩, binary .b or (register .b) bL, false⟩,
    ⟨0x1, [0x5], "XOR.B Rs, Rd", 2, ⟨1, 0, 0, 0, 0, 0⟩, binary .b xor (register .b) bL, false⟩,
    ⟨0x1, [0x6], "AND.B Rs, Rd", 2, ⟨1, 0, 0, 0, 0, 0⟩, binary .b and (register .b) bL, false⟩,
    ⟨0x1, [0x8], "SUB.B Rs, Rd", 2, ⟨1, 0, 0, 0, 0, 0⟩, binary .b Sub (register .b) bL, false⟩,
    ⟨0x1, [0x9], "SUB.W Rs, Rd", 2, ⟨1, 0, 0, 0, 0, 0⟩, binary .w Sub (register .w) bL, false⟩,
    ⟨0x1, [0xC], "CMP.B Rs, Rd", 2, ⟨1, 0, 0, 0, 0, 0⟩, compare .b (register .b) bL, false⟩,
    ⟨0x1, [0xD], "CMP.W Rs, Rd", 2, ⟨1, 0, 0, 0, 0, 0⟩, compare .w (register .w) bL, false⟩,
    ⟨0x1, [0xE], "SUBX Rs, Rd", 2, ⟨1, 0, 0, 0, 0, 0⟩, binary .b subx (register .b) bL, false⟩,
    ⟨0x2, List.range 16, "MOV.B @aa:8, Rd", 2, ⟨1, 0, 0, 1, 0, 0⟩, load .b abs8 aL, false⟩,
    ⟨0x3, List.range 16, "MOV.B Rs, @aa:8", 2, ⟨1, 0, 0, 1, 0, 0⟩, store .b abs8 aL, false⟩,
    ⟨0x4, [0x0], "BRA d:8", 2, ⟨2, 0, 0, 0, 0, 0⟩, branch disp8 BRA, false⟩,
    ⟨0x4, [0x2], "BHI d:8", 2, ⟨2, 0, 0, 0, 0, 0⟩, branch disp8 BHI, false⟩,
    ⟨0x4, [0x3], "BLS d:8", 2, ⟨2, 0, 0, 0, 0, 0⟩, branch disp8 BLS, false⟩,
    ⟨0x4, [0x4], "BCC d:8", 2, ⟨2, 0, 0, 0, 0, 0⟩, branch disp8 BCC, false⟩,
    ⟨0x4, [0x5], "BCS d:8", 2, ⟨2, 0, 0, 0, 0, 0⟩, branch disp8 BCS, false⟩,
    ⟨0x4, [0x6], "BNE d:8", 2, ⟨2, 0, 0, 0, 0, 0⟩, branch disp8 BNE, false⟩,
    ⟨0x4, [0x7], "BEQ d:8", 2, ⟨2, 0, 0, 0, 0, 0⟩, branch disp8 BEQ, false⟩,
    ⟨0x4, [0xA], "BPL d:8", 2, ⟨2, 0, 0, 0, 0, 0⟩, branch disp8 BPL, false⟩,
    ⟨0x4, [0xB], "BMI d:8", 2, ⟨2, 0, 0, 0, 0, 0⟩, branch disp8 BMI, false⟩,
    ⟨0x4, [0xC], "BGE d:8", 2, ⟨2, 0, 0, 0, 0, 0⟩, branch disp8 BGE, false⟩,
    ⟨0x4, [0xD], "BLT d:8", 2, ⟨2, 0, 0, 0, 0, 0⟩, branch disp8 BLT, false⟩,
    ⟨0x4, [0xE], "BGT d:8", 2, ⟨2, 0, 0, 0, 0, 0⟩, branch disp8 BGT, false⟩,
    ⟨0x4, [0xF], "BLE d:8", 2, ⟨2, 0, 0, 0, 0, 0⟩, branch disp8 BLE, false⟩,
    ⟨0x5, [0x0], "MULXU.B Rs, Rd", 2, ⟨1, 0, 0, 0, 0, 20⟩, mulxuB, false⟩,
    ⟨0x5, [0x1], "DIVXU.B Rs, Rd", 2, ⟨1, 0, 0, 0, 0, 12⟩, divxuB, false⟩,
    ⟨0x5, [0x2], "MULXU.W Rs, ERd", 2, ⟨1, 0, 0, 0, 0, 20⟩, mulxuW, false⟩,
    ⟨0x5, [0x3], "DIVXU.W Rs, ERd", 2, ⟨1, 0, 0, 0, 0, 20⟩, divxuW, false⟩,
    ⟨0x5, [0x4], "RTS", 2, ⟨2, 0, 1, 0, 0, 2⟩, rts, true⟩,
    ⟨0x5, [0x6], "RTE", 2, ⟨2, 0, 2, 0, 0, 2⟩, rte, true⟩,
    ⟨0x5, [0x5], "BSR d:8", 2, ⟨2, 0, 1, 0, 0, 0⟩, bsr, false⟩,
    ⟨0x5, [0x9], "JMP @ERn", 4, ⟨2, 0, 0, 0, 0, 2⟩, jmp (indirect bH), true⟩,
    ⟨0x5, [0xA], "JMP @aa:24", 4, ⟨2, 0, 0, 0, 0, 2⟩, jmp abs24, true⟩,
    ⟨0x5, [0xD], "JSR @ERn", 2, ⟨2, 0, 1, 0, 0, 0⟩, jsr 2 (indirect bH), true⟩,
    ⟨0x5, [0xE], "JSR @aa:24", 4, ⟨2, 0, 1, 0, 0, 2⟩, jsr 4 abs24, true⟩,
    ⟨0x6, [0x0], "BSET Rn, Rd", 2, ⟨1, 0, 0, 0, 0, 0⟩, bsetRn, false⟩,
    ⟨0x6, [0x4], "OR.W Rs, Rd", 2, ⟨1, 0, 0, 1, 0, 0⟩, binary .w or (register .w) bL, false⟩,
    ⟨0x6, [0x5], "XOR.W Rs, Rd", 2, ⟨1, 0, 0, 1, 0, 0⟩, binary .w xor (register .w) bL, false⟩,
    ⟨0x6, [0x6], "AND.W Rs, Rd", 2, ⟨1, 0, 0, 1, 0, 0⟩, binary .w and (register .w) bL, false⟩,
    ⟨0x6, [0x7], "BST #xx:3, Rd", 2, ⟨1, 0, 0, 1, 0, 0⟩, bitRegister bst, false⟩,
    ⟨0x7, [0x0], "BSET #xx:3, Rd", 2, ⟨1, 0, 0, 0, 0, 0⟩, bitRegister fun _ => bset, false⟩,
    ⟨0x7, [0x2], "BCLR #xx:3, Rd", 2, ⟨1, 0, 0, 0, 0, 0⟩, bitRegister fun _ => bclr, false⟩,
    ⟨0x7, [0x3], "BTST #xx:3, Rd", 2, ⟨1, 0, 0, 0, 0, 0⟩, btst, false⟩,
    ⟨0x7, [0x7], "BLD #xx:3, Rd", 2, ⟨1, 0, 0, 0, 0, 0⟩, bld, false⟩,
    ⟨0x8, List.range 16, "ADD.B #xx:8, Rd", 2, ⟨1, 0, 0, 0, 0, 0⟩, binary .b Add b aL, false⟩,
    ⟨0xA, List.range 16, "CMP.B #xx:8, Rd", 2, ⟨1, 0, 0, 0, 0, 0⟩, compare .b b aL, false⟩,
    ⟨0xC, List.range 16, "OR.B #xx:8, Rd", 2, ⟨1, 0, 0, 0, 0, 0⟩, binary .b or b aL, false⟩,
    ⟨0xD, List.range 16, "XOR.B #xx:8, Rd", 2, ⟨1, 0, 0, 0, 0, 0⟩, binary .b xor b aL, false⟩,
    ⟨0xE, List.range 16, "AND.B #xx:8, Rd", 2, ⟨1, 0, 0, 0, 0, 0⟩, binary .b and b aL, false⟩,
    ⟨0xF, List.range 16, "MOV.B #xx:8, Rd", 2, ⟨1, 0, 0, 0, 0, 0⟩, binary .b mov b aL, false⟩]

end PokeStroller.Soc
