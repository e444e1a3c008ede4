import PokeStroller.Walker.State
import PokeStroller.Walker.Memory

/-!
# The instruction set

The opcode switch of `runNextInstruction` in two halves: `decode` selects a
case from the fetched bytes, and `execute` (next module) is the case's body.
Register operands are the nibbles the source passes to `getRegRef*`.
-/

namespace PokeStroller

inductive Source
  | reg (rs : BitVec 4)
  | imm (value : BitVec 32)
  deriving DecidableEq, Repr

inductive Logic
  | and
  | or
  | xor
  deriving DecidableEq, Repr

inductive Shift
  | shll
  | shal
  | shlr
  | shar
  | rotxl
  | rotl
  deriving DecidableEq, Repr

inductive BitNumber
  | imm (n : BitVec 4)
  | reg (rn : BitVec 4)
  deriving DecidableEq, Repr

inductive BitTarget
  | reg (rd : BitVec 4)
  | ind (rd : BitVec 4)
  | abs8 (address : Byte)
  deriving DecidableEq, Repr

inductive Instr
  | nop
  | sleep
  /-- Falls out of the switch after `pc += 2`. -/
  | skip2
  /-- `return 1`. -/
  | unsupported
  /-- `pc += 2` and then `return 1`. -/
  | unsupported2
  -- Data transfer
  | movAbs16Load (sz : Size) (address : BitVec 16) (rd : BitVec 4)
  | movAbs16Store (sz : Size) (rs : BitVec 4) (address : BitVec 16)
  | movAbs8Load (address : Byte) (rd : BitVec 4)
  | movAbs8Store (rs : BitVec 4) (address : Byte)
  | movIndLoad (sz : Size) (rs rd : BitVec 4)
  | movIndStore (sz : Size) (rs rd : BitVec 4)
  | movPostInc (sz : Size) (rs rd : BitVec 4)
  | movPreDec (sz : Size) (rs rd : BitVec 4)
  | movDispLoad (sz : Size) (disp : BitVec 16) (rs rd : BitVec 4)
  | movDispStore (sz : Size) (rs : BitVec 4) (disp : BitVec 16) (rd : BitVec 4)
  | mov (sz : Size) (src : Source) (rd : BitVec 4)
  | ldc (src : Source)
  -- Arithmetic
  | add (sz : Size) (src : Source) (rd : BitVec 4)
  | sub (sz : Size) (src : Source) (rd : BitVec 4)
  | cmp (sz : Size) (src : Source) (rd : BitVec 4)
  | subx (rs rd : BitVec 4)
  | adds (k : BitVec 32) (rd : BitVec 4)
  | subs (k : BitVec 32) (rd : BitVec 4)
  | inc (sz : Size) (k : BitVec 32) (rd : BitVec 4)
  | dec (sz : Size) (k : BitVec 32) (rd : BitVec 4)
  | mulxuB (rs rd : BitVec 4)
  | mulxuW (rs rd : BitVec 4)
  | divxuB (rs rd : BitVec 4)
  | divxuW (rs rd : BitVec 4)
  | mulxsB (rs rd : BitVec 4)
  | mulxsW (rs rd : BitVec 4)
  | divxsB (rs rd : BitVec 4)
  | divxsW (rs rd : BitVec 4)
  -- Logic and shifts
  | logic (op : Logic) (sz : Size) (src : Source) (rd : BitVec 4)
  | shift (op : Shift) (sz : Size) (rd : BitVec 4)
  | not (sz : Size) (rd : BitVec 4)
  | neg (sz : Size) (rd : BitVec 4)
  | extuW (rd : BitVec 4)
  | extuL (rd : BitVec 4)
  | extsW (rd : BitVec 4)
  | extsL (rd : BitVec 4)
  -- Branches
  | bcc8 (cc : BitVec 4) (disp : BitVec 8)
  | bcc16 (cc : BitVec 4) (disp : BitVec 16)
  | jmpInd (er : BitVec 4)
  | jmpAbs (address : BitVec 32)
  | bsr8 (disp : BitVec 8)
  | bsr16 (disp : BitVec 16)
  | jsrInd (er : BitVec 4)
  | jsrAbs (address : BitVec 32)
  | rts
  | rte
  -- Bits
  | bset (bit : BitNumber) (target : BitTarget)
  | bclr (bit : BitNumber) (target : BitTarget)
  | bnotInd (bit : BitVec 4) (rd : BitVec 4)
  | bstReg (bit : BitVec 4) (rd : BitVec 4)
  | bstInd (bit : BitVec 4) (rd : BitVec 4)
  | btst (bit : BitVec 4) (rd : BitVec 4)
  | bld (bit : BitVec 4) (target : BitTarget)
  deriving DecidableEq, Repr

def hi4 (x : Byte) : BitVec 4 := x.extractLsb' 4 4
def lo4 (x : Byte) : BitVec 4 := x.extractLsb' 0 4

def hi8 (x : BitVec 16) : Byte := x.extractLsb' 8 8
def lo8 (x : BitVec 16) : Byte := x.extractLsb' 0 8

-- ---------------------------------------------------------------------------
-- The opcode switch
-- ---------------------------------------------------------------------------

/-- `case 0x01`, `bH = 0`: the 32-bit transfers and logic. -/
def decodeLong (c d : Byte) (ef : BitVec 16) : Instr :=
  let dH := hi4 d
  let dL := lo4 d
  match c.toNat with
  | 0x6b =>
    match dH.toNat with
    | 0x0 => .movAbs16Load .l ef dL
    | 0x8 => .movAbs16Store .l dL ef
    | _ => .unsupported
  | 0x6d => if regHigh dH then .movPreDec .l dL dH else .movPostInc .l dH dL
  | 0x6f => if regHigh dH then .movDispStore .l dL ef dH else .movDispLoad .l ef dH dL
  | 0x69 => if regHigh dH then .movIndStore .l dL dH else .movIndLoad .l dH dL
  | 0x66 => .logic .and .l (.reg dH) dL
  | 0x64 => .logic .or .l (.reg dH) dL
  | 0x65 => .logic .xor .l (.reg dH) dL
  | _ => .unsupported

/-- `case 0x01`. The prefixes `0x4` and `0xF` advance `pc` before they look
at the second word. -/
def decodePrefix01 (b : Byte) (cd ef : BitVec 16) : Instr :=
  let c := hi8 cd
  let d := lo8 cd
  let cH := hi4 c
  let cL := lo4 c
  let dH := hi4 d
  let dL := lo4 d
  let bL := lo4 b
  match (hi4 b).toNat with
  | 0x0 => decodeLong c d ef
  | 0x4 =>
    if bL = 0 ∧ cH = 0x6 then
      match cL.toNat with
      | 0x9 | 0xb | 0xd | 0xf => .skip2
      | _ => .unsupported2
    else .skip2
  | 0x8 => .sleep
  | 0xc =>
    if bL = 0 ∧ cH = 0x5 then
      match cL.toNat with
      | 0x0 => .mulxsB dH dL
      | 0x2 => .mulxsW dH dL
      | _ => .unsupported
    else .nop
  | 0xd =>
    if bL = 0 ∧ cH = 0x5 then
      match cL.toNat with
      | 0x1 => .divxsB dH dL
      | 0x3 => .divxsW dH dL
      | _ => .unsupported
    else .nop
  | 0xf => if bL = 0 ∧ cH = 0x6 then .unsupported2 else .skip2
  | _ => .unsupported

def decode0 (aL : BitVec 4) (b : Byte) (cd ef : BitVec 16) : Instr :=
  let bH := hi4 b
  let bL := lo4 b
  match aL.toNat with
  | 0x0 => .nop
  | 0x1 => decodePrefix01 b cd ef
  | 0x3 => .ldc (.reg bL)
  | 0x7 => .ldc (.imm (b.setWidth 32))
  | 0x8 => .add .b (.reg bH) bL
  | 0x9 => .add .w (.reg bH) bL
  | 0xa =>
    if bH = 0 then .inc .b 1 bL
    else if regHigh bH then .add .l (.reg bH) bL
    else .unsupported
  | 0xb =>
    match bH.toNat with
    | 0x0 => .adds 1 bL
    | 0x8 => .adds 2 bL
    | 0x9 => .adds 4 bL
    | 0x5 => .inc .w 1 bL
    | 0x7 => .inc .l 1 bL
    | 0xd => .inc .w 2 bL
    | 0xf => .inc .l 2 bL
    | _ => .unsupported
  | 0xc => .mov .b (.reg bH) bL
  | 0xd => .mov .w (.reg bH) bL
  | 0xf => if regHigh bH then .mov .l (.reg bH) bL else .unsupported
  -- 0x2 STC, 0x4 ORC, 0x5 XORC, 0x6 ANDC, 0xe ADDX
  | _ => .unsupported

def decode1 (aL : BitVec 4) (b : Byte) : Instr :=
  let bH := hi4 b
  let bL := lo4 b
  match aL.toNat with
  | 0x0 =>
    match bH.toNat with
    | 0x0 => .shift .shll .b bL
    | 0x1 => .shift .shll .w bL
    | 0x3 => .shift .shll .l bL
    | 0x8 => .shift .shal .b bL
    | 0x9 => .shift .shal .w bL
    | 0xb => .shift .shal .l bL
    | _ => .unsupported
  | 0x1 =>
    match bH.toNat with
    | 0x0 => .shift .shlr .b bL
    | 0x1 => .shift .shlr .w bL
    | 0x3 => .shift .shlr .l bL
    | 0x9 => .shift .shar .w bL
    | 0xb => .shift .shar .l bL
    | _ => .unsupported
  | 0x2 =>
    match bH.toNat with
    | 0x0 => .shift .rotxl .b bL
    | 0x1 => .shift .rotxl .w bL
    | 0x3 => .shift .rotxl .l bL
    | 0x8 => .shift .rotl .b bL
    | 0x9 => .shift .rotl .w bL
    | 0xb => .shift .rotl .l bL
    | _ => .unsupported
  | 0x4 => .logic .or .b (.reg bH) bL
  | 0x5 => .logic .xor .b (.reg bH) bL
  | 0x6 => .logic .and .b (.reg bH) bL
  | 0x7 =>
    match bH.toNat with
    | 0x0 => .not .b bL
    | 0x1 => .not .w bL
    | 0x5 => .extuW bL
    | 0x7 => .extuL bL
    | 0x8 => .neg .b bL
    | 0x9 => .neg .w bL
    | 0xd => .extsW bL
    | 0xf => .extsL bL
    | _ => .unsupported
  | 0x8 => .sub .b (.reg bH) bL
  | 0x9 => .sub .w (.reg bH) bL
  | 0xa =>
    if bH = 0 then .dec .b 1 bL
    else if regHigh bH then .sub .l (.reg bH) bL
    else .unsupported
  | 0xb =>
    match bH.toNat with
    | 0x0 => .subs 1 bL
    | 0x8 => .subs 2 bL
    | 0x9 => .subs 4 bL
    | 0x5 => .dec .w 1 bL
    | 0x7 => .dec .l 1 bL
    | 0xd => .dec .w 2 bL
    | 0xf => .dec .l 2 bL
    | _ => .unsupported
  | 0xc => .cmp .b (.reg bH) bL
  | 0xd => .cmp .w (.reg bH) bL
  | 0xe => .subx bH bL
  | 0xf => if regHigh bH then .cmp .l (.reg bH) bL else .unsupported
  -- 0x3 ROTR and ROTXR
  | _ => .unsupported

def decode5 (aL : BitVec 4) (b : Byte) (cd : BitVec 16) : Instr :=
  let bH := hi4 b
  let bL := lo4 b
  match aL.toNat with
  | 0x0 => .mulxuB bH bL
  | 0x1 => .divxuB bH bL
  | 0x2 => .mulxuW bH bL
  | 0x3 => .divxuW bH bL
  | 0x4 => .rts
  | 0x5 => .bsr8 b
  | 0x6 => .rte
  | 0x8 => .bcc16 bH cd
  | 0x9 => .jmpInd bH
  | 0xa => .jmpAbs ((b.setWidth 32 <<< 16) ||| cd.setWidth 32)
  | 0xb => .nop
  | 0xc => .bsr16 cd
  | 0xd => .jsrInd bH
  | 0xe => .jsrAbs ((b.setWidth 32 <<< 16) ||| cd.setWidth 32)
  | 0xf => .nop
  -- 0x7 TRAPA
  | _ => .unsupported

def decode6 (aL : BitVec 4) (b : Byte) (cd : BitVec 16) : Instr :=
  let bH := hi4 b
  let bL := lo4 b
  match aL.toNat with
  | 0x0 => .bset (.reg bH) (.reg bL)
  | 0x2 => .bclr (.reg bH) (.reg bL)
  | 0x4 => .logic .or .w (.reg bH) bL
  | 0x5 => .logic .xor .w (.reg bH) bL
  | 0x6 => .logic .and .w (.reg bH) bL
  -- `bH >> 7` is zero for a nibble, so the BIST branch is never taken
  | 0x7 => .bstReg bH bL
  | 0x8 => if regHigh bH then .movIndStore .b bL bH else .movIndLoad .b bH bL
  | 0x9 => if regHigh bH then .movIndStore .w bL bH else .movIndLoad .w bH bL
  | 0xa =>
    match bH.toNat with
    | 0x0 => .movAbs16Load .b cd bL
    | 0x8 => .movAbs16Store .b bL cd
    | _ => .unsupported
  | 0xb =>
    match bH.toNat with
    | 0x0 => .movAbs16Load .w cd bL
    | 0x8 => .movAbs16Store .w bL cd
    | _ => .unsupported
  | 0xc => if regHigh bH then .movPreDec .b bL bH else .movPostInc .b bH bL
  | 0xd => if regHigh bH then .movPreDec .w bL bH else .movPostInc .w bH bL
  | 0xe => if regHigh bH then .movDispStore .b bL cd bH else .movDispLoad .b cd bH bL
  | 0xf => if regHigh bH then .movDispStore .w bL cd bH else .movDispLoad .w cd bH bL
  -- 0x1 BNOT, 0x3 BTST
  | _ => .unsupported

def decodeImmediate (sz : Size) (bH bL : BitVec 4) (value : BitVec 32) : Instr :=
  match bH.toNat with
  | 0x0 => .mov sz (.imm value) bL
  | 0x1 => .add sz (.imm value) bL
  | 0x2 => .cmp sz (.imm value) bL
  | 0x3 => .sub sz (.imm value) bL
  | 0x4 => .logic .or sz (.imm value) bL
  | 0x5 => .logic .xor sz (.imm value) bL
  | 0x6 => .logic .and sz (.imm value) bL
  | _ => .unsupported

def decode7 (aL : BitVec 4) (b : Byte) (cd ef : BitVec 16) : Instr :=
  let bH := hi4 b
  let bL := lo4 b
  let c := hi8 cd
  let dH := hi4 (lo8 cd)
  match aL.toNat with
  | 0x0 => .bset (.imm bH) (.reg bL)
  | 0x2 => .bclr (.imm bH) (.reg bL)
  | 0x3 => .btst bH bL
  -- as above, BILD is never selected
  | 0x7 => .bld bH (.reg bL)
  | 0x9 => decodeImmediate .w bH bL (cd.setWidth 32)
  | 0xa => decodeImmediate .l bH bL (cd ++ ef)
  | 0xc => if c = 0x77 then .bld dH (.ind bH) else .unsupported
  | 0xd =>
    match c.toNat with
    | 0x70 => .bset (.imm dH) (.ind bH)
    | 0x60 => .bset (.reg dH) (.ind bH)
    | 0x71 => .bnotInd dH bH
    | 0x72 => .bclr (.imm dH) (.ind bH)
    | 0x62 => .bclr (.reg dH) (.ind bH)
    | 0x67 => .bstInd dH bH
    | _ => .unsupported
  | 0xe =>
    match (hi4 c).toNat with
    | 0x6 => .unsupported
    | 0x7 => if lo4 c = 0x7 then .bld dH (.abs8 b) else .unsupported
    | _ => .skip2
  | 0xf =>
    match c.toNat with
    | 0x70 => .bset (.imm dH) (.abs8 b)
    | 0x60 => .bset (.reg dH) (.abs8 b)
    | 0x72 => .bclr (.imm dH) (.abs8 b)
    | 0x62 => .bclr (.reg dH) (.abs8 b)
    | _ => .unsupported
  -- 0x1 BNOT, 0x4 BOR, 0x5 BXOR, 0x6 BAND, 0x8 MOV, 0xb EEPMOV
  | _ => .unsupported

/-- The case of the opcode switch that the six fetched bytes select. -/
def decode (ab cd ef : BitVec 16) : Instr :=
  let a := hi8 ab
  let b := lo8 ab
  let aL := lo4 a
  match (hi4 a).toNat with
  | 0x0 => decode0 aL b cd ef
  | 0x1 => decode1 aL b
  | 0x2 => .movAbs8Load b aL
  | 0x3 => .movAbs8Store aL b
  | 0x4 => if aL = 0x1 then .unsupported else .bcc8 aL b
  | 0x5 => decode5 aL b cd
  | 0x6 => decode6 aL b cd
  | 0x7 => decode7 aL b cd ef
  | 0x8 => .add .b (.imm (b.setWidth 32)) aL
  | 0xa => .cmp .b (.imm (b.setWidth 32)) aL
  | 0xc => .logic .or .b (.imm (b.setWidth 32)) aL
  | 0xd => .logic .xor .b (.imm (b.setWidth 32)) aL
  | 0xe => .logic .and .b (.imm (b.setWidth 32)) aL
  | 0xf => .mov .b (.imm (b.setWidth 32)) aL
  -- 0x9 ADDX, 0xb SUBX
  | _ => .unsupported

end PokeStroller
