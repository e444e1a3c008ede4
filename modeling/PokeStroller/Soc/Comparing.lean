import PokeStroller.Soc.Handlers
import PokeStroller.Walker.Compare

/-!
# Compare and branch in the core

A CMP and the Bcc after it, through decoding and two cycles of the processor. The
flags that the conditions read are the same as those of walker.c.
-/

namespace PokeStroller.Soc

open Exec

variable {s t : H838606} {sz : Size} {w : Nat}

-- ---------------------------------------------------------------------------
-- Flags
-- ---------------------------------------------------------------------------

theorem and_NEGATIVE_MASK (hw : 0 < w) (x : BitVec w) :
    (x &&& NEGATIVE_MASK w != 0) = x.getLsbD (w - 1) := by
  have hne : BitVec.twoPow w (w - 1) ≠ 0#w := by
    intro heq
    have hbit := congrArg (·.getLsbD (w - 1)) heq
    simp only [BitVec.getLsbD_twoPow, BitVec.getLsbD_zero] at hbit
    simp at hbit
    omega
  rw [NEGATIVE_MASK, BitVec.and_twoPow]
  cases x.getLsbD (w - 1) with
  | true => simpa using hne
  | false => simp

theorem numberOfBits_pos (sz : Size) : 0 < sz.numberOfBits := by cases sz <;> decide

theorem sign_setWidth (x : BitVec sz.numberOfBits) :
    sz.sign (x.setWidth 32) = x.getLsbD (sz.numberOfBits - 1) := by
  have hbit : sz.numberOfBits - 1 < 32 := by cases sz <;> decide
  unfold Size.sign
  rw [BitVec.getLsbD_setWidth, decide_eq_true hbit, Bool.true_and]

theorem sub_setWidth : (sz : Size) → (x y : BitVec sz.numberOfBits) →
    (x.setWidth 32 - y.setWidth 32).setWidth sz.numberOfBits = x - y
  | .b => fun (x y : BitVec 8) =>
    show (x.setWidth 32 - y.setWidth 32).setWidth 8 = x - y by bv_omega
  | .w => fun (x y : BitVec 16) =>
    show (x.setWidth 32 - y.setWidth 32).setWidth 16 = x - y by bv_omega
  | .l => fun (x y : BitVec 32) =>
    show (x.setWidth 32 - y.setWidth 32).setWidth 32 = x - y by bv_omega

theorem setWidth_lt : (sz : Size) → (x y : BitVec sz.numberOfBits) →
    (x.setWidth 32 < y.setWidth 32 ↔ x < y)
  | .b => fun (x y : BitVec 8) => show x.setWidth 32 < y.setWidth 32 ↔ x < y by bv_omega
  | .w => fun (x y : BitVec 16) => show x.setWidth 32 < y.setWidth 32 ↔ x < y by bv_omega
  | .l => fun (x y : BitVec 32) => show x.setWidth 32 < y.setWidth 32 ↔ x < y by bv_omega

theorem sub_setWidth_eq_zero : (sz : Size) → (x y : BitVec sz.numberOfBits) →
    (x.setWidth 32 - y.setWidth 32 = 0 ↔ x - y = 0)
  | .b => fun (x y : BitVec 8) => show x.setWidth 32 - y.setWidth 32 = 0 ↔ x - y = 0 by bv_omega
  | .w => fun (x y : BitVec 16) => show x.setWidth 32 - y.setWidth 32 = 0 ↔ x - y = 0 by bv_omega
  | .l => fun (x y : BitVec 32) => show x.setWidth 32 - y.setWidth 32 = 0 ↔ x - y = 0 by bv_omega

theorem sign_sub_setWidth (x y : BitVec sz.numberOfBits) :
    sz.sign (x.setWidth 32 - y.setWidth 32) = (x - y).getLsbD (sz.numberOfBits - 1) := by
  have hpos := numberOfBits_pos sz
  rw [← sub_setWidth, BitVec.getLsbD_setWidth, decide_eq_true (by omega), Bool.true_and]
  rfl

/-- The flags that the conditions read. -/
structure SameFlags (f g : Flags) : Prop where
  N : f.N = g.N
  Z : f.Z = g.Z
  V : f.V = g.V
  C : f.C = g.C

/-- CMP, SUB, SUBX and NEG set N, Z, V and C as walker.c does, at every size. -/
theorem Sub_agrees (rd rs : BitVec sz.numberOfBits) (f g : Flags) :
    SameFlags (Sub rd rs f).2 (setFlagsSUB g (rd.setWidth 32) (rs.setWidth 32) sz) := by
  have hpos := numberOfBits_pos sz
  refine ⟨?_, ?_, ?_, ?_⟩
  · simp only [Sub, setFlagsSUB, truncate_and_negativeFlag, and_negativeFlag, sign_sub_setWidth]
    exact and_NEGATIVE_MASK hpos _
  · rw [Bool.eq_iff_iff]
    exact (beq_iff_eq.trans (sub_setWidth_eq_zero sz rd rs).symm).trans beq_iff_eq.symm
  · simp only [Sub, setFlagsSUB, and_negativeFlag, sign_not, sign_xor, sign_sub_setWidth,
      sign_setWidth, and_NEGATIVE_MASK hpos, BitVec.getLsbD_and, BitVec.getLsbD_xor]
    cases rd.getLsbD (sz.numberOfBits - 1) <;> cases rs.getLsbD (sz.numberOfBits - 1) <;>
      cases (rd - rs).getLsbD (sz.numberOfBits - 1) <;> rfl
  · exact decide_eq_decide.mpr (setWidth_lt sz rd rs).symm

def condition : Comparison → Flags → Bool
  | .BHI => BHI
  | .BLS => BLS
  | .BCC => BCC
  | .BCS => BCS
  | .BNE => BNE
  | .BEQ => BEQ
  | .BGE => BGE
  | .BLT => BLT
  | .BGT => BGT
  | .BLE => BLE

theorem condition_eq (c : Comparison) (flags : Flags) :
    condition c flags = Cpu.condition8 c.cc flags := by
  obtain ⟨I, UI, H, U, N, Z, V, C⟩ := flags
  cases c <;> cases N <;> cases V <;> rfl

theorem condition_congr {f g : Flags} (h : SameFlags f g) (c : Comparison) :
    condition c f = condition c g := by
  obtain ⟨hN, hZ, hV, hC⟩ := h
  cases c <;>
    simp only [condition, BHI, BLS, BCC, BCS, BNE, BEQ, BGE, BLT, BGT, BLE, hN, hZ, hV, hC]

theorem setWidth_fits : (sz : Size) → (x : BitVec sz.numberOfBits) →
    (x.setWidth 32).toNat < sz.modulus
  | .b => fun (x : BitVec 8) => show (x.setWidth 32).toNat < 256 by bv_omega
  | .w => fun (x : BitVec 16) => show (x.setWidth 32).toNat < 65536 by bv_omega
  | .l => fun (x : BitVec 32) => show (x.setWidth 32).toNat < 4294967296 by bv_omega

/-- After a subtraction the conditions compare its operands. -/
theorem condition_Sub (c : Comparison) (rd rs : BitVec sz.numberOfBits) (flags : Flags) :
    condition c (Sub rd rs flags).2 =
      decide (c.Holds sz (rd.setWidth 32) (rs.setWidth 32)) := by
  rw [condition_congr (Sub_agrees rd rs flags flags), condition_eq,
    condition8_setFlagsSUB flags c (setWidth_fits sz rd) (setWidth_fits sz rs)]

-- ---------------------------------------------------------------------------
-- Code in the ROM
-- ---------------------------------------------------------------------------

/-- These bytes are in the ROM from `PC` on. -/
def CodeAt (s : H838606) : BitVec 16 → List Byte → Prop
  | _, [] => True
  | PC, byte :: bytes =>
    PC.toNat ≤ ROM_END ∧ s.rom (place PC) = byte ∧ CodeAt s (PC + 1) bytes

instance CodeAt.decidable (s : H838606) : (PC : BitVec 16) → (bytes : List Byte) →
    Decidable (CodeAt s PC bytes)
  | _, [] => .isTrue trivial
  | PC, _ :: bytes =>
    have := decidable s (PC + 1) bytes
    inferInstanceAs (Decidable (_ ∧ _ ∧ _))

theorem CodeAt.tail {PC : BitVec 16} (h : CodeAt s PC (byte :: bytes)) :
    CodeAt s (PC + 1) bytes :=
  h.2.2

theorem CodeAt.byteAt {PC : BitVec 16} (h : CodeAt s PC (byte :: bytes))
    (hPC : s.cpu.PC + offset = PC) : CPU.byteAt offset s = .ok byte s := by
  unfold CPU.byteAt
  rw [bind_ok (get_apply s), hPC, Read8_place h.1, h.2.1]

theorem CodeAt.wordAt {PC : BitVec 16} (h : CodeAt s PC (high :: low :: bytes))
    (hPC : s.cpu.PC + offset = PC) : CPU.wordAt offset s = .ok (high ++ low) s := by
  have hhigh : Read8 PC s = .ok high s := by rw [Read8_place h.1, h.2.1]
  have hlow : Read8 (PC + 1) s = .ok low s := by rw [Read8_place h.2.2.1, h.2.2.2.1]
  unfold CPU.wordAt Read16
  rw [bind_ok (get_apply s), hPC, bind_ok hhigh, bind_ok hlow]
  rfl

variable {x y : Byte} {bytes : List Byte}

theorem CodeAt.a (h : CodeAt s s.cpu.PC (x :: bytes)) : CPU.a s = .ok x s :=
  h.byteAt (BitVec.add_zero _)

theorem CodeAt.b (h : CodeAt s s.cpu.PC (x :: y :: bytes)) : CPU.b s = .ok y s :=
  CodeAt.byteAt h.tail rfl

theorem CodeAt.cd (h : CodeAt s s.cpu.PC (x :: y :: high :: low :: bytes)) :
    CPU.cd s = .ok (high ++ low) s :=
  CodeAt.wordAt h.tail.tail (by bv_omega)

theorem CodeAt.ef (h : CodeAt s s.cpu.PC (x :: y :: x' :: y' :: high :: low :: bytes)) :
    CPU.ef s = .ok (high ++ low) s :=
  CodeAt.wordAt h.tail.tail.tail.tail (by bv_omega)

/-- `Decode` once the keys are known. -/
def InstructionTable.Select (t : InstructionTable) (first second : Nat) : Exec Instruction :=
  match t.subtables.find? fun u => u.first == first && u.second == second with
  | some u => u.Decode
  | none =>
    match t.Lookup first second with
    | some instruction => return instruction
    | none => do throw (.exception (invalidInstruction (← get).cpu.PC.toNat first second))

theorem Decode_eq {t : InstructionTable} {first second : Nat} (hfirst : t.first_key s = .ok first s)
    (hsecond : t.second_key s = .ok second s) : t.Decode s = t.Select first second s := by
  unfold InstructionTable.Decode
  rw [bind_ok hfirst, bind_ok hsecond]
  rfl

theorem root_Decode (h : CPU.a s = .ok x s) :
    root.Decode s = root.Select (x.extractLsb' 4 4).toNat (x.extractLsb' 0 4).toNat s :=
  Decode_eq (bind_ok (bind_ok h)) (bind_ok (bind_ok h))

/-- A cycle whose instruction does not jump by itself. -/
theorem Cycle_of {instruction : Instruction} (hawake : s.cpu.sleep = false)
    (hdecode : root.Decode s = .ok instruction s) (hexecute : instruction.execute s = .ok ⟨⟩ t)
    (hstays : instruction.branch_absolute = false) :
    CPU.Cycle s = .ok (BitVec.ofNat 8 instruction.cycles.Count)
      (t.jumped (t.cpu.PC + BitVec.ofNat 16 instruction.size)) := by
  unfold CPU.Cycle CPU.advance
  rw [bind_ok (get_apply s), Exec.ite_neg (by rw [hawake]; decide), bind_ok hdecode,
    bind_ok hexecute, hstays]
  rfl

-- ---------------------------------------------------------------------------
-- CMP
-- ---------------------------------------------------------------------------

/-- What a CMP compares a register with. -/
inductive Operand (sz : Size)
  | reg (rs : BitVec 4)
  | imm (v : BitVec sz.numberOfBits)

namespace Operand

def value (s : H838606) : Operand sz → BitVec sz.numberOfBits
  | reg rs => s.cpu.reg rs sz
  | imm v => v

def wordBytes (v : BitVec 16) : List Byte := [v.extractLsb' 8 8, v.extractLsb' 0 8]

/-- The first bytes of an instruction by the size of its register operand, its first digit with
an immediate byte, and its second digit with more. -/
structure Codes where
  b : Byte
  w : Byte
  l : Byte
  byte : BitVec 4
  more : BitVec 4

/-- The bytes of an instruction; the digit of a 32-bit source is 8 or more. -/
def code (codes : Codes) (rd : BitVec 4) : {sz : Size} → Operand sz → List Byte
  | .b, reg rs => [codes.b, rs ++ rd]
  | .b, imm v => [codes.byte ++ rd, v]
  | .w, reg rs => [codes.w, rs ++ rd]
  | .w, imm v => 0x79 :: (codes.more ++ rd) :: wordBytes v
  | .l, reg rs => [codes.l, (rs ||| 8) ++ rd]
  | .l, imm v => 0x7A :: (codes.more ++ rd) ::
      (wordBytes (BitVec.extractLsb' 16 16 v) ++ wordBytes (BitVec.extractLsb' 0 16 v))

def CMP (rd : BitVec 4) (operand : Operand sz) : List Byte :=
  operand.code ⟨0x1C, 0x1D, 0x1F, 0xA, 0x2⟩ rd

def source : {sz : Size} → Operand sz → Exec (BitVec sz.numberOfBits)
  | .b, imm _ => CPU.b
  | .w, imm _ => CPU.cd
  | .l, imm _ => imm32
  | sz, reg _ => register sz

def destination : {sz : Size} → Operand sz → Exec (BitVec 4)
  | .b, imm _ => CPU.aL
  | _, _ => CPU.bL

end Operand

theorem digits_high (x y : BitVec 4) : (x ++ y : Byte).extractLsb' 4 4 = x :=
  BitVec.extractLsb'_append_eq_left

theorem digits_low (x y : BitVec 4) : (x ++ y : Byte).extractLsb' 0 4 = y :=
  BitVec.extractLsb'_append_eq_right

theorem digits_b {m n : BitVec 4} (h : CodeAt s s.cpu.PC (x :: (m ++ n : Byte) :: bytes)) :
    CPU.bH s = .ok m s ∧ CPU.bL s = .ok n s := by
  refine ⟨(bind_ok h.b).trans ?_, (bind_ok h.b).trans ?_⟩
  · rw [digits_high]
    rfl
  · rw [digits_low]
    rfl

/-- The digit of a 32-bit source names the same register without its highest bit. -/
theorem reg_or (cpu : CPU) (rs : BitVec 4) : cpu.reg (rs ||| 8) .l = cpu.reg rs .l := by
  have hidx : regIdx (rs ||| 8) = regIdx rs := by
    revert rs
    decide
  exact congrArg cpu.registers hidx

theorem word_append (v : BitVec 16) : v.extractLsb' 8 8 ++ v.extractLsb' 0 8 = v :=
  extract_append (n := 8) (m := 8) v

theorem Operand.reads {operand : Operand sz} {codes : Codes} {rd : BitVec 4}
    (h : CodeAt s s.cpu.PC (operand.code codes rd)) :
    operand.source s = .ok (operand.value s) s ∧ operand.destination s = .ok rd s := by
  cases sz with
  | b =>
    cases operand with
    | reg rs =>
      obtain ⟨hbH, hbL⟩ := digits_b h
      exact ⟨bind_ok hbH, hbL⟩
    | imm v => exact ⟨CodeAt.b h, (bind_ok (CodeAt.a h)).trans (by rw [digits_low]; rfl)⟩
  | w =>
    cases operand with
    | reg rs =>
      obtain ⟨hbH, hbL⟩ := digits_b h
      exact ⟨bind_ok hbH, hbL⟩
    | imm v =>
      obtain ⟨-, hbL⟩ := digits_b h
      exact ⟨(CodeAt.cd h).trans (congrArg (EStateM.Result.ok · s) (word_append v)), hbL⟩
  | l =>
    cases operand with
    | reg rs =>
      obtain ⟨hbH, hbL⟩ := digits_b h
      exact ⟨(bind_ok hbH).trans (congrArg (EStateM.Result.ok · s) (reg_or s.cpu rs)), hbL⟩
    | imm v =>
      obtain ⟨-, hbL⟩ := digits_b h
      have himm : imm32 s = .ok v s := by
        refine (bind_ok (CodeAt.cd h)).trans ((bind_ok (CodeAt.ef h)).trans
          (congrArg (EStateM.Result.ok · s) ?_))
        rw [word_append, word_append]
        exact extract_append (n := 16) (m := 16) v
      exact ⟨himm, hbL⟩

/-- The instruction at the program counter does this with its operands. -/
structure Decoded (s : H838606) (operand : Operand sz) (size : Nat)
    (run : Exec (BitVec sz.numberOfBits) → Exec (BitVec 4) → Exec Unit)
    (instruction : Instruction) : Prop where
  decode : root.Decode s = .ok instruction s
  execute : instruction.execute = run operand.source operand.destination
  size : instruction.size = size
  stays : instruction.branch_absolute = false

theorem interval_or (rs : BitVec 4) : 8 ≤ (rs ||| 8).toNat ∧ (rs ||| 8).toNat < 16 := by
  revert rs
  decide

theorem Select_A (rd : BitVec 4) (s : H838606) : root.Select 0xA rd.toNat s =
    .ok ⟨"CMP.B #xx:8, Rd", 2, ⟨1, 0, 0, 0, 0, 0⟩, compare .b CPU.b CPU.aL, false⟩ s := by
  obtain ⟨⟨n, hn⟩⟩ := rd
  interval_cases n <;> rfl

theorem Select_1F (rs : BitVec 4) (s : H838606) : table1F.Select 0x1F (rs ||| 8).toNat s =
    .ok ⟨"CMP.L ERs, ERd", 2, ⟨1, 0, 0, 0, 0, 0⟩, compare .l (register .l) CPU.bL, false⟩ s := by
  obtain ⟨hhigh, hlow⟩ := interval_or rs
  generalize (rs ||| 8).toNat = n at hhigh hlow
  interval_cases n <;> rfl

theorem table_Decode {t : InstructionTable} {m n : BitVec 4}
    (h : CodeAt s s.cpu.PC (x :: (m ++ n : Byte) :: bytes))
    (hroot : root.Select (x.extractLsb' 4 4).toNat (x.extractLsb' 0 4).toNat s = t.Decode s)
    (hfirst : t.first_key = key8 CPU.a) (hsecond : t.second_key = key4 CPU.bH) :
    root.Decode s = t.Select x.toNat m.toNat s := by
  obtain ⟨hbH, -⟩ := digits_b h
  refine ((root_Decode h.a).trans hroot).trans (Decode_eq ?_ ?_)
  · rw [hfirst]
    exact bind_ok h.a
  · rw [hsecond]
    exact bind_ok hbH

theorem CMP_decoded {operand : Operand sz} {rd : BitVec 4}
    (h : CodeAt s s.cpu.PC (operand.CMP rd)) :
    ∃ instruction, Decoded s operand (operand.CMP rd).length (compare sz) instruction := by
  cases sz with
  | b =>
    cases operand with
    | reg rs => exact ⟨_, (root_Decode (CodeAt.a h)).trans rfl, rfl, rfl, rfl⟩
    | imm v =>
      have hdecode := root_Decode (CodeAt.a h)
      rw [digits_high, digits_low] at hdecode
      exact ⟨_, hdecode.trans (Select_A rd s), rfl, rfl, rfl⟩
  | w =>
    cases operand with
    | reg rs => exact ⟨_, (root_Decode (CodeAt.a h)).trans rfl, rfl, rfl, rfl⟩
    | imm v => exact ⟨_, (table_Decode h (t := table79) rfl rfl rfl).trans rfl, rfl, rfl, rfl⟩
  | l =>
    cases operand with
    | reg rs =>
      have htable := table_Decode h (t := table1F) rfl rfl rfl
      exact ⟨_, htable.trans (Select_1F rs s), rfl, rfl, rfl⟩
    | imm v => exact ⟨_, (table_Decode h (t := table7A) rfl rfl rfl).trans rfl, rfl, rfl, rfl⟩

def H838606.compared (s : H838606) (rd : BitVec 4) (v : BitVec sz.numberOfBits) (size : Nat) :
    H838606 :=
  { s with cpu := { s.cpu with
      PC := s.cpu.PC + BitVec.ofNat 16 size
      flags := (Sub (s.cpu.reg rd sz) v s.cpu.flags).2 } }

theorem CMP_cycle (operand : Operand sz) (rd : BitVec 4) (hawake : s.cpu.sleep = false)
    (h : CodeAt s s.cpu.PC (operand.CMP rd)) :
    ∃ cycles, CPU.Cycle s = .ok cycles
      (s.compared rd (operand.value s) (operand.CMP rd).length) := by
  obtain ⟨hsource, hdestination⟩ := Operand.reads h
  obtain ⟨instruction, hdecoded⟩ := CMP_decoded h
  have hrd : Reg sz rd s = .ok (s.cpu.reg rd sz) s := rfl
  have hcompare : instruction.execute s = .ok ⟨⟩ { s with cpu := { s.cpu with
      flags := (Sub (s.cpu.reg rd sz) (operand.value s) s.cpu.flags).2 } } := by
    rw [hdecoded.execute]
    unfold compare
    rw [bind_ok hsource, bind_ok hdestination, bind_ok hrd]
    rfl
  have hcycle := Cycle_of hawake hdecoded.decode hcompare hdecoded.stays
  rw [hdecoded.size] at hcycle
  exact ⟨_, hcycle⟩

-- ---------------------------------------------------------------------------
-- Bcc
-- ---------------------------------------------------------------------------

def Bcc (c : Comparison) : Displacement → List Byte
  | .d8 disp => [(0x4 : BitVec 4) ++ c.cc, disp]
  | .d16 disp => 0x58 :: (c.cc ++ (0 : BitVec 4)) :: Operand.wordBytes disp

/-- The tables have neither BGT nor BLE with 16 bits. -/
def Tabled : Comparison → Displacement → Bool
  | .BGT, .d16 _ => false
  | .BLE, .d16 _ => false
  | _, _ => true

def H838606.branched (s : H838606) (c : Comparison) (disp : Displacement) : H838606 :=
  s.jumped (if condition c s.cpu.flags then disp.target s.cpu.PC else disp.next s.cpu.PC)

theorem Cycle_branch {instruction : Instruction} {disp : Displacement} {c : Comparison}
    (hawake : s.cpu.sleep = false) (hdecode : root.Decode s = .ok instruction s)
    (hexecute : instruction.execute = branch source (condition c))
    (hstays : instruction.branch_absolute = false) (hsource : source s = .ok d s)
    (hnext : disp.next s.cpu.PC = s.cpu.PC + BitVec.ofNat 16 instruction.size)
    (htarget : disp.target s.cpu.PC = s.cpu.PC + d + BitVec.ofNat 16 instruction.size) :
    ∃ cycles, CPU.Cycle s = .ok cycles (s.branched c disp) := by
  have hbranch : instruction.execute s = .ok ⟨⟩
      (if condition c s.cpu.flags then s.jumped (s.cpu.PC + d) else s) := by
    rw [hexecute]
    unfold branch
    rw [bind_ok hsource, bind_ok (get_apply s)]
    split <;> rfl
  refine ⟨_, (Cycle_of hawake hdecode hbranch hstays).trans (congrArg _ ?_)⟩
  unfold H838606.branched
  rw [hnext, htarget]
  split <;> rfl

theorem Select_Bcc8 (c : Comparison) (s : H838606) : ∃ instruction,
    root.Select 0x4 c.cc.toNat s = .ok instruction s ∧
      instruction.execute = branch disp8 (condition c) ∧ instruction.size = 2 ∧
      instruction.branch_absolute = false := by
  cases c <;> exact ⟨_, rfl, rfl, rfl, rfl⟩

theorem Select_Bcc16 {c : Comparison} (h : Tabled c (.d16 disp) = true) (s : H838606) :
    ∃ instruction, table58.Select 0x58 c.cc.toNat s = .ok instruction s ∧
      instruction.execute = branch CPU.cd (condition c) ∧ instruction.size = 4 ∧
      instruction.branch_absolute = false := by
  cases c with
  | BGT | BLE => cases h
  | _ => exact ⟨_, rfl, rfl, rfl, rfl⟩

theorem Bcc_cycle {c : Comparison} {disp : Displacement} (htabled : Tabled c disp = true)
    (hawake : s.cpu.sleep = false) (h : CodeAt s s.cpu.PC (Bcc c disp)) :
    ∃ cycles, CPU.Cycle s = .ok cycles (s.branched c disp) := by
  cases disp with
  | d8 disp =>
    obtain ⟨instruction, hselect, hexecute, hsize, hstays⟩ := Select_Bcc8 c s
    have hdecode := root_Decode (CodeAt.a h)
    rw [digits_high, digits_low] at hdecode
    refine Cycle_branch hawake (hdecode.trans hselect) hexecute hstays (bind_ok (CodeAt.b h)) ?_ ?_
    · rw [hsize]
      rfl
    · rw [hsize]
      change s.cpu.PC + 2 + _ = _ + 2
      bv_omega
  | d16 disp =>
    obtain ⟨instruction, hselect, hexecute, hsize, hstays⟩ := Select_Bcc16 htabled s
    have hcd : CPU.cd s = .ok disp s :=
      (CodeAt.cd h).trans (congrArg (EStateM.Result.ok · s) (word_append disp))
    have hdecode := table_Decode h (t := table58) rfl rfl rfl
    refine Cycle_branch hawake (hdecode.trans hselect) hexecute hstays hcd ?_ ?_
    · rw [hsize]
      rfl
    · rw [hsize]
      change s.cpu.PC + 4 + disp = _ + 4
      bv_omega

-- ---------------------------------------------------------------------------
-- Two cycles
-- ---------------------------------------------------------------------------

theorem CodeAt.compared {PC : BitVec 16} (h : CodeAt s PC bytes) (rd : BitVec 4)
    (v : BitVec sz.numberOfBits) (size : Nat) : CodeAt (s.compared rd v size) PC bytes := by
  induction bytes generalizing PC with
  | nil => trivial
  | cons byte bytes ih =>
    obtain ⟨hPC, hbyte, hrest⟩ := h
    exact ⟨hPC, hbyte, ih hrest⟩

/-- A CMP of any size and the Bcc after it take the branch exactly when its comparison holds of
the operands, and change nothing but the flags and the program counter. The conditions read the
flags that the subtraction of walker.c leaves. -/
theorem compare_branches (operand : Operand sz) (rd : BitVec 4) (c : Comparison)
    (disp : Displacement) (hawake : s.cpu.sleep = false)
    (hCMP : CodeAt s s.cpu.PC (operand.CMP rd))
    (hBcc : CodeAt s (s.cpu.PC + BitVec.ofNat 16 (operand.CMP rd).length) (Bcc c disp))
    (htabled : Tabled c disp = true) :
    let PC := s.cpu.PC + BitVec.ofNat 16 (operand.CMP rd).length
    let rs := operand.value s
    ∃ cycles cycles' t u, CPU.Cycle s = .ok cycles t ∧ CPU.Cycle t = .ok cycles' u ∧
      u = { s with cpu := { s.cpu with
        PC := if c.Holds sz ((s.cpu.reg rd sz).setWidth 32) (rs.setWidth 32)
          then disp.target PC else disp.next PC
        flags := (Sub (s.cpu.reg rd sz) rs s.cpu.flags).2 } } ∧
      ∀ flags, SameFlags u.cpu.flags
        (setFlagsSUB flags ((s.cpu.reg rd sz).setWidth 32) (rs.setWidth 32) sz) := by
  intro PC rs
  obtain ⟨cycles, hcompare⟩ := CMP_cycle operand rd hawake hCMP
  obtain ⟨cycles', hbranch⟩ := Bcc_cycle htabled
    (s := s.compared rd (operand.value s) (operand.CMP rd).length) hawake (hBcc.compared rd _ _)
  refine ⟨cycles, cycles', _, _, hcompare, hbranch, ?_, ?_⟩
  · have hholds := condition_Sub c (s.cpu.reg rd sz) rs s.cpu.flags
    change H838606.jumped _ (if condition c (Sub (s.cpu.reg rd sz) rs s.cpu.flags).2 = true
      then disp.target PC else disp.next PC) = _
    rw [hholds]
    simp only [decide_eq_true_eq]
    rfl
  · exact Sub_agrees (s.cpu.reg rd sz) rs s.cpu.flags

/-- `CMP.W #5, R0` and `BLT +16` at 0x0100, with -1 in the register. -/
def aboutToCompare : H838606 :=
  { H838606.reset (fun i => [0x79, 0x20, 0x00, 0x05, 0x4D, 0x10].getD (i.val - 0x100) 0)
      (fun _ => 0xFF) with
    cpu := { PC := 0x0100, registers := fun _ => 0xFFFF } }

theorem compare_branches_less : ∃ cycles cycles' t u,
    CPU.Cycle aboutToCompare = .ok cycles t ∧ CPU.Cycle t = .ok cycles' u ∧
      u.cpu.PC = 0x0116 := by
  obtain ⟨cycles, cycles', t, u, hCMP, hBLT, hu, -⟩ := compare_branches (s := aboutToCompare)
    (.imm (5 : BitVec 16) : Operand .w) 0 .BLT (.d8 0x10) rfl (by decide +kernel)
    (by decide +kernel) rfl
  refine ⟨cycles, cycles', t, u, hCMP, hBLT, ?_⟩
  rw [hu]
  decide +kernel

end PokeStroller.Soc
