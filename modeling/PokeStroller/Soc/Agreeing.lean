import PokeStroller.Soc.Comparing

/-!
# Two interpreters of one program

walker.c and the core interpret the same instructions. On moves from registers and of
constants, subtractions, comparisons and conditional branches they go in step, for any
number of instructions.
-/

namespace PokeStroller.Soc

open Exec

variable {s t : H838606} {x : Walker} {sz : Size} {operand : Operand sz} {rd : BitVec 4}

-- ---------------------------------------------------------------------------
-- The instructions
-- ---------------------------------------------------------------------------

def Operand.MOV (rd : BitVec 4) (operand : Operand sz) : List Byte :=
  operand.code ⟨0x0C, 0x0D, 0x0F, 0xF, 0x0⟩ rd

/-- Only the forms with two registers. -/
def SUB (sz : Size) (rs rd : BitVec 4) : List Byte :=
  (Operand.reg rs : Operand sz).code ⟨0x18, 0x19, 0x1A, 0, 0⟩ rd

inductive Common
  | MOV {sz : Size} (operand : Operand sz) (rd : BitVec 4)
  | SUB (sz : Size) (rs rd : BitVec 4)
  | CMP {sz : Size} (operand : Operand sz) (rd : BitVec 4)
  | Bcc (c : Comparison) (disp : Displacement)

namespace Common

def bytes : Common → List Byte
  | MOV operand rd => operand.MOV rd
  | SUB sz rs rd => Soc.SUB sz rs rd
  | CMP operand rd => operand.CMP rd
  | Bcc c disp => Soc.Bcc c disp

def tabled : Common → Bool
  | Bcc c disp => Tabled c disp
  | _ => true

end Common

-- ---------------------------------------------------------------------------
-- In the core
-- ---------------------------------------------------------------------------

theorem Select_F (rd : BitVec 4) (s : H838606) : root.Select 0xF rd.toNat s =
    .ok ⟨"MOV.B #xx:8, Rd", 2, ⟨1, 0, 0, 0, 0, 0⟩, binary .b mov CPU.b CPU.aL, false⟩ s := by
  obtain ⟨⟨n, hn⟩⟩ := rd
  interval_cases n <;> rfl

theorem Select_0F (rs : BitVec 4) (s : H838606) : table0F.Select 0x0F (rs ||| 8).toNat s =
    .ok ⟨"MOV.L ERs, ERd", 2, ⟨1, 0, 0, 0, 0, 0⟩, binary .l mov (register .l) CPU.bL, false⟩ s := by
  obtain ⟨hhigh, hlow⟩ := interval_or rs
  generalize (rs ||| 8).toNat = n at hhigh hlow
  interval_cases n <;> rfl

theorem Select_1A (rs : BitVec 4) (s : H838606) : table1A.Select 0x1A (rs ||| 8).toNat s =
    .ok ⟨"SUB.L ERs, ERd", 2, ⟨1, 0, 0, 0, 0, 0⟩, binary .l Sub (register .l) CPU.bL, false⟩ s := by
  obtain ⟨hhigh, hlow⟩ := interval_or rs
  generalize (rs ||| 8).toNat = n at hhigh hlow
  interval_cases n <;> rfl

theorem MOV_decoded (h : CodeAt s s.cpu.PC (operand.MOV rd)) :
    ∃ instruction, Decoded s operand (operand.MOV rd).length (binary sz mov) instruction := by
  cases sz with
  | b =>
    cases operand with
    | reg rs => exact ⟨_, (root_Decode (CodeAt.a h)).trans rfl, rfl, rfl, rfl⟩
    | imm v =>
      have hdecode := root_Decode (CodeAt.a h)
      rw [digits_high, digits_low] at hdecode
      exact ⟨_, hdecode.trans (Select_F rd s), rfl, rfl, rfl⟩
  | w =>
    cases operand with
    | reg rs => exact ⟨_, (root_Decode (CodeAt.a h)).trans rfl, rfl, rfl, rfl⟩
    | imm v => exact ⟨_, (table_Decode h (t := table79) rfl rfl rfl).trans rfl, rfl, rfl, rfl⟩
  | l =>
    cases operand with
    | reg rs =>
      have htable := table_Decode h (t := table0F) rfl rfl rfl
      exact ⟨_, htable.trans (Select_0F rs s), rfl, rfl, rfl⟩
    | imm v => exact ⟨_, (table_Decode h (t := table7A) rfl rfl rfl).trans rfl, rfl, rfl, rfl⟩

theorem SUB_decoded {rs : BitVec 4} (h : CodeAt s s.cpu.PC (SUB sz rs rd)) :
    ∃ instruction, Decoded s (.reg rs) (SUB sz rs rd).length (binary sz Sub) instruction := by
  cases sz with
  | b => exact ⟨_, (root_Decode (CodeAt.a h)).trans rfl, rfl, rfl, rfl⟩
  | w => exact ⟨_, (root_Decode (CodeAt.a h)).trans rfl, rfl, rfl, rfl⟩
  | l =>
    have htable := table_Decode h (t := table1A) rfl rfl rfl
    exact ⟨_, htable.trans (Select_1A rs s), rfl, rfl, rfl⟩

/-- What an instruction of this many bytes leaves that computes this for a register. -/
def H838606.became (s : H838606) (rd : BitVec 4) (result : BitVec sz.numberOfBits × Flags)
    (size : Nat) : H838606 :=
  { s with cpu :=
    { s.cpu.setReg rd sz result.1 with
      PC := s.cpu.PC + BitVec.ofNat 16 size
      flags := result.2 } }

theorem Decoded.binary {size : Nat}
    {f : BitVec sz.numberOfBits → BitVec sz.numberOfBits → Flags → BitVec sz.numberOfBits × Flags}
    (h : Decoded s operand size (binary sz f) instruction) (hawake : s.cpu.sleep = false)
    (hreads : operand.source s = .ok (operand.value s) s ∧ operand.destination s = .ok rd s) :
    ∃ cycles, CPU.Cycle s = .ok cycles
      (s.became rd (f (s.cpu.reg rd sz) (operand.value s) s.cpu.flags) size) := by
  obtain ⟨hsource, hdestination⟩ := hreads
  have hrd : Reg sz rd s = .ok (s.cpu.reg rd sz) s := rfl
  have hbinary : instruction.execute s = .ok ⟨⟩ { s with cpu :=
      { s.cpu.setReg rd sz (f (s.cpu.reg rd sz) (operand.value s) s.cpu.flags).1 with
        flags := (f (s.cpu.reg rd sz) (operand.value s) s.cpu.flags).2 } } := by
    rw [h.execute]
    unfold Soc.binary
    rw [bind_ok hsource, bind_ok hdestination, bind_ok hrd]
    rfl
  have hcycle := Cycle_of hawake h.decode hbinary h.stays
  rw [h.size] at hcycle
  refine ⟨_, hcycle.trans (congrArg _ ?_)⟩
  cases sz <;> rfl

def Common.next (s : H838606) : Common → H838606
  | @MOV sz operand rd => s.became rd (mov (s.cpu.reg rd sz) (operand.value s) s.cpu.flags)
      (operand.MOV rd).length
  | SUB sz rs rd => s.became rd (Sub (s.cpu.reg rd sz) (s.cpu.reg rs sz) s.cpu.flags)
      (Soc.SUB sz rs rd).length
  | CMP operand rd => s.compared rd (operand.value s) (operand.CMP rd).length
  | Bcc c disp => s.branched c disp

theorem Common.cycle (i : Common) (hawake : s.cpu.sleep = false) (htabled : i.tabled = true)
    (hcode : CodeAt s s.cpu.PC i.bytes) : ∃ cycles, CPU.Cycle s = .ok cycles (i.next s) := by
  cases i with
  | MOV operand rd =>
    obtain ⟨instruction, hdecoded⟩ := MOV_decoded hcode
    exact hdecoded.binary hawake (Operand.reads hcode)
  | SUB sz rs rd =>
    obtain ⟨instruction, hdecoded⟩ := SUB_decoded hcode
    exact hdecoded.binary hawake (Operand.reads hcode)
  | CMP operand rd => exact CMP_cycle operand rd hawake hcode
  | Bcc c disp => exact Bcc_cycle htabled hawake hcode

-- ---------------------------------------------------------------------------
-- Registers and flags
-- ---------------------------------------------------------------------------

theorem getReg_eq (cpu : CPU) (r : BitVec 4) :
    getReg cpu.registers sz r = (cpu.reg r sz).setWidth 32 := by
  cases sz with
  | b | w => rfl
  | l => exact (BitVec.setWidth_eq _).symm

theorem setReg_eq (cpu : CPU) (r : BitVec 4) (v : BitVec 32) :
    setReg cpu.registers sz r v = (cpu.setReg r sz (v.setWidth sz.numberOfBits)).registers := by
  cases sz with
  | b | w => rfl
  | l => exact congrArg (setReg32 cpu.registers r) (BitVec.setWidth_eq v).symm

theorem setWidth_back (v : BitVec sz.numberOfBits) :
    (v.setWidth 32).setWidth sz.numberOfBits = v := by
  refine setWidth_setWidth_of_lt (Nat.lt_of_lt_of_le v.isLt ?_)
  cases sz <;> decide

theorem SameFlags.condition {f g : Flags} (h : SameFlags f g) (c : Comparison) :
    Cpu.condition8 c.cc f = condition c g := by
  rw [← condition_eq, condition_congr h]

theorem sub_flags (d v : BitVec sz.numberOfBits) (f g : Flags) :
    SameFlags (setFlagsSUB f (d.setWidth 32) (v.setWidth 32) sz) (Sub d v g).2 := by
  obtain ⟨hN, hZ, hV, hC⟩ := Sub_agrees d v g f
  exact ⟨hN.symm, hZ.symm, hV.symm, hC.symm⟩

theorem setWidth_eq_zero (v : BitVec sz.numberOfBits) : v.setWidth 32 = 0 ↔ v = 0 := by
  refine ⟨fun h => ?_, fun h => ?_⟩
  · rw [← setWidth_back v, h]
    exact BitVec.setWidth_zero _ _
  · rw [h]
    exact BitVec.setWidth_zero _ _

theorem mov_flags {f g : Flags} (h : SameFlags f g) (v : BitVec sz.numberOfBits) :
    SameFlags (setFlagsMOV f (v.setWidth 32) sz) (MovFlags v g) := by
  refine ⟨?_, ?_, rfl, h.C⟩
  · change (v.setWidth 32 &&& sz.negativeFlag != 0) = (v &&& NEGATIVE_MASK _ != 0)
    rw [and_negativeFlag, sign_setWidth, and_NEGATIVE_MASK (numberOfBits_pos sz)]
  · change (v.setWidth 32 == 0) = (v == 0)
    rw [Bool.eq_iff_iff, beq_iff_eq, beq_iff_eq]
    exact setWidth_eq_zero v

-- ---------------------------------------------------------------------------
-- In walker.c
-- ---------------------------------------------------------------------------

/-- The two interpreters are at the same place of the same program. -/
structure Alike (x : Walker) (s : H838606) : Prop where
  pc : x.pc = s.cpu.PC
  registers : x.registers = s.cpu.registers
  flags : SameFlags x.flags s.cpu.flags
  rom : ∀ address : BitVec 16, address.toNat ≤ ROM_END → x.memory address = s.rom (place address)
  awake : s.cpu.sleep = false

variable {a b : Byte} {bytes : List Byte}

theorem Alike.word (h : Alike x s) {PC : BitVec 16} (hcode : CodeAt s PC (a :: b :: bytes))
    {address : BitVec 32} (haddress : maskAddress address = PC) :
    getMemory16 x.memory address = a ++ b := by
  obtain ⟨hPC, ha, hnext, hb, -⟩ := hcode
  unfold getMemory16
  rw [haddress, h.rom PC hPC, h.rom _ hnext, ha, hb]

theorem Alike.fetch (h : Alike x s) (hcode : CodeAt s s.cpu.PC (a :: b :: bytes)) :
    ∃ cd ef, x.fetch = decode (a ++ b) cd ef ∧
      (∀ c d rest, bytes = c :: d :: rest → cd = c ++ d) ∧
      (∀ c d e f rest, bytes = c :: d :: e :: f :: rest → ef = e ++ f) := by
  have hmask : maskAddress (x.pc.setWidth 32) = s.cpu.PC := by
    rw [h.pc]
    unfold maskAddress
    bv_omega
  refine ⟨getMemory16 x.memory (x.pc.setWidth 32 + 2), getMemory16 x.memory (x.pc.setWidth 32 + 4),
    ?_, ?_, ?_⟩
  · unfold Walker.fetch
    dsimp only
    rw [h.word hcode hmask]
  · rintro c d rest rfl
    refine h.word hcode.tail.tail ?_
    rw [h.pc]
    unfold maskAddress
    bv_omega
  · rintro c d e f rest rfl
    refine h.word hcode.tail.tail.tail.tail ?_
    rw [h.pc]
    unfold maskAddress
    bv_omega

def Operand.toSource : {sz : Size} → Operand sz → Source
  | .l, reg rs => .reg (rs ||| 8)
  | _, reg rs => .reg rs
  | _, imm v => .imm (v.setWidth 32)

/-- What walker.c decodes it to. -/
def Common.instr : Common → Instr
  | @MOV sz operand rd => .mov sz operand.toSource rd
  | SUB sz rs rd => .sub sz (Operand.reg rs : Operand sz).toSource rd
  | @CMP sz operand rd => .cmp sz operand.toSource rd
  | Bcc c disp => disp.bcc c.cc

theorem hi8_append (a b : Byte) : hi8 (a ++ b) = a := BitVec.extractLsb'_append_eq_left
theorem lo8_append (a b : Byte) : lo8 (a ++ b) = b := BitVec.extractLsb'_append_eq_right
theorem hi4_append (m n : BitVec 4) : hi4 (m ++ n) = m := digits_high m n
theorem lo4_append (m n : BitVec 4) : lo4 (m ++ n) = n := digits_low m n

theorem regHigh_or (rs : BitVec 4) : regHigh (rs ||| 8) = true := by
  revert rs
  decide

theorem or_ne_zero (rs : BitVec 4) : rs ||| 8 ≠ 0 := by
  revert rs
  decide

theorem decode_digits (a b : Byte) (cd ef : BitVec 16) :
    (hi4 a = 0x0 → decode (a ++ b) cd ef = decode0 (lo4 a) b cd ef) ∧
    (hi4 a = 0x1 → decode (a ++ b) cd ef = decode1 (lo4 a) b) ∧
    (hi4 a = 0x4 → lo4 a ≠ 0x1 → decode (a ++ b) cd ef = .bcc8 (lo4 a) b) ∧
    (hi4 a = 0x5 → decode (a ++ b) cd ef = decode5 (lo4 a) b cd) ∧
    (hi4 a = 0x7 → decode (a ++ b) cd ef = decode7 (lo4 a) b cd ef) ∧
    (hi4 a = 0xA → decode (a ++ b) cd ef = .cmp .b (.imm (b.setWidth 32)) (lo4 a)) ∧
    (hi4 a = 0xF → decode (a ++ b) cd ef = .mov .b (.imm (b.setWidth 32)) (lo4 a)) := by
  unfold decode
  rw [hi8_append, lo8_append]
  dsimp only
  refine ⟨?_, ?_, ?_, ?_, ?_, ?_, ?_⟩
  · intro h
    rw [h]
    rfl
  · intro h
    rw [h]
    rfl
  · intro h hne
    rw [h]
    exact if_neg hne
  · intro h
    rw [h]
    rfl
  · intro h
    rw [h]
    rfl
  · intro h
    rw [h]
    rfl
  · intro h
    rw [h]
    rfl

theorem Alike.fetch_registers {m n : BitVec 4} (h : Alike x s) (f : BitVec 4 → BitVec 4 → Instr)
    (hcode : CodeAt s s.cpu.PC (a :: (m ++ n) :: bytes))
    (hdecode : ∀ b cd ef, decode (a ++ b) cd ef = f (hi4 b) (lo4 b)) : x.fetch = f m n := by
  obtain ⟨cd, ef, hfetch, -⟩ := h.fetch hcode
  rw [hfetch, hdecode, hi4_append, lo4_append]

section

variable {m : BitVec 4}

theorem Alike.fetch_word {v : BitVec 16} (h : Alike x s)
    (hcode : CodeAt s s.cpu.PC (0x79 :: (m ++ rd) :: Operand.wordBytes v)) :
    x.fetch = decodeImmediate .w m rd (v.setWidth 32) := by
  obtain ⟨cd, ef, hfetch, hcd, -⟩ := h.fetch hcode
  obtain ⟨-, -, -, -, hdecode, -⟩ := decode_digits 0x79 (m ++ rd) cd ef
  rw [hfetch, hdecode rfl, hcd _ _ _ rfl, word_append]
  change decodeImmediate .w (hi4 (m ++ rd)) (lo4 (m ++ rd)) _ = _
  rw [hi4_append, lo4_append]

theorem Alike.fetch_long {v : BitVec 32} (h : Alike x s)
    (hcode : CodeAt s s.cpu.PC (0x7A :: (m ++ rd) ::
      (Operand.wordBytes (v.extractLsb' 16 16) ++ Operand.wordBytes (v.extractLsb' 0 16)))) :
    x.fetch = decodeImmediate .l m rd v := by
  obtain ⟨cd, ef, hfetch, hcd, hef⟩ := h.fetch hcode
  obtain ⟨-, -, -, -, hdecode, -⟩ := decode_digits 0x7A (m ++ rd) cd ef
  rw [hfetch, hdecode rfl, hcd _ _ _ rfl, hef _ _ _ _ _ rfl, word_append, word_append]
  change decodeImmediate .l (hi4 (m ++ rd)) (lo4 (m ++ rd)) (_ ++ _) = _
  rw [hi4_append, lo4_append, extract_append (n := 16) (m := 16) v]

end

theorem Alike.fetch_MOV (h : Alike x s) (hcode : CodeAt s s.cpu.PC (operand.MOV rd)) :
    x.fetch = .mov sz operand.toSource rd := by
  cases sz with
  | b =>
    cases operand with
    | reg rs =>
      exact h.fetch_registers (fun m n => .mov .b (.reg m) n) hcode
        fun b cd ef => (decode_digits 0x0C b cd ef).1 rfl
    | imm v =>
      obtain ⟨cd, ef, hfetch, -⟩ := h.fetch hcode
      obtain ⟨-, -, -, -, -, -, hdecode⟩ := decode_digits ((0xF : BitVec 4) ++ rd) v cd ef
      rw [hfetch, hdecode (hi4_append _ _), lo4_append]
      rfl
  | w =>
    cases operand with
    | reg rs =>
      exact h.fetch_registers (fun m n => .mov .w (.reg m) n) hcode
        fun b cd ef => (decode_digits 0x0D b cd ef).1 rfl
    | imm v => exact h.fetch_word hcode
  | l =>
    cases operand with
    | reg rs =>
      have hfetch := h.fetch_registers
        (fun m n => if regHigh m then .mov .l (.reg m) n else .unsupported) hcode
        fun b cd ef => (decode_digits 0x0F b cd ef).1 rfl
      exact hfetch.trans (if_pos (regHigh_or rs))
    | imm v =>
      refine (h.fetch_long hcode).trans ?_
      exact congrArg (Instr.mov .l · rd) (congrArg Source.imm (BitVec.setWidth_eq v).symm)

theorem Alike.fetch_SUB {rs : BitVec 4} (h : Alike x s) (hcode : CodeAt s s.cpu.PC (SUB sz rs rd)) :
    x.fetch = .sub sz (Operand.reg rs : Operand sz).toSource rd := by
  cases sz with
  | b =>
    exact h.fetch_registers (fun m n => .sub .b (.reg m) n) hcode
      fun b cd ef => (decode_digits 0x18 b cd ef).2.1 rfl
  | w =>
    exact h.fetch_registers (fun m n => .sub .w (.reg m) n) hcode
      fun b cd ef => (decode_digits 0x19 b cd ef).2.1 rfl
  | l =>
    -- The second digit 0 would be a DEC.
    have hfetch := h.fetch_registers
      (fun m n => if m = 0 then .dec .b 1 n else
        if regHigh m then .sub .l (.reg m) n else .unsupported) hcode
      fun b cd ef => (decode_digits 0x1A b cd ef).2.1 rfl
    exact hfetch.trans ((if_neg (or_ne_zero rs)).trans (if_pos (regHigh_or rs)))

theorem Alike.fetch_CMP (h : Alike x s) (hcode : CodeAt s s.cpu.PC (operand.CMP rd)) :
    x.fetch = .cmp sz operand.toSource rd := by
  cases sz with
  | b =>
    cases operand with
    | reg rs =>
      exact h.fetch_registers (fun m n => .cmp .b (.reg m) n) hcode
        fun b cd ef => (decode_digits 0x1C b cd ef).2.1 rfl
    | imm v =>
      obtain ⟨cd, ef, hfetch, -⟩ := h.fetch hcode
      obtain ⟨-, -, -, -, -, hdecode, -⟩ := decode_digits ((0xA : BitVec 4) ++ rd) v cd ef
      rw [hfetch, hdecode (hi4_append _ _), lo4_append]
      rfl
  | w =>
    cases operand with
    | reg rs =>
      exact h.fetch_registers (fun m n => .cmp .w (.reg m) n) hcode
        fun b cd ef => (decode_digits 0x1D b cd ef).2.1 rfl
    | imm v => exact h.fetch_word hcode
  | l =>
    cases operand with
    | reg rs =>
      have hfetch := h.fetch_registers
        (fun m n => if regHigh m then .cmp .l (.reg m) n else .unsupported) hcode
        fun b cd ef => (decode_digits 0x1F b cd ef).2.1 rfl
      exact hfetch.trans (if_pos (regHigh_or rs))
    | imm v =>
      refine (h.fetch_long hcode).trans ?_
      exact congrArg (Instr.cmp .l · rd) (congrArg Source.imm (BitVec.setWidth_eq v).symm)

theorem Alike.fetch_Bcc {c : Comparison} {disp : Displacement} (h : Alike x s)
    (hcode : CodeAt s s.cpu.PC (Bcc c disp)) : x.fetch = disp.bcc c.cc := by
  cases disp with
  | d8 disp =>
    obtain ⟨cd, ef, hfetch, -⟩ := h.fetch hcode
    obtain ⟨-, -, hdecode, -⟩ := decode_digits ((0x4 : BitVec 4) ++ c.cc) disp cd ef
    rw [lo4_append] at hdecode
    rw [hfetch, hdecode (hi4_append _ _) c.cc_ne]
    rfl
  | d16 disp =>
    obtain ⟨cd, ef, hfetch, hcd, -⟩ := h.fetch hcode
    obtain ⟨-, -, -, hdecode, -⟩ := decode_digits 0x58 (c.cc ++ (0 : BitVec 4)) cd ef
    rw [hfetch, hdecode rfl, hcd _ _ _ rfl, word_append]
    change Instr.bcc16 (hi4 (c.cc ++ (0 : BitVec 4))) disp = _
    rw [hi4_append]
    rfl

theorem Alike.fetch_instr (h : Alike x s) (i : Common) (hcode : CodeAt s s.cpu.PC i.bytes) :
    x.fetch = i.instr := by
  cases i with
  | MOV operand rd => exact h.fetch_MOV hcode
  | SUB sz rs rd => exact h.fetch_SUB hcode
  | CMP operand rd => exact h.fetch_CMP hcode
  | Bcc c disp => exact h.fetch_Bcc hcode

-- ---------------------------------------------------------------------------
-- In step
-- ---------------------------------------------------------------------------

/-- An instruction phase of walker.c that decodes this instruction. -/
def WalkerStep (x : Walker) (i : Common) (y : Walker) : Prop :=
  x.fetch = i.instr ∧ x.instructionPhase = .ok y

/-- An instruction that walker.c executes ends where the core's cycle ends. -/
theorem Alike.next {i : Common} (h : Alike x s) (hhook : Walker.HookFree x.pc)
    (hfetch : x.fetch = i.instr)
    (hexecute : execute x.interruptSavedAddress x.interruptSavedFlags x.toCpu i.instr = .ok cpu)
    (hmemory : (cpu.addPc 2).memory = x.memory) (hpc : (cpu.addPc 2).pc = t.cpu.PC)
    (hregisters : (cpu.addPc 2).registers = t.cpu.registers)
    (hflags : SameFlags (cpu.addPc 2).flags t.cpu.flags) (hrom : t.rom = s.rom)
    (hawake : t.cpu.sleep = false) : ∃ y, WalkerStep x i y ∧ Alike y t := by
  rw [← hfetch] at hexecute
  obtain ⟨y, hy, hcpu⟩ := Walker.instructionPhase_of_execute hhook hexecute
  refine ⟨y, ⟨hfetch, hy⟩, ?_, ?_, ?_, ?_, hawake⟩
  · rw [hcpu, hpc]
  · rw [hcpu, hregisters]
  · rw [hcpu]
    exact hflags
  · intro address haddress
    rw [hcpu, hmemory, hrom]
    exact h.rom address haddress

theorem Alike.value (h : Alike x s) (operand : Operand sz) :
    operand.toSource.value x.registers sz = (operand.value s).setWidth 32 := by
  cases operand with
  | reg rs =>
    have hreg := @getReg_eq sz s.cpu rs
    cases sz with
    | b | w => exact (congrArg (getReg · _ rs) h.registers).trans hreg
    | l => exact (congrArg (getReg · .l (rs ||| 8)) h.registers).trans ((reg_or s.cpu rs).trans hreg)
  | imm v => cases sz <;> rfl

theorem length_code (codes : Operand.Codes) (operand : Operand sz) (PC : BitVec 16) :
    PC + Cpu.immediatePc sz operand.toSource + 2 =
      PC + BitVec.ofNat 16 (operand.code codes rd).length := by
  have hsame : Cpu.immediatePc sz operand.toSource + 2 =
      BitVec.ofNat 16 (operand.code codes rd).length := by
    cases sz <;> cases operand <;> rfl
  rw [← hsame, BitVec.add_assoc]

theorem Alike.step (h : Alike x s) (hhook : Walker.HookFree s.cpu.PC) (i : Common)
    (hcode : CodeAt s s.cpu.PC i.bytes) :
    ∃ y, WalkerStep x i y ∧ Alike y (i.next s) := by
  have hhook' : Walker.HookFree x.pc := h.pc ▸ hhook
  have hfetch := h.fetch_instr i hcode
  cases i with
  | @MOV sz operand rd =>
    have hexecute : execute x.interruptSavedAddress x.interruptSavedFlags x.toCpu
        (Common.MOV operand rd).instr = .ok (x.toCpu.mov sz operand.toSource rd) := rfl
    refine h.next hhook' hfetch hexecute rfl ?_ ?_ ?_ rfl ?_
    · change x.pc + _ + 2 = s.cpu.PC + _
      rw [h.pc]
      exact length_code _ operand _
    · change setReg x.registers sz rd (operand.toSource.value x.registers sz) =
        (s.cpu.setReg rd sz (operand.value s)).registers
      rw [h.value operand, h.registers, setReg_eq, setWidth_back]
    · change SameFlags (setFlagsMOV x.flags (operand.toSource.value x.registers sz) sz)
        (MovFlags (operand.value s) s.cpu.flags)
      rw [h.value operand]
      exact mov_flags h.flags _
    · cases sz <;> exact h.awake
  | SUB sz rs rd =>
    have hvalue := h.value (Operand.reg rs : Operand sz)
    have hexecute : execute x.interruptSavedAddress x.interruptSavedFlags x.toCpu
        (Common.SUB sz rs rd).instr = .ok (x.toCpu.sub sz (Operand.reg rs : Operand sz).toSource rd) :=
      rfl
    refine h.next hhook' hfetch hexecute rfl ?_ ?_ ?_ rfl ?_
    · change x.pc + _ + 2 = s.cpu.PC + _
      rw [h.pc]
      exact length_code _ (Operand.reg rs : Operand sz) _
    · change setReg x.registers sz rd (getReg x.registers sz rd -
        (Operand.reg rs : Operand sz).toSource.value x.registers sz) =
        (s.cpu.setReg rd sz (s.cpu.reg rd sz - (Operand.reg rs).value s)).registers
      rw [hvalue, h.registers, getReg_eq, setReg_eq, sub_setWidth]
    · change SameFlags (setFlagsSUB x.flags (getReg x.registers sz rd)
        ((Operand.reg rs : Operand sz).toSource.value x.registers sz) sz)
        (Sub (s.cpu.reg rd sz) ((Operand.reg rs).value s) s.cpu.flags).2
      rw [hvalue, h.registers, getReg_eq]
      exact sub_flags _ _ _ _
    · cases sz <;> exact h.awake
  | @CMP sz operand rd =>
    have hexecute : execute x.interruptSavedAddress x.interruptSavedFlags x.toCpu
        (Common.CMP operand rd).instr = .ok (x.toCpu.cmp sz operand.toSource rd) := rfl
    refine h.next hhook' hfetch hexecute rfl ?_ h.registers ?_ rfl h.awake
    · change x.pc + _ + 2 = s.cpu.PC + _
      rw [h.pc]
      exact length_code _ operand _
    · change SameFlags (setFlagsSUB x.flags (getReg x.registers sz rd)
        (operand.toSource.value x.registers sz) sz)
        (Sub (s.cpu.reg rd sz) (operand.value s) s.cpu.flags).2
      rw [h.value operand, h.registers, getReg_eq]
      exact sub_flags _ _ _ _
  | Bcc c disp =>
    obtain ⟨cpu, hexecute, hbranch⟩ := execute_bcc x.interruptSavedAddress x.interruptSavedFlags
      x.toCpu c.cc_ne disp
    refine h.next hhook' hfetch hexecute ?_ ?_ ?_ ?_ rfl h.awake
    · rw [hbranch]
    · rw [hbranch]
      change (if Cpu.condition8 c.cc x.flags then disp.target x.pc else disp.next x.pc) =
        (if condition c s.cpu.flags then disp.target s.cpu.PC else disp.next s.cpu.PC)
      rw [h.flags.condition, h.pc]
    · rw [hbranch]
      exact h.registers
    · rw [hbranch]
      exact h.flags

/-- A cycle of the core at one of the instructions, away from the hooks of walker.c. -/
def CoreStep (s : H838606) (i : Common) (t : H838606) : Prop :=
  Walker.HookFree s.cpu.PC ∧ i.tabled = true ∧ CodeAt s s.cpu.PC i.bytes ∧
    ∃ cycles, CPU.Cycle s = .ok cycles t

theorem CoreStep.next {i : Common} (hawake : s.cpu.sleep = false) (hhook : Walker.HookFree s.cpu.PC)
    (htabled : i.tabled = true) (hcode : CodeAt s s.cpu.PC i.bytes) :
    CoreStep s i (i.next s) :=
  ⟨hhook, htabled, hcode, i.cycle hawake htabled hcode⟩

/-- From states that are alike, walker.c follows the core for as long as it executes these
instructions, whatever branches it takes. -/
theorem interpreters_agree (h : Alike x s) (hrun : Runs CoreStep s is t) :
    ∃ y, Runs WalkerStep x is y ∧ Alike y t := by
  induction hrun generalizing x with
  | nil => exact ⟨x, .nil x, h⟩
  | cons hstep _ ih =>
    obtain ⟨hhook, htabled, hcode, cycles, hcycle⟩ := hstep
    obtain ⟨cycles', hcycle'⟩ := Common.cycle _ h.awake htabled hcode
    obtain ⟨-, rfl⟩ := EStateM.Result.ok.inj (hcycle'.symm.trans hcycle)
    obtain ⟨y, hy, hnext⟩ := h.step hhook _ hcode
    obtain ⟨z, hrest, hz⟩ := ih hnext
    exact ⟨z, .cons hy hrest, hz⟩

/-- The two interpreters with one program and the same registers. -/
def coreWith (program : Nat → Byte) (PC : BitVec 16) (registers : Registers) : H838606 :=
  { H838606.reset (fun address => program address.val) (fun _ => 0xFF) with
    cpu := { PC := PC, registers := registers } }

def walkerWith (program : Nat → Byte) (PC : BitVec 16) (registers : Registers) : Walker :=
  { memory := fun address => program address.toNat, pc := PC, registers := registers }

theorem walkerWith_alike (program : Nat → Byte) (PC : BitVec 16) (registers : Registers) :
    Alike (walkerWith program PC registers) (coreWith program PC registers) where
  pc := rfl
  registers := rfl
  flags := ⟨rfl, rfl, rfl, rfl⟩
  rom address h := by
    have hplace : (place address).val = address.toNat := Nat.mod_eq_of_lt (lt_rom h)
    exact congrArg program hplace.symm
  awake := rfl

/-- At 0x0100 `MOV.W #5, R0`, `SUB.W R1, R0`, `CMP.W #0, R0` and `BEQ` back to the first. -/
def countDown (address : Nat) : Byte :=
  [0x79, 0x00, 0x00, 0x05, 0x19, 0x10, 0x79, 0x20, 0x00, 0x00, 0x47, 0xF4].getD
    (address - 0x0100) 0

def countDownOnce : List Common :=
  [.MOV (.imm 5 : Operand .w) 0, .SUB .w 1 0, .CMP (.imm 0 : Operand .w) 0, .Bcc .BEQ (.d8 0xF4)]

theorem interpreters_agree_count : ∃ t y,
    Runs CoreStep (coreWith countDown 0x0100 fun _ => 5) countDownOnce t ∧
    Runs WalkerStep (walkerWith countDown 0x0100 fun _ => 5) countDownOnce y ∧
    Alike y t ∧ y.pc = 0x0100 := by
  have hrun : Runs CoreStep (coreWith countDown 0x0100 fun _ => 5) countDownOnce _ :=
    .cons (.next rfl (by decide +kernel) rfl (by decide +kernel))
      (.cons (.next rfl (by decide +kernel) rfl (by decide +kernel))
        (.cons (.next rfl (by decide +kernel) rfl (by decide +kernel))
          (.cons (.next rfl (by decide +kernel) rfl (by decide +kernel)) (.nil _))))
  obtain ⟨y, hwalker, halike⟩ := interpreters_agree (walkerWith_alike _ _ _) hrun
  refine ⟨_, y, hrun, hwalker, halike, halike.pc.trans ?_⟩
  decide +kernel

end PokeStroller.Soc
