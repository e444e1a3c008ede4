import PokeStroller.Soc.Waking

/-!
# Interrupt handlers

An interrupt pushes the flags and the program counter, and RTE pops them. In
between anything may happen that leaves the four bytes alone, other interrupts
and their handlers included.
-/

namespace PokeStroller.Soc

open Exec

variable {s t u v : H838606} {address vector : BitVec 16}

-- ---------------------------------------------------------------------------
-- Words of the RAM
-- ---------------------------------------------------------------------------

structure InRam (address : BitVec 16) : Prop where
  start : RAM_START ≤ address.toNat
  last : address.toNat + 1 ≤ RAM_END

theorem InRam.next (h : InRam address) : (address + 1).toNat = address.toNat + 1 := by
  have hlast := h.last
  simp only [RAM_END] at hlast
  bv_omega

theorem InRam.high (h : InRam address) : isRam address := ⟨h.start, Nat.le_of_succ_le h.last⟩

theorem InRam.low (h : InRam address) : isRam (address + 1) := by
  rw [isRam, h.next]
  exact ⟨Nat.le_succ_of_le h.start, h.last⟩

def ramPlace (address : BitVec 16) : Fin RAM_SIZE :=
  ⟨(address.toNat - RAM_START) % RAM_SIZE, Nat.mod_lt _ (by decide)⟩

theorem isRam.place_eq (h : isRam address) : ramPlace address = ⟨_, h.lt⟩ :=
  Fin.ext (Nat.mod_eq_of_lt h.lt)

theorem isRam.place_val (h : isRam address) : RAM_START + (ramPlace address).val = address.toNat := by
  rw [h.place_eq]
  exact Nat.add_sub_cancel' h.1

theorem InRam.place_next (h : InRam address) :
    RAM_START + (ramPlace (address + 1)).val = address.toNat + 1 := by
  rw [h.low.place_val, h.next]

def H838606.word (s : H838606) (address : BitVec 16) : BitVec 16 :=
  ioWord s.ram (ramPlace address) (ramPlace (address + 1))

def H838606.stored (s : H838606) (address value : BitVec 16) : Bytes RAM_SIZE :=
  setIoWord s.ram (ramPlace address) (ramPlace (address + 1)) value

theorem Read16_ram (h : InRam address) (s : H838606) :
    Read16 address s = .ok (s.word address) s := by
  unfold Read16
  rw [bind_ok (Read8_ram h.high s), bind_ok (Read8_ram h.low s), H838606.word, h.high.place_eq,
    h.low.place_eq]
  rfl

theorem Write16_ram (h : InRam address) (value : BitVec 16) (s : H838606) :
    Write16 address value s = .ok ⟨⟩ { s with ram := s.stored address value } := by
  unfold Write16
  rw [bind_ok (Write8_ram h.high _ s), Write8_ram h.low, H838606.stored, h.high.place_eq,
    h.low.place_eq]
  rfl

theorem extract_append {n m : Nat} (v : BitVec (n + m)) :
    v.extractLsb' m n ++ v.extractLsb' 0 m = v := by
  apply BitVec.eq_of_getLsbD_eq
  intro i hi
  simp only [BitVec.getLsbD_append, BitVec.getLsbD_extractLsb']
  grind

theorem ioWord_setIoWord (io : Bytes n) {i j : Fin n} (h : i ≠ j) (value : BitVec 16) :
    ioWord (setIoWord io i j value) i j = value := by
  unfold ioWord setIoWord
  rw [Function.update_of_ne h, Function.update_self, Function.update_self]
  exact extract_append (n := 8) (m := 8) value

theorem word_stored (h : InRam address) (value : BitVec 16) (ram : s.stored address value = t.ram) :
    t.word address = value := by
  have hne : ramPlace address ≠ ramPlace (address + 1) := by
    intro heq
    have hnext := h.place_next
    rw [← heq, h.high.place_val] at hnext
    omega
  rw [H838606.word, ← ram, H838606.stored, ioWord_setIoWord _ hne]

def Kept (base : Nat) (s t : H838606) : Prop :=
  ∀ i : Fin RAM_SIZE, base ≤ RAM_START + i.val → t.ram i = s.ram i

theorem Kept.refl (base : Nat) (s : H838606) : Kept base s s := fun _ _ => rfl

theorem Kept.trans {base : Nat} (h : Kept base s t) (h' : Kept base t u) : Kept base s u :=
  fun i hi => (h' i hi).trans (h i hi)

theorem Kept.mono {base base' : Nat} (h : Kept base s t) (hbase : base ≤ base') :
    Kept base' s t := fun i hi => h i (hbase.trans hi)

theorem Kept.word {base : Nat} (h : Kept base s t) (haddress : InRam address)
    (hbase : base ≤ address.toNat) : t.word address = s.word address := by
  have hhigh := haddress.high.place_val
  have hlow := haddress.place_next
  unfold H838606.word ioWord
  rw [h _ (by omega), h _ (by omega)]

theorem kept_stored (h : InRam address) (value : BitVec 16)
    (ram : s.stored address value = t.ram) : Kept (address.toNat + 2) s t := by
  intro i hi
  have hhigh : i ≠ ramPlace address := by
    intro heq
    have hval := h.high.place_val
    rw [← heq] at hval
    omega
  have hlow : i ≠ ramPlace (address + 1) := by
    intro heq
    have hval := h.place_next
    rw [← heq] at hval
    omega
  rw [← ram, H838606.stored, setIoWord, Function.update_of_ne hlow, Function.update_of_ne hhigh]

-- ---------------------------------------------------------------------------
-- The stack
-- ---------------------------------------------------------------------------

def H838606.sp (s : H838606) : BitVec 32 := getReg32 s.cpu.registers REG_SP_INDEX

def H838606.top (s : H838606) : BitVec 16 := s.sp.setWidth 16

def H838606.withSP (s : H838606) (sp : BitVec 32) : H838606 :=
  { s with cpu := s.cpu.setReg REG_SP_INDEX .l sp }

@[simp] theorem sp_withSP (s : H838606) (sp : BitVec 32) : (s.withSP sp).sp = sp :=
  getReg32_setReg32 _ _ _

def H838606.pushed (s : H838606) (value : BitVec 16) : H838606 :=
  { s.withSP (s.sp - 2) with ram := s.stored (s.top - 2) value }

@[simp] theorem sp_pushed (s : H838606) (value : BitVec 16) : (s.pushed value).sp = s.sp - 2 :=
  sp_withSP s _

theorem top_sub (s : H838606) (d : BitVec 32) (h : t.sp = s.sp - d) :
    t.top = s.top - d.setWidth 16 := by
  rw [H838606.top, h, H838606.top]
  bv_omega

theorem Push16_ram (h : InRam (s.top - 2)) (value : BitVec 16) :
    Push16 value s = .ok ⟨⟩ (s.pushed value) := by
  have htop : (s.withSP (s.sp - 2)).top = s.top - 2 := top_sub s 2 (sp_withSP s _)
  have hpointer : pointer REG_SP_INDEX (s.withSP (s.sp - 2)) =
      .ok (s.top - 2) (s.withSP (s.sp - 2)) := by
    rw [← htop]
    rfl
  have hsp : Reg32 REG_SP_INDEX s = .ok s.sp s := rfl
  have hmove : SetReg32 REG_SP_INDEX (s.sp - 2) s = .ok ⟨⟩ (s.withSP (s.sp - 2)) := rfl
  unfold Push16
  rw [bind_ok hsp, bind_ok hmove, bind_ok hpointer, Write16_ram h]
  rfl

theorem Pop16_ram (h : InRam s.top) :
    Pop16 s = .ok (s.word s.top) (s.withSP (s.sp + 2)) := by
  have hpointer : pointer REG_SP_INDEX s = .ok s.top s := rfl
  unfold Pop16
  rw [bind_ok hpointer, bind_ok (Read16_ram h s)]
  rfl

-- ---------------------------------------------------------------------------
-- The frame of an interrupt
-- ---------------------------------------------------------------------------

/-- The four bytes below the stack pointer are in the RAM. -/
structure Room (s : H838606) : Prop where
  start : RAM_START + 4 ≤ s.top.toNat
  last : s.top.toNat ≤ RAM_END + 1

theorem Room.toNat_sub (h : Room s) : (s.top - 2).toNat = s.top.toNat - 2 ∧
    (s.top - 4).toNat = s.top.toNat - 4 := by
  have hstart := h.start
  simp only [RAM_START] at hstart
  constructor <;> bv_omega

theorem Room.CCR (h : Room s) : InRam (s.top - 2) := by
  obtain ⟨hCCR, -⟩ := h.toNat_sub
  have hstart := h.start
  have hlast := h.last
  constructor <;> omega

theorem Room.PC (h : Room s) : InRam (s.top - 4) := by
  obtain ⟨-, hPC⟩ := h.toNat_sub
  have hstart := h.start
  have hlast := h.last
  constructor <;> omega

/-- What an interrupt of `s` has pushed, with all that was on the stack. -/
structure Framed (s t : H838606) : Prop where
  counter : t.word (s.top - 4) = s.cpu.PC
  flags : t.word (s.top - 2) = CCR s.cpu.flags ++ (0 : Byte)
  above : Kept s.top.toNat s t

theorem Framed.keep (h : Framed s t) (hroom : Room s) (hkept : Kept (s.top.toNat - 4) t u) :
    Framed s u := by
  obtain ⟨hCCR, hPC⟩ := hroom.toNat_sub
  refine ⟨?_, ?_, h.above.trans (hkept.mono (Nat.sub_le _ _))⟩
  · rw [hkept.word hroom.PC hPC.ge, h.counter]
  · rw [hkept.word hroom.CCR (by omega), h.flags]

/-- An interrupt of `s` that is not ignored. -/
structure Enters (vector : BitVec 16) (s t : H838606) : Prop where
  room : Room s
  unmasked : s.cpu.flags.I = false
  pending : s.interrupts.pending = some vector
  full : s.vector vector ≠ 0xFFFF
  enters : Interrupts.Cycle s = .ok ⟨⟩ t

def H838606.saved (s : H838606) : H838606 :=
  (s.pushed (CCR s.cpu.flags ++ (0 : Byte))).pushed s.cpu.PC

theorem Enters.eq (h : Enters vector s t) : t = { s.saved with
    cpu := { s.saved.cpu with
      PC := s.vector vector
      flags := { s.saved.cpu.flags with I := true }
      sleep := false } } := by
  have htop : (s.pushed (CCR s.cpu.flags ++ (0 : Byte))).top = s.top - 2 :=
    top_sub s 2 (sp_pushed s _)
  have hPC : InRam ((s.pushed (CCR s.cpu.flags ++ (0 : Byte))).top - 2) := by
    have hfour : s.top - 2 - 2 = s.top - 4 := by bv_omega
    rw [htop, hfour]
    exact h.room.PC
  have henters := h.enters
  unfold Interrupts.Cycle at henters
  rw [bind_ok (get_apply s), Exec.ite_neg (by rw [h.unmasked]; decide), h.pending] at henters
  change CPU.Interrupt vector s = .ok ⟨⟩ t at henters
  unfold CPU.Interrupt at henters
  rw [bind_ok (Read16_vector (pending_vector h.pending) s), Exec.ite_neg h.full, bind_ok (get_apply s),
    bind_ok (Push16_ram h.room.CCR _), bind_ok (get_apply _), bind_ok (Push16_ram hPC _)] at henters
  cases henters
  rfl

theorem Enters.sp (h : Enters vector s t) : t.sp = s.sp - 4 := by
  have hsaved : t.sp = s.saved.sp := by
    rw [h.eq]
    rfl
  rw [hsaved, H838606.saved, sp_pushed, sp_pushed]
  bv_omega

theorem Enters.framed (h : Enters vector s t) : Framed s t := by
  have hroom := h.room
  obtain ⟨hCCR, hPC⟩ := hroom.toNat_sub
  have htop : (s.pushed (CCR s.cpu.flags ++ (0 : Byte))).top - 2 = s.top - 4 := by
    rw [top_sub s 2 (sp_pushed s _)]
    bv_omega
  have hfirst : s.stored (s.top - 2) (CCR s.cpu.flags ++ (0 : Byte)) =
      (s.pushed (CCR s.cpu.flags ++ (0 : Byte))).ram := rfl
  have hsecond : (s.pushed (CCR s.cpu.flags ++ (0 : Byte))).stored (s.top - 4) s.cpu.PC = t.ram := by
    rw [h.eq, ← htop]
    rfl
  have hkept := kept_stored hroom.CCR _ hfirst
  have hkept' := kept_stored hroom.PC _ hsecond
  refine ⟨word_stored hroom.PC _ hsecond, ?_, ?_⟩
  · rw [hkept'.word hroom.CCR (by have := hroom.start; omega)]
    exact word_stored hroom.CCR _ hfirst
  · refine (hkept.mono ?_).trans (hkept'.mono ?_)
    · have := hroom.start
      omega
    · have := hroom.start
      omega

-- ---------------------------------------------------------------------------
-- RTE
-- ---------------------------------------------------------------------------

def rteInstruction : Instruction := ⟨"RTE", 2, ⟨2, 0, 2, 0, 0, 2⟩, rte, true⟩

theorem Decode_rte (h : Read8 t.cpu.PC t = .ok 0x56 t) : root.Decode t = .ok rteInstruction t := by
  have hPC : t.cpu.PC + 0 = t.cpu.PC := BitVec.add_zero _
  have ha : CPU.a t = .ok 0x56 t := by
    unfold CPU.a CPU.byteAt
    rw [bind_ok (get_apply t), hPC, h]
  have haH : CPU.aH t = .ok 5 t := bind_ok ha
  have haL : CPU.aL t = .ok 6 t := bind_ok ha
  unfold InstructionTable.Decode
  have hfirst : root.first_key t = .ok 5 t := bind_ok haH
  have hsecond : root.second_key t = .ok 6 t := bind_ok haL
  rw [bind_ok hfirst, bind_ok hsecond]
  rfl

def H838606.jumped (s : H838606) (PC : BitVec 16) : H838606 :=
  { s with cpu := { s.cpu with PC := PC } }

/-- What RTE leaves of a state with the two words on its stack. -/
def H838606.resumed (s : H838606) : H838606 :=
  let popped := ((s.withSP (s.sp + 2)).jumped (s.word s.top)).withSP (s.sp + 2 + 2)
  { popped with
    cpu := { popped.cpu with flags := ofCCR ((s.word (s.top + 2)).extractLsb' 8 8) } }

theorem rte_ok (hPC : InRam s.top) (hCCR : InRam (s.top + 2)) : rte s = .ok ⟨⟩ s.resumed := by
  have hset : setPC (s.word s.top) (s.withSP (s.sp + 2)) =
      .ok ⟨⟩ ((s.withSP (s.sp + 2)).jumped (s.word s.top)) := rfl
  have hsp : ((s.withSP (s.sp + 2)).jumped (s.word s.top)).sp = s.sp + 2 := sp_withSP s _
  have htop : ((s.withSP (s.sp + 2)).jumped (s.word s.top)).top = s.top + 2 := by
    rw [H838606.top, hsp, H838606.top]
    bv_omega
  rw [← htop] at hCCR
  unfold rte
  rw [bind_ok (Pop16_ram hPC), bind_ok hset, bind_ok (Pop16_ram hCCR), htop, hsp]
  rfl

structure Rte (s t : H838606) : Prop where
  awake : s.cpu.sleep = false
  opcode : Read8 s.cpu.PC s = .ok 0x56 s
  cycle : ∃ cycles, CPU.Cycle s = .ok cycles t

theorem Rte.eq (h : Rte s t) (hPC : InRam s.top) (hCCR : InRam (s.top + 2)) : t = s.resumed := by
  obtain ⟨cycles, hcycle⟩ := h.cycle
  have hrte : rteInstruction.execute s = .ok ⟨⟩ s.resumed := rte_ok hPC hCCR
  unfold CPU.Cycle at hcycle
  rw [bind_ok (get_apply s), Exec.ite_neg (by rw [h.awake]; decide), bind_ok (Decode_rte h.opcode),
    bind_ok hrte] at hcycle
  cases hcycle
  rfl

/-- From a frame that is still on the stack RTE returns to the interrupted processor. -/
theorem Framed.returns (h : Framed s t) (hroom : Room s) (hsp : t.sp = s.sp - 4) (hrte : Rte t u) :
    u.cpu.PC = s.cpu.PC ∧ u.cpu.flags = s.cpu.flags ∧ u.sp = s.sp ∧ u.cpu.sleep = false ∧
      u.ram = t.ram := by
  have htop : t.top = s.top - 4 := top_sub s 4 hsp
  have hnext : t.top + 2 = s.top - 2 := by
    rw [htop]
    bv_omega
  have hresumed : u = t.resumed := hrte.eq (htop ▸ hroom.PC) (hnext ▸ hroom.CCR)
  have hbyte : (CCR s.cpu.flags ++ (0 : Byte)).extractLsb' 8 8 = CCR s.cpu.flags :=
    BitVec.extractLsb'_append_eq_left
  refine ⟨?_, ?_, ?_, ?_, ?_⟩
  · rw [hresumed, ← h.counter, ← htop]
    rfl
  · have hflags : u.cpu.flags = ofCCR ((t.word (t.top + 2)).extractLsb' 8 8) := by
      rw [hresumed]
      rfl
    rw [hflags, hnext, h.flags, hbyte, ofCCR_CCR]
  · have hback : u.sp = t.sp + 2 + 2 := by
      rw [hresumed]
      exact sp_withSP _ _
    rw [hback, hsp]
    bv_omega
  · rw [hresumed]
    exact hrte.awake
  · rw [hresumed]
    rfl

-- ---------------------------------------------------------------------------
-- Handlers
-- ---------------------------------------------------------------------------

/-- An interrupt of the first state is being served in the second: anything may have happened
that leaves its frame and the stack above alone, and other interrupts may have been served, each
by a handler that does the same for its own frame. -/
inductive Serves : H838606 → H838606 → Prop
  | enter {vector : BitVec 16} {s t : H838606} : Enters vector s t → Serves s t
  | act {s t u : H838606} : Serves s t → Kept (s.top.toNat - 4) t u → Serves s u
  | nest {s t u v : H838606} : Serves s t → t.top.toNat ≤ s.top.toNat - 4 →
      Serves t u → u.sp = t.sp - 4 → Rte u v → Serves s v

theorem Serves.framed (h : Serves s t) : Room s ∧ Framed s t := by
  induction h with
  | enter henters => exact ⟨henters.room, henters.framed⟩
  | act _ hkept ih =>
    obtain ⟨hroom, hframed⟩ := ih
    exact ⟨hroom, hframed.keep hroom hkept⟩
  | nest _ hbelow _ hsp hrte ih ihNested =>
    obtain ⟨hroom, hframed⟩ := ih
    obtain ⟨hroom', hframed'⟩ := ihNested
    -- The nested handler has kept all that is above its own frame, and RTE writes nothing.
    obtain ⟨-, -, -, -, hram⟩ := hframed'.returns hroom' hsp hrte
    have hkept := hframed'.above.mono hbelow
    refine ⟨hroom, hframed.keep hroom fun i hi => ?_⟩
    rw [hram, hkept i hi]

/-- Whatever happens while an interrupt is served, to any depth of nesting: the RTE of its
handler returns to the interrupted processor. -/
theorem handler_returns (h : Serves s t) (hsp : t.sp = s.sp - 4) (hrte : Rte t u) :
    u.cpu.PC = s.cpu.PC ∧ u.cpu.flags = s.cpu.flags ∧ u.sp = s.sp ∧ u.cpu.sleep = false ∧
      Kept s.top.toNat s u := by
  obtain ⟨hroom, hframed⟩ := h.framed
  obtain ⟨hPC, hflags, hback, hsleep, hram⟩ := hframed.returns hroom hsp hrte
  refine ⟨hPC, hflags, hback, hsleep, fun i hi => ?_⟩
  rw [hram, hframed.above i hi]

theorem ok_left {x : Exec PUnit} (h : (x s matches .ok _ _) = true) : x s = .ok ⟨⟩ (left (x s)) := by
  cases hx : x s with
  | ok a t => rfl
  | error fault t =>
    rw [hx] at h
    cases h

theorem rte_of (hawake : s.cpu.sleep = false) (hrom : s.cpu.PC.toNat ≤ ROM_END)
    (hopcode : s.rom (place s.cpu.PC) = 0x56) (h : (CPU.Cycle s matches .ok _ _) = true) :
    Rte s (left (CPU.Cycle s)) := by
  refine ⟨hawake, ?_, ?_⟩
  · rw [Read8_place hrom, hopcode]
  · cases hcycle : CPU.Cycle s with
    | ok cycles t => exact ⟨cycles, rfl⟩
    | error fault t =>
      rw [hcycle] at h
      cases h

/-- Two requests, the first with a handler at 0x0100 and the second with one at 0x0102. -/
def twoRequests : H838606 :=
  { H838606.reset (fun i => match i.val with
      | 0x20 | 0x22 => 0x01
      | 0x23 => 0x02
      | 0x100 | 0x102 => 0x56
      | _ => 0) (fun _ => 0xFF) with
    cpu := { PC := 0x0200, flags := { Z := true }, registers := fun _ => 0xFF80, sleep := true }
    interrupts := { IENR1 := 0x03, IRR1 := 0x03 } }

/-- In the first handler: it has taken its request back and lets the second one in. -/
def secondLetIn : H838606 :=
  let s := left (Interrupts.Cycle twoRequests)
  { s with
    cpu := { s.cpu with flags := { s.cpu.flags with I := false } }
    interrupts := { s.interrupts with IRR1 := 0x02 } }

theorem handler_returns_nested : ∃ t u, Serves twoRequests t ∧ Rte t u ∧
    u.cpu.PC = 0x0200 ∧ u.cpu.flags = { Z := true } ∧ u.sp = 0xFF80 ∧ u.cpu.sleep = false := by
  have hfirst : Enters INTERRUPT_VECTOR_ADDR_IRQ0 twoRequests (left (Interrupts.Cycle twoRequests)) :=
    ⟨⟨by decide, by decide⟩, rfl, by decide +kernel, by decide +kernel, ok_left (by decide +kernel)⟩
  have hsecond : Enters INTERRUPT_VECTOR_ADDR_IRQ1 secondLetIn (left (Interrupts.Cycle secondLetIn)) :=
    ⟨⟨by decide +kernel, by decide +kernel⟩, by decide +kernel, by decide +kernel,
      by decide +kernel, ok_left (by decide +kernel)⟩
  have hinner := rte_of (s := left (Interrupts.Cycle secondLetIn)) (by decide +kernel)
    (by decide +kernel) (by decide +kernel) (by decide +kernel)
  have hserves : Serves twoRequests secondLetIn := .act (.enter hfirst) fun _ _ => rfl
  have hnested := hserves.nest (by decide +kernel) (.enter hsecond) hsecond.sp hinner
  have houter := rte_of (s := left (CPU.Cycle (left (Interrupts.Cycle secondLetIn))))
    (by decide +kernel) (by decide +kernel) (by decide +kernel) (by decide +kernel)
  obtain ⟨hPC, hflags, hsp, hsleep, -⟩ := handler_returns hnested (by decide +kernel) houter
  exact ⟨_, _, hnested, houter, hPC, hflags, hsp.trans (by decide), hsleep⟩

end PokeStroller.Soc
