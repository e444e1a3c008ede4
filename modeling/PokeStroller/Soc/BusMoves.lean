import Mathlib.Logic.Relation
import PokeStroller.Soc.Cycle

/-!
# What the processor does to the SoC

Whatever an instruction or an interrupt does, it does by accesses to the bus and
changes of the processor, and an exception has a text.
-/

namespace PokeStroller.Soc

open Exec

-- ---------------------------------------------------------------------------
-- Moves
-- ---------------------------------------------------------------------------

/-- One change of the SoC by the processor. -/
inductive BusMove : H838606 → H838606 → Prop
  | cpu (s : H838606) (cpu : CPU) : BusMove s { s with cpu := cpu }
  | ram (s : H838606) (ram : Bytes RAM_SIZE) : BusMove s { s with ram := ram }
  | io (s : H838606) (io_low : Bytes IO_LOW_SIZE) (io_high : Bytes IO_HIGH_SIZE) :
      BusMove s { s with io_low := io_low, io_high := io_high }
  | read (r : IoRegister) (s : H838606) : BusMove s (r.read s)
  | write (r : IoRegister) (value : Byte) (s : H838606) : BusMove s (r.write value s)

abbrev BusMoves : H838606 → H838606 → Prop := Relation.ReflTransGen BusMove

/-- The states along an execution are related, and what it throws is of a kind. -/
structure Tame (R : H838606 → H838606 → Prop) (F : Fault → Prop) (x : Exec α) : Prop where
  along : Along R x
  throws : Throws F x

abbrev Explained (fault : Fault) : Prop := fault.what ≠ ""

/-- With a text, and no access outside an array but `io_low`. -/
def OfBus (fault : Fault) : Prop :=
  Explained fault ∧ ∀ array, fault = .undefined array → array = .io_low

namespace Tame

variable {R : H838606 → H838606 → Prop} {F : Fault → Prop}

theorem modify {f : H838606 → H838606} (h : ∀ s, R s (f s)) : Tame R F (modify f : Exec PUnit) :=
  ⟨.modify h, .modify f⟩

theorem mono {R' : H838606 → H838606 → Prop} {F' : Fault → Prop} {x : Exec α} (hx : Tame R F x)
    (h : ∀ s t, R s t → R' s t) (hF : ∀ fault, F fault → F' fault) : Tame R' F' x :=
  ⟨hx.along.mono h, fun s fault t herror => hF fault (hx.throws s fault t herror)⟩

theorem ite_of {p : Prop} [Decidable p] {x y : Exec α} (hx : p → Tame R F x)
    (hy : Tame R F y) : Tame R F (if p then x else y) := by
  split
  · rename_i h
    exact hx h
  · exact hy

theorem ite {p : Prop} [Decidable p] {x y : Exec α} (hx : Tame R F x) (hy : Tame R F y) :
    Tame R F (if p then x else y) := .ite_of (fun _ => hx) hy

variable [IsPreorder H838606 R]

theorem bind_of {x : Exec α} {f : α → Exec β} (hx : Tame R F x) (hreturns : Returns P x)
    (hf : ∀ a, P a → Tame R F (f a)) : Tame R F (x >>= f) :=
  ⟨hx.along.bind_of hreturns fun a ha => (hf a ha).along,
    hx.throws.bind_of hreturns fun a ha => (hf a ha).throws⟩

theorem bind {x : Exec α} {f : α → Exec β} (hx : Tame R F x) (hf : ∀ a, Tame R F (f a)) :
    Tame R F (x >>= f) := hx.bind_of (.trivial x) fun a _ => hf a

theorem pure (a : α) : Tame R F (pure a : Exec α) := ⟨.pure a, .pure a⟩

theorem get : Tame R F (get : Exec H838606) := ⟨.get, .get⟩

theorem throw {fault : Fault} (h : F fault) : Tame R F (throw fault : Exec α) :=
  ⟨.throw fault, .throw h⟩

theorem checked {array : HostArray} {x : Option α} (h : x = none → F (.undefined array)) :
    Tame R F (checked array x) := by
  cases x with
  | some a => exact pure a
  | none => exact throw (h rfl)

end Tame

abbrev OnBus (x : Exec α) : Prop := Tame BusMoves OfBus x

theorem onBus_modify {f : H838606 → H838606} (h : ∀ s, BusMove s (f s)) :
    OnBus (modify f : Exec PUnit) := .modify fun s => .single (h s)

-- ---------------------------------------------------------------------------
-- Accesses
-- ---------------------------------------------------------------------------

theorem io_low_ofBus : OfBus (.undefined .io_low) :=
  ⟨by decide, fun _ h => (Fault.undefined.inj h).symm⟩

theorem get?_ofBus (m : Bytes n) (h : i < n) :
    m.get? i = none → OfBus (.undefined array) := by
  rw [m.get?_of_lt h]
  nofun

theorem set?_ofBus (m : Bytes n) (h : i < n) (v : Byte) :
    m.set? i v = none → OfBus (.undefined array) := by
  rw [m.set?_of_lt h]
  nofun

theorem ioRead_onBus (address : BitVec 16) : OnBus (ioRead address) := by
  refine .bind .get fun s => ?_
  split
  · exact .bind (onBus_modify fun s => .read _ s) fun _ => .pure _
  · refine .ite (.checked fun _ => io_low_ofBus)
      (.ite_of (fun h => .checked (get?_ofBus _ ?_)) (.pure _))
    simp only [IO_HIGH_START, IO_HIGH_END, IO_HIGH_SIZE] at h ⊢
    omega

theorem ioWrite_onBus (address : BitVec 16) (value : Byte) : OnBus (ioWrite address value) := by
  refine .bind .get fun s => ?_
  split
  · exact onBus_modify fun s => .write _ value s
  · refine .ite ?_ (.ite_of (fun h => ?_) (.pure _))
    · exact .bind (.checked fun _ => io_low_ofBus) fun io_low =>
        onBus_modify fun s => .io s io_low s.io_high
    · refine .bind (.checked (set?_ofBus _ ?_ _)) fun io_high =>
        onBus_modify fun s => .io s s.io_low io_high
      simp only [IO_HIGH_START, IO_HIGH_END, IO_HIGH_SIZE] at h ⊢
      omega

theorem Read8_onBus (address : BitVec 16) : OnBus (Read8 address) := by
  refine .bind .get fun s => ?_
  refine .ite_of (fun h => .checked (get?_ofBus _ ?_))
    (.ite_of (fun h => .checked (get?_ofBus _ ?_)) (.ite (ioRead_onBus _) (.pure _)))
  · simp only [ROM_END, ROM_SIZE] at h ⊢
    omega
  · simp only [RAM_START, RAM_END, RAM_SIZE] at h ⊢
    omega

theorem Write8_onBus (address : BitVec 16) (value : Byte) : OnBus (Write8 address value) := by
  refine .bind .get fun s => ?_
  refine .ite (.pure _) (.ite_of (fun h => ?_) (.ite (ioWrite_onBus _ _) (.pure _)))
  refine .bind (.checked (set?_ofBus _ ?_ _)) fun ram => onBus_modify fun s => .ram s ram
  simp only [RAM_START, RAM_END, RAM_SIZE] at h ⊢
  omega

theorem Read16_onBus (address : BitVec 16) : OnBus (Read16 address) :=
  .bind (Read8_onBus _) fun _ => .bind (Read8_onBus _) fun _ => .pure _

theorem Read32_onBus (address : BitVec 16) : OnBus (Read32 address) :=
  .bind (Read8_onBus _) fun _ => .bind (Read8_onBus _) fun _ =>
    .bind (Read8_onBus _) fun _ => .bind (Read8_onBus _) fun _ => .pure _

theorem Write16_onBus (address value : BitVec 16) : OnBus (Write16 address value) :=
  .bind (Write8_onBus _ _) fun _ => Write8_onBus _ _

theorem Write32_onBus (address : BitVec 16) (value : BitVec 32) : OnBus (Write32 address value) :=
  .bind (Write8_onBus _ _) fun _ => .bind (Write8_onBus _ _) fun _ =>
    .bind (Write8_onBus _ _) fun _ => Write8_onBus _ _

-- ---------------------------------------------------------------------------
-- Operands
-- ---------------------------------------------------------------------------

theorem setCpu_onBus (f : CPU → CPU) : OnBus (setCpu f) := onBus_modify fun s => .cpu s _

theorem Reg_onBus (sz : Size) (select : BitVec 4) : OnBus (Reg sz select) :=
  .bind .get fun _ => .pure _

theorem SetReg_onBus (sz : Size) (select : BitVec 4) (value : BitVec sz.numberOfBits) :
    OnBus (SetReg sz select value) := setCpu_onBus _

theorem SetReg32_onBus (select : BitVec 4) (value : BitVec 32) :
    OnBus (SetReg32 select value) := SetReg_onBus .l select value

theorem SetFlags_onBus (f : Flags → Flags) : OnBus (SetFlags f) := setCpu_onBus _

theorem Read_onBus (sz : Size) (address : BitVec 16) : OnBus (Read sz address) := by
  cases sz with
  | b => exact Read8_onBus address
  | w => exact Read16_onBus address
  | l => exact Read32_onBus address

theorem Write_onBus (sz : Size) (address : BitVec 16) (value : BitVec sz.numberOfBits) :
    OnBus (Write sz address value) := by
  cases sz with
  | b => exact Write8_onBus address value
  | w => exact Write16_onBus address value
  | l => exact Write32_onBus address value

theorem pointer_onBus (select : BitVec 4) : OnBus (pointer select) :=
  .bind (Reg_onBus .l _) fun _ => .pure _

theorem advance_onBus (select : BitVec 4) (n : BitVec 32) : OnBus (advance select n) :=
  .bind (Reg_onBus .l _) fun _ => SetReg32_onBus _ _

theorem Push16_onBus (value : BitVec 16) : OnBus (Push16 value) :=
  .bind (Reg_onBus .l _) fun _ => .bind (SetReg32_onBus _ _) fun _ =>
    .bind (pointer_onBus _) fun _ => Write16_onBus _ _

theorem Pop16_onBus : OnBus Pop16 :=
  .bind (pointer_onBus _) fun _ => .bind (Read16_onBus _) fun _ =>
    .bind (Reg_onBus .l _) fun _ => .bind (SetReg32_onBus _ _) fun _ => .pure _

theorem byteAt_onBus (offset : BitVec 16) : OnBus (CPU.byteAt offset) :=
  .bind .get fun _ => Read8_onBus _

theorem wordAt_onBus (offset : BitVec 16) : OnBus (CPU.wordAt offset) :=
  .bind .get fun _ => Read16_onBus _

section

open CPU

@[simp] theorem a_onBus : OnBus a := byteAt_onBus _
@[simp] theorem b_onBus : OnBus b := byteAt_onBus _
@[simp] theorem c_onBus : OnBus c := byteAt_onBus _
@[simp] theorem aH_onBus : OnBus aH := .bind a_onBus fun _ => .pure _
@[simp] theorem aL_onBus : OnBus aL := .bind a_onBus fun _ => .pure _
@[simp] theorem bH_onBus : OnBus bH := .bind b_onBus fun _ => .pure _
@[simp] theorem bL_onBus : OnBus bL := .bind b_onBus fun _ => .pure _
@[simp] theorem cH_onBus : OnBus cH := .bind c_onBus fun _ => .pure _
@[simp] theorem cL_onBus : OnBus cL := .bind c_onBus fun _ => .pure _
@[simp] theorem dH_onBus : OnBus dH := .bind (byteAt_onBus _) fun _ => .pure _
@[simp] theorem dL_onBus : OnBus dL := .bind (byteAt_onBus _) fun _ => .pure _
@[simp] theorem cd_onBus : OnBus cd := wordAt_onBus _
@[simp] theorem ef_onBus : OnBus ef := wordAt_onBus _

end

@[simp] theorem register_onBus (sz : Size) : OnBus (register sz) := .bind bH_onBus fun _ => Reg_onBus sz _

@[simp] theorem imm32_onBus : OnBus imm32 := .bind cd_onBus fun _ => .bind ef_onBus fun _ => .pure _

@[simp] theorem abs8_onBus : OnBus abs8 := .bind b_onBus fun _ => .pure _

@[simp] theorem abs24_onBus : OnBus abs24 := .bind b_onBus fun _ => cd_onBus

@[simp] theorem disp8_onBus : OnBus disp8 := .bind b_onBus fun _ => .pure _

@[simp] theorem indirect_onBus {select : Exec (BitVec 4)} (hselect : OnBus select) :
    OnBus (indirect select) := .bind hselect fun _ => pointer_onBus _

@[simp] theorem displaced_onBus {disp : Exec (BitVec 16)} {select : Exec (BitVec 4)}
    (hdisp : OnBus disp) (hselect : OnBus select) : OnBus (displaced disp select) :=
  .bind hdisp fun _ => .bind hselect fun _ => .bind (Reg_onBus .l _) fun _ => .pure _

-- ---------------------------------------------------------------------------
-- Instructions
-- ---------------------------------------------------------------------------

section

variable {sz : Size} {source : Exec (BitVec sz.numberOfBits)} {address : Exec (BitVec 16)}
  {select select' : Exec (BitVec 4)}

@[simp] theorem binary_onBus (hsource : OnBus source) (hselect : OnBus select) (f) :
    OnBus (binary sz f source select) :=
  .bind hsource fun _ => .bind hselect fun _ => .bind (Reg_onBus _ _) fun _ => .bind .get fun _ =>
    .bind (SetReg_onBus _ _ _) fun _ => SetFlags_onBus _

@[simp] theorem compare_onBus (hsource : OnBus source) (hselect : OnBus select) :
    OnBus (compare sz source select) :=
  .bind hsource fun _ => .bind hselect fun _ => .bind (Reg_onBus _ _) fun _ => SetFlags_onBus _

@[simp] theorem unary_onBus (f) : OnBus (unary sz f) :=
  .bind bL_onBus fun _ => .bind (Reg_onBus _ _) fun _ => .bind .get fun _ =>
    .bind (SetReg_onBus _ _ _) fun _ => SetFlags_onBus _

@[simp] theorem load_onBus (haddress : OnBus address) (hselect : OnBus select) :
    OnBus (load sz address select) :=
  .bind haddress fun _ => .bind hselect fun _ => .bind (Read_onBus _ _) fun _ =>
    .bind (SetReg_onBus _ _ _) fun _ => .bind (Reg_onBus _ _) fun _ => SetFlags_onBus _

@[simp] theorem store_onBus (haddress : OnBus address) (hselect : OnBus select) :
    OnBus (store sz address select) :=
  .bind haddress fun _ => .bind hselect fun _ => .bind (Reg_onBus _ _) fun _ =>
    .bind (Write_onBus _ _ _) fun _ => .bind (Reg_onBus _ _) fun _ => SetFlags_onBus _

@[simp] theorem loadIncrement_onBus (n) (hselect : OnBus select) (hselect' : OnBus select') :
    OnBus (loadIncrement sz n select select') :=
  .bind hselect fun _ => .bind hselect' fun _ => .bind (pointer_onBus _) fun _ =>
    .bind (Read_onBus _ _) fun _ => .bind (SetReg_onBus _ _ _) fun _ =>
      .bind (Reg_onBus _ _) fun _ => .bind (SetFlags_onBus _) fun _ => advance_onBus _ _

@[simp] theorem loadIncrementL_onBus (hselect : OnBus select) (hselect' : OnBus select') :
    OnBus (loadIncrementL select select') :=
  .bind hselect fun _ => .bind hselect' fun _ => .bind (pointer_onBus _) fun _ =>
    .bind (Read32_onBus _) fun _ => .bind (SetReg32_onBus _ _) fun _ =>
      .bind (advance_onBus _ _) fun _ => .bind (Reg_onBus .l _) fun _ => SetFlags_onBus _

@[simp] theorem storeDecrement_onBus (n) (hselect : OnBus select) (hselect' : OnBus select') :
    OnBus (storeDecrement sz n select select') :=
  .bind hselect fun _ => .bind hselect' fun _ => .bind (advance_onBus _ _) fun _ =>
    .bind (pointer_onBus _) fun _ => .bind (Reg_onBus _ _) fun _ =>
      .bind (Write_onBus _ _ _) fun _ => .bind (Reg_onBus _ _) fun _ => SetFlags_onBus _

@[simp] theorem branch_onBus (haddress : OnBus address) (condition) : OnBus (branch address condition) :=
  .bind haddress fun _ => .bind .get fun _ => .ite (setCpu_onBus _) (.pure _)

@[simp] theorem call_onBus (n) : OnBus (call n) := .bind .get fun _ => Push16_onBus _

@[simp] theorem bsr_onBus : OnBus bsr := .bind (call_onBus _) fun _ => .bind disp8_onBus fun _ => setCpu_onBus _

@[simp] theorem jmp_onBus (haddress : OnBus address) : OnBus (jmp address) :=
  .bind haddress fun _ => setCpu_onBus _

@[simp] theorem jsr_onBus (n) (haddress : OnBus address) : OnBus (jsr n address) :=
  .bind (call_onBus _) fun _ => jmp_onBus haddress

@[simp] theorem rts_onBus : OnBus rts := .bind Pop16_onBus fun _ => setCpu_onBus _

@[simp] theorem rte_onBus : OnBus rte :=
  .bind Pop16_onBus fun _ => .bind (setCpu_onBus _) fun _ =>
    .bind Pop16_onBus fun _ => SetFlags_onBus _

@[simp] theorem control_onBus (f) : OnBus (control f) := .bind b_onBus fun _ => SetFlags_onBus _

@[simp] theorem sleep_onBus : OnBus sleep := setCpu_onBus _

@[simp] theorem bitRegister_onBus (f) : OnBus (bitRegister f) :=
  .bind bH_onBus fun _ => .bind bL_onBus fun _ => .bind .get fun _ =>
    .bind (Reg_onBus .b _) fun _ => SetReg_onBus .b _ _

@[simp] theorem bsetRn_onBus : OnBus bsetRn :=
  .bind bH_onBus fun _ => .bind (Reg_onBus .b _) fun _ => .bind bL_onBus fun _ =>
    .bind (Reg_onBus .b _) fun _ => SetReg_onBus .b _ _

@[simp] theorem btst_onBus : OnBus btst :=
  .bind bH_onBus fun _ => .bind bL_onBus fun _ => .bind (Reg_onBus .b _) fun _ => SetFlags_onBus _

@[simp] theorem bld_onBus : OnBus bld :=
  .bind bH_onBus fun _ => .bind bL_onBus fun _ => .bind (Reg_onBus .b _) fun _ => SetFlags_onBus _

@[simp] theorem bitMemory_onBus (haddress : OnBus address) (f) : OnBus (bitMemory address f) :=
  .bind haddress fun _ => .bind dH_onBus fun _ => .bind (Read8_onBus _) fun _ =>
    .bind .get fun _ => Write8_onBus _ _

@[simp] theorem bldMemory_onBus (haddress : OnBus address) : OnBus (bldMemory address) :=
  .bind haddress fun _ => .bind dH_onBus fun _ => .bind (Read8_onBus _) fun _ => SetFlags_onBus _

@[simp] theorem mulxuB_onBus : OnBus mulxuB :=
  .bind bH_onBus fun _ => .bind (Reg_onBus .b _) fun _ => .bind bL_onBus fun _ =>
    .bind (Reg_onBus .w _) fun _ => SetReg_onBus .w _ _

@[simp] theorem mulxuW_onBus : OnBus mulxuW :=
  .bind bH_onBus fun _ => .bind (Reg_onBus .w _) fun _ => .bind bL_onBus fun _ =>
    .bind (Reg_onBus .l _) fun _ => SetReg32_onBus _ _

@[simp] theorem mulxsW_onBus : OnBus mulxsW :=
  .bind dH_onBus fun _ => .bind (Reg_onBus .w _) fun _ => .bind dL_onBus fun _ =>
    .bind (Reg_onBus .l _) fun _ => .bind (SetReg32_onBus _ _) fun _ => SetFlags_onBus _

@[simp] theorem divxuB_onBus : OnBus divxuB :=
  .bind bH_onBus fun _ => .bind (Reg_onBus .b _) fun _ => .bind bL_onBus fun _ =>
    .ite (SetFlags_onBus _) (.bind (Reg_onBus .w _) fun _ =>
      .bind (SetReg_onBus .w _ _) fun _ => SetFlags_onBus _)

@[simp] theorem divxuW_onBus : OnBus divxuW :=
  .bind bH_onBus fun _ => .bind (Reg_onBus .w _) fun _ => .bind bL_onBus fun _ =>
    .ite (SetFlags_onBus _) (.bind (Reg_onBus .l _) fun _ =>
      .bind (SetReg32_onBus _ _) fun _ => SetFlags_onBus _)

@[simp] theorem divxsW_onBus : OnBus divxsW :=
  .bind dH_onBus fun _ => .bind (Reg_onBus .w _) fun _ => .bind dL_onBus fun _ =>
    .ite (SetFlags_onBus _) (.bind (Reg_onBus .l _) fun _ =>
      .bind (SetReg32_onBus _ _) fun _ => SetFlags_onBus _)

end

end PokeStroller.Soc
