import PokeStroller.Walker.Compare

/-!
# Push and pop

`MOV Rs,@-ERd` and after it `MOV @ERd+,Rt`. The byte form of the store goes to
the address `*Rs.ptr`, so the load finds its value there or by coincidence.
-/

namespace PokeStroller

-- ---------------------------------------------------------------------------
-- Operands in memory
-- ---------------------------------------------------------------------------

def Size.Below (sz : Size) (address : BitVec 32) (a : BitVec 16) : Prop :=
  (maskAddress address - 1 - a).toNat < sz.numberOfBits / 8

instance : Decidable (Size.Below sz address a) := inferInstanceAs (Decidable (_ < _))

theorem getMemory32_setMemory32 (m : Memory) (address value : BitVec 32) :
    getMemory32 (setMemory32 m address value) address = value := by
  unfold getMemory32 setMemory32
  generalize maskAddress address = a
  have h01 : a ≠ a + 1 := by bv_omega
  have h02 : a ≠ a + 2 := by bv_omega
  have h03 : a ≠ a + 3 := by bv_omega
  have h12 : a + 1 ≠ a + 2 := by bv_omega
  have h13 : a + 1 ≠ a + 3 := by bv_omega
  have h23 : a + 2 ≠ a + 3 := by bv_omega
  simp only [Function.update_self, Function.update_of_ne h01, Function.update_of_ne h02,
    Function.update_of_ne h03, Function.update_of_ne h12, Function.update_of_ne h13,
    Function.update_of_ne h23]
  apply BitVec.eq_of_getLsbD_eq
  intro i hi
  simp only [BitVec.getLsbD_append, BitVec.getLsbD_setWidth, BitVec.getLsbD_ushiftRight]
  grind

section
variable {sz : Size} {v address : BitVec 32}

theorem getMemory_setMemory (m : Memory) (address : BitVec 32) (hv : v.toNat < sz.modulus) :
    getMemory (setMemory m sz address v) sz address = v := by
  cases sz with
  | b =>
    change (setMemory8 m address (v.setWidth 8) (maskAddress address)).setWidth 32 = v
    rw [setMemory8_self]
    exact setWidth_setWidth_of_lt hv
  | w =>
    change (getMemory16 (setMemory16 m address (v.setWidth 16)) address).setWidth 32 = v
    rw [getMemory16_setMemory16]
    exact setWidth_setWidth_of_lt hv
  | l => exact getMemory32_setMemory32 m address v

theorem below_byte_iff : Size.b.Below address a ↔ a = maskAddress (address - 1) := by
  have hbase : maskAddress (address - 1) = maskAddress address - 1 := by
    unfold maskAddress
    bv_omega
  unfold Size.Below
  rw [hbase]
  change _ < 1 ↔ _
  bv_omega

/-- A store below an address keeps all other bytes. -/
theorem setMemory_of_not_below (m : Memory) (value : BitVec 32) (h : ¬ sz.Below address a) :
    setMemory m sz (address - sz.bytes) value a = m a := by
  unfold Size.Below at h
  cases sz with
  | b =>
    have hbase : maskAddress (address - 1) = maskAddress address - 1 := by
      unfold maskAddress
      bv_omega
    change ¬ _ < 1 at h
    change setMemory8 m (address - 1) _ a = m a
    refine setMemory8_ne m ?_ _
    rw [hbase]
    bv_omega
  | w =>
    have hbase : maskAddress (address - 2) = maskAddress address - 2 := by
      unfold maskAddress
      bv_omega
    change ¬ _ < 2 at h
    change setMemory16 m (address - 2) _ a = m a
    refine setMemory16_ne m _ ?_ ?_
    · rw [hbase]
      bv_omega
    · rw [hbase]
      bv_omega
  | l =>
    have hbase : maskAddress (address - 4) = maskAddress address - 4 := by
      unfold maskAddress
      bv_omega
    change ¬ _ < 4 at h
    change setMemory32 m (address - 4) _ a = m a
    unfold setMemory32
    rw [hbase]
    generalize maskAddress address = top at h
    have h1 : a ≠ top - 4 + 3 := by bv_omega
    have h2 : a ≠ top - 4 + 2 := by bv_omega
    have h3 : a ≠ top - 4 + 1 := by bv_omega
    have h4 : a ≠ top - 4 := by bv_omega
    rw [Function.update_of_ne h1, Function.update_of_ne h2, Function.update_of_ne h3,
      Function.update_of_ne h4]

end

-- ---------------------------------------------------------------------------
-- Registers apart from an address register
-- ---------------------------------------------------------------------------

theorem getReg_setReg32_of_ne (registers : Registers) (sz : Size) (v : BitVec 32)
    (h : regIdx r ≠ regIdx er) : getReg (setReg32 registers er v) sz r = getReg registers sz r := by
  have hidx : setReg32 registers er v (regIdx r) = registers (regIdx r) :=
    Function.update_of_ne h _ _
  cases sz with
  | b => simp only [getReg, getReg8, hidx]
  | w => simp only [getReg, getReg16, hidx]
  | l => exact hidx

theorem getReg32_setReg_of_ne (registers : Registers) (sz : Size) (v : BitVec 32)
    (h : regIdx r ≠ regIdx er) : getReg32 (setReg registers sz r v) er = getReg32 registers er := by
  cases sz with
  | b => exact Function.update_of_ne h.symm _ _
  | w => exact Function.update_of_ne h.symm _ _
  | l => exact Function.update_of_ne h.symm _ _

theorem getMemory_lt (m : Memory) (sz : Size) (address : BitVec 32) :
    (getMemory m sz address).toNat < sz.modulus := by
  cases sz with
  | b =>
    change ((getMemory8 m address).setWidth 32).toNat < 256
    rw [BitVec.toNat_setWidth_of_le (by decide)]
    exact BitVec.isLt _
  | w =>
    change ((getMemory16 m address).setWidth 32).toNat < 65536
    rw [BitVec.toNat_setWidth_of_le (by decide)]
    exact BitVec.isLt _
  | l => exact BitVec.isLt _

theorem getReg_setReg_of_lt (registers : Registers) (r : BitVec 4)
    (hv : v.toNat < Size.modulus sz) : getReg (setReg registers sz r v) sz r = v :=
  BitVec.eq_of_toNat_eq ((getReg_setReg registers sz r v).trans (Nat.mod_eq_of_lt hv))

-- ---------------------------------------------------------------------------
-- The two instructions
-- ---------------------------------------------------------------------------

namespace Walker

/-- What a push of `Rs` and a pop to `Rt` through `ERd` are to come to. -/
structure Restored (s : Walker) (sz : Size) (rs rt er : BitVec 4) (u : Walker) : Prop where
  value : getReg u.registers sz rt = getReg s.registers sz rs
  pointer : getReg32 u.registers er = getReg32 s.registers er
  memory : ∀ a, ¬ sz.Below (getReg32 s.registers er) a → u.memory a = s.memory a

/-- The byte is its own address below `ERd`, or it is both there and at its own
address already. -/
def ByteInPlace (s : Walker) (rs er : BitVec 4) : Prop :=
  let v := getReg8 s.registers rs
  let below := maskAddress (getReg32 s.registers er - 1)
  below = v.setWidth 16 ∨ s.memory below = v ∧ s.memory (v.setWidth 16) = v

def pushAddress (s : Walker) (sz : Size) (rs er : BitVec 4) : BitVec 32 :=
  if sz = .b then getReg s.registers .b rs else getReg32 s.registers er - sz.bytes

variable {sz : Size} {rs rt er er' : BitVec 4}

theorem push_pop (s : Walker) (sz : Size) (hrs : regIdx rs ≠ regIdx er)
    (hrt : regIdx rt ≠ regIdx er) (her : regIdx er' = regIdx er) :
    ∃ t u, s.opcodeSwitch (.movPreDec sz rs er) = .ok t ∧
      t.opcodeSwitch (.movPostInc sz er' rt) = .ok u ∧
      u.memory = setMemory s.memory sz (s.pushAddress sz rs er) (getReg s.registers sz rs) ∧
      getReg u.registers sz rt =
        getMemory u.memory sz (getReg32 s.registers er - sz.bytes) ∧
      getReg32 u.registers er = getReg32 s.registers er := by
  have hpointer (registers : Registers) : getReg32 registers er' = getReg32 registers er :=
    congrArg registers her
  let pushed := setReg32 s.registers er (getReg32 s.registers er - sz.bytes)
  have hmemory : (s.toCpu.movPreDec sz rs er).memory =
      setMemory s.memory sz (s.pushAddress sz rs er) (getReg s.registers sz rs) := by
    change setMemory s.memory sz (if sz = .b then getReg pushed sz rs else getReg32 pushed er)
      (getReg pushed sz rs) = _
    rw [getReg_setReg32_of_ne _ sz _ hrs, getReg32_setReg32]
    cases sz <;> rfl
  refine ⟨_, _, rfl, rfl, hmemory, ?_, ?_⟩
  · change getReg (setReg (setReg32 pushed er' _) sz rt _) sz rt = _
    rw [getReg_setReg_of_lt _ _ (getMemory_lt _ sz _)]
    change getMemory _ sz (getReg32 pushed er') = _
    rw [hpointer, getReg32_setReg32]
    rfl
  · change getReg32 (setReg (setReg32 pushed er' _) sz rt _) er = _
    rw [getReg32_setReg_of_ne _ sz _ hrt, ← hpointer, getReg32_setReg32, hpointer]
    change getReg32 pushed er + sz.bytes = _
    rw [getReg32_setReg32]
    exact BitVec.sub_add_cancel _ _

theorem restored_byte_iff {s u : Walker}
    (hmemory : u.memory =
      setMemory s.memory .b (s.pushAddress .b rs er) (getReg s.registers .b rs))
    (hvalue : getReg u.registers .b rt = getMemory u.memory .b (getReg32 s.registers er - 1))
    (hpointer : getReg32 u.registers er = getReg32 s.registers er) :
    Restored s .b rs rt er u ↔ s.ByteInPlace rs er := by
  let v := getReg8 s.registers rs
  let below := maskAddress (getReg32 s.registers er - 1)
  have hbyte : u.memory = Function.update s.memory (v.setWidth 16) v := by
    rw [hmemory]
    change Function.update s.memory ((v.setWidth 32).setWidth 16) ((v.setWidth 32).setWidth 8) = _
    rw [BitVec.setWidth_setWidth (by decide), BitVec.setWidth_setWidth (by decide),
      BitVec.setWidth_eq]
  have hread : getReg u.registers .b rt = getReg s.registers .b rs ↔ u.memory below = v := by
    rw [hvalue]
    constructor
    · intro h
      have hnarrow : ((u.memory below).setWidth 32).setWidth 8 = (v.setWidth 32).setWidth 8 :=
        congrArg (BitVec.setWidth 8) h
      rwa [BitVec.setWidth_setWidth (by decide), BitVec.setWidth_setWidth (by decide),
        BitVec.setWidth_eq, BitVec.setWidth_eq] at hnarrow
    · intro h
      exact congrArg (BitVec.setWidth 32) h
  by_cases hown : below = v.setWidth 16
  · refine iff_of_true ⟨?_, hpointer, fun a ha => ?_⟩ (.inl hown)
    · rw [hread, hbyte, hown, Function.update_self]
    · rw [hbyte, ← hown, Function.update_of_ne (mt below_byte_iff.mpr ha)]
  · have hbelow : u.memory below = s.memory below := by
      rw [hbyte, Function.update_of_ne hown]
    constructor
    · rintro ⟨h, -, hkeep⟩
      have hsame := hkeep (v.setWidth 16) (mt below_byte_iff.mp (Ne.symm hown))
      rw [hbyte, Function.update_self] at hsame
      exact .inr ⟨hbelow.symm.trans (hread.mp h), hsame.symm⟩
    · rintro (h | ⟨hthere, hsame⟩)
      · exact absurd h hown
      · refine ⟨hread.mpr (hbelow.trans hthere), hpointer, fun a _ => ?_⟩
        rw [hbyte, Function.update_eq_self_iff.mpr hsame.symm]

/-- A push and a pop of a word or a long undo each other, those of a byte when
the byte is its own address or is there already. -/
theorem push_pop_iff (s : Walker) (sz : Size) (hrs : regIdx rs ≠ regIdx er)
    (hrt : regIdx rt ≠ regIdx er) (her : regIdx er' = regIdx er) :
    ∃ t u, s.opcodeSwitch (.movPreDec sz rs er) = .ok t ∧
      t.opcodeSwitch (.movPostInc sz er' rt) = .ok u ∧
      (Restored s sz rs rt er u ↔ (sz = .b → s.ByteInPlace rs er)) := by
  obtain ⟨t, u, ht, hu, hmemory, hvalue, hpointer⟩ := push_pop s sz hrs hrt her
  refine ⟨t, u, ht, hu, ?_⟩
  by_cases hbyte : sz = .b
  · subst hbyte
    refine Iff.trans ?_ (forall_prop_of_true rfl).symm
    exact restored_byte_iff hmemory hvalue hpointer
  · refine iff_of_true ?_ (fun h => absurd h hbyte)
    rw [pushAddress, if_neg hbyte] at hmemory
    refine ⟨?_, hpointer, fun a ha => ?_⟩
    · rw [hvalue, hmemory]
      exact getMemory_setMemory s.memory _ (getReg_lt s.registers sz rs)
    · rw [hmemory]
      exact setMemory_of_not_below s.memory _ ha

/-- `MOV.W R1,@-ER0` and `MOV.W @ER0+,R2` with ER0 = 1, over the end of memory. -/
theorem push_pop_iff_wraps :
    ∃ t u, Walker.opcodeSwitch { registers := fun r => if r = 0 then 1 else 0x1234 }
        (.movPreDec .w 1 8) = .ok t ∧ t.opcodeSwitch (.movPostInc .w 0 2) = .ok u ∧
      getReg u.registers .w 2 = 0x1234 ∧ getReg32 u.registers 0 = 1 := by
  obtain ⟨t, u, ht, hu, hiff⟩ := push_pop_iff
    { registers := fun r => if r = 0 then 1 else 0x1234 } .w
    (show regIdx 1 ≠ regIdx 8 by decide) (show regIdx 2 ≠ regIdx 8 by decide)
    (show regIdx 0 = regIdx 8 by decide)
  have hrestored := hiff.mpr nofun
  exact ⟨t, u, ht, hu, hrestored.value, hrestored.pointer⟩

/-- `MOV.B R1L,@-ER0` and `MOV.B @ER0+,R2L` with R1L = 0x34 and ER0 = 0xf801:
0x34 goes to address 0x34, and R2L is loaded from 0xf800. -/
theorem byte_pushed_elsewhere : ¬ ∀ (s : Walker) (sz : Size) (rs rt er er' : BitVec 4),
    regIdx rs ≠ regIdx er → regIdx rt ≠ regIdx er → regIdx er' = regIdx er →
      ∃ t u, s.opcodeSwitch (.movPreDec sz rs er) = .ok t ∧
        t.opcodeSwitch (.movPostInc sz er' rt) = .ok u ∧ Restored s sz rs rt er u := by
  intro claim
  obtain ⟨t, u, ht, hu, h⟩ := claim { registers := fun r => if r = 0 then 0xf801 else 0x34 } .b
    9 10 8 0 (by decide) (by decide) (by decide)
  cases ht
  cases hu
  exact absurd h.value (by decide)

end Walker

end PokeStroller
