import PokeStroller.Walker.Divide

/-!
# Signed multiplication

MULXS multiplies the signed low half of `Rd` by `Rs`. `*Rs.ptr` is unsigned
and its cast is to the wider type, so it enters the product zero-extended.
-/

namespace PokeStroller

namespace Width

def mulxs (rs rd : BitVec 4) : Width → Instr
  | B => .mulxsB rs rd
  | W => .mulxsW rs rd

end Width

-- ---------------------------------------------------------------------------
-- The product
-- ---------------------------------------------------------------------------

theorem toInt_setWidth_of_lt (x : BitVec n) (h : n < m) : (x.setWidth m).toInt = x.toNat := by
  have hx := x.isLt
  have hdouble : 2 * 2 ^ n ≤ 2 ^ m := by
    rw [← Nat.pow_succ']
    exact Nat.pow_le_pow_right (by decide) h
  rw [BitVec.toInt_setWidth]
  exact Int.bmod_eq_of_le_mul_two (by omega) (by omega)

/-- The product of an unsigned and a signed factor fits in twice their width. -/
theorem toInt_mul_signExtend (x y : BitVec n) (hn : 0 < n) :
    (x.setWidth (n + n) * y.signExtend (n + n)).toInt = x.toNat * y.toInt := by
  have hx : (x.toNat : Int) < 2 ^ n := by exact_mod_cast x.isLt
  have hpos : (0 : Int) ≤ x.toNat := Int.natCast_nonneg _
  have hlow := BitVec.le_two_mul_toInt (x := y)
  have hhigh := BitVec.two_mul_toInt_lt (x := y)
  have hsquare : ((2 ^ (n + n) : Nat) : Int) = 2 ^ n * 2 ^ n := by
    rw [Nat.pow_add]
    push_cast
    rfl
  have hbound : (x.toNat : Int) * 2 ^ n < 2 ^ n * 2 ^ n :=
    Int.mul_lt_mul_of_pos_right hx (by omega)
  have hle := Int.mul_le_mul_of_nonneg_left hhigh.le hpos
  have hge := Int.mul_le_mul_of_nonneg_left hlow hpos
  rw [Int.mul_neg, Int.mul_left_comm] at hge
  rw [Int.mul_left_comm] at hle
  rw [BitVec.toInt_mul, toInt_setWidth_of_lt x (by omega),
    BitVec.toInt_signExtend_of_le (Nat.le_add_right n n)]
  exact Int.bmod_eq_of_le_mul_two (by omega) (by omega)

theorem and_twoPow_eq (p : BitVec n) (hn : 0 < n) :
    (p &&& BitVec.twoPow n (n - 1) != 0) = decide (p.toInt < 0) := by
  have hne : BitVec.twoPow n (n - 1) ≠ 0#n := fun h => by
    have hbit := congrArg (BitVec.getLsbD · (n - 1)) h
    simp only [BitVec.getLsbD_twoPow, BitVec.getLsbD_zero] at hbit
    simp at hbit
    omega
  rw [← BitVec.msb_eq_toInt, BitVec.msb_eq_getLsbD_last, BitVec.and_twoPow]
  cases p.getLsbD (n - 1) with
  | true => simpa using hne
  | false => simp

theorem product_flags (x y : BitVec n) (hn : 0 < n) :
    let product := x.setWidth (n + n) * y.signExtend (n + n)
    (product == 0) = decide ((x.toNat : Int) * y.toInt = 0) ∧
      (product &&& BitVec.twoPow (n + n) (n + n - 1) != 0) =
        decide ((x.toNat : Int) * y.toInt < 0) := by
  intro product
  rw [← toInt_mul_signExtend x y hn]
  refine ⟨?_, and_twoPow_eq product (Nat.add_pos_left hn n)⟩
  rw [Bool.beq_eq_decide_eq, decide_eq_decide, ← BitVec.toInt_inj, BitVec.ofNat_eq_ofNat,
    BitVec.toInt_zero]

def Size.unsigned (sz : Size) (x : Int) : Int := if x < 0 then x + sz.modulus else x

theorem toNat_eq_unsigned (hv : v.toNat < Size.modulus sz) :
    (v.toNat : Int) = sz.unsigned (sz.toInt v) := by
  rw [toInt_cond hv, Size.unsigned]
  split
  · rw [if_neg (by omega)]
  · rw [if_pos (by omega)]
    omega

theorem unsigned_mul_eq_iff (sz : Size) (x y : Int) : sz.unsigned x * y = x * y ↔ 0 ≤ x ∨ y = 0 := by
  have hmodulus : (sz.modulus : Int) ≠ 0 := by exact_mod_cast (modulus_pos sz).ne'
  unfold Size.unsigned
  split
  · rename_i hneg
    rw [Int.add_mul, add_eq_left, Int.mul_eq_zero]
    constructor
    · intro h
      exact .inr (h.resolve_left hmodulus)
    · intro h
      exact .inr (h.resolve_left (Int.not_le.mpr hneg))
  · rename_i hpos
    exact iff_of_true rfl (.inl (Int.not_lt.mp hpos))

theorem unsigned_mul_comm_iff (sz : Size) (x y : Int) :
    sz.unsigned x * y = sz.unsigned y * x ↔ 0 ≤ x ∧ 0 ≤ y ∨ x = y ∨ x = 0 ∨ y = 0 := by
  have hmodulus : (sz.modulus : Int) ≠ 0 := by exact_mod_cast (modulus_pos sz).ne'
  have hcancel {u v : Int} : sz.modulus * u = sz.modulus * v ↔ u = v :=
    ⟨fun h => Int.eq_of_mul_eq_mul_left hmodulus h, fun h => h ▸ rfl⟩
  have hcomm := Int.mul_comm x y
  unfold Size.unsigned
  split <;> split
  · rw [Int.add_mul, Int.add_mul, hcomm, Int.add_right_inj, hcancel]
    omega
  · rw [Int.add_mul, hcomm, add_eq_left, Int.mul_eq_zero]
    omega
  · rw [Int.add_mul, hcomm, left_eq_add, Int.mul_eq_zero]
    omega
  · exact iff_of_true hcomm (.inl (by omega))

-- ---------------------------------------------------------------------------
-- MULXS
-- ---------------------------------------------------------------------------

/-- What MULXS is to leave of two signed operands. -/
structure Multiplied (w : Width) (x y : Int) (result : BitVec 32) (flags : Flags) : Prop where
  value : w.full.toInt result = x * y
  Z : flags.Z = decide (x * y = 0)
  N : flags.N = decide (x * y < 0)

namespace Walker

/-- From every state with the two operands exchanged, MULXS leaves the same. -/
def Commutes (s : Walker) (w : Width) (rs rd : BitVec 4) : Prop :=
  ∀ (s' : Walker) (rs' rd' : BitVec 4) (t t' : Walker),
    w.half.toInt (getReg s'.registers w.half rs') = w.low (getReg s.registers w.full rd) →
    w.low (getReg s'.registers w.full rd') = w.half.toInt (getReg s.registers w.half rs) →
    s.opcodeSwitch (w.mulxs rs rd) = .ok t → s'.opcodeSwitch (w.mulxs rs' rd') = .ok t' →
    getReg t'.registers w.full rd' = getReg t.registers w.full rd ∧
      t'.flags.Z = t.flags.Z ∧ t'.flags.N = t.flags.N

theorem opcodeSwitch_mulxs (s : Walker) (w : Width) (rs rd : BitVec 4) :
    ∃ t, s.opcodeSwitch (w.mulxs rs rd) = .ok t ∧
      let product := w.half.unsigned (w.half.toInt (getReg s.registers w.half rs)) *
        w.low (getReg s.registers w.full rd)
      w.full.toInt (getReg t.registers w.full rd) = product ∧
        t.flags.Z = decide (product = 0) ∧ t.flags.N = decide (product < 0) := by
  rw [← toNat_eq_unsigned (getReg_lt s.registers w.half rs)]
  cases w with
  | B =>
    have hlow : Width.B.low (getReg s.registers .w rd) =
        ((getReg16 s.registers rd).setWidth 8).toInt := by
      simp [Width.low, Width.half, Size.toInt, Size.numberOfBits, getReg]
    have hrs : (getReg s.registers .b rs).toNat = (getReg8 s.registers rs).toNat :=
      BitVec.toNat_setWidth_of_le (by decide)
    dsimp only [Width.full, Width.half]
    rw [hlow, hrs]
    refine ⟨_, rfl, ?_, product_flags (n := 8) _ _ (by decide)⟩
    rw [toInt_getReg_w]
    change (getReg16 (setReg16 s.registers rd _) rd).toInt = _
    rw [getReg16_setReg16]
    exact toInt_mul_signExtend (n := 8) _ _ (by decide)
  | W =>
    have hlow : Width.W.low (getReg s.registers .l rd) =
        ((getReg32 s.registers rd).setWidth 16).toInt := by
      simp [Width.low, Width.half, Size.toInt, Size.numberOfBits, getReg]
    have hrs : (getReg s.registers .w rs).toNat = (getReg16 s.registers rs).toNat :=
      BitVec.toNat_setWidth_of_le (by decide)
    dsimp only [Width.full, Width.half]
    rw [hlow, hrs]
    refine ⟨_, rfl, ?_, product_flags (n := 16) _ _ (by decide)⟩
    rw [toInt_getReg_l]
    change (getReg32 (setReg32 s.registers rd _) rd).toInt = _
    rw [getReg32_setReg32]
    exact toInt_mul_signExtend (n := 16) _ _ (by decide)

theorem setWidth_extractLsb' (hn : n ≤ m) (hm : m ≤ 32) (v : BitVec 32) :
    ((v.extractLsb' 0 m).setWidth 32).setWidth n = v.setWidth n := by
  apply BitVec.eq_of_getLsbD_eq
  intro i hi
  have hhalf := Nat.lt_of_lt_of_le hi hn
  have hword := Nat.lt_of_lt_of_le hhalf hm
  simp [hi, hhalf, hword]

theorem exchanged_exists (s : Walker) (w : Width) (rs rd : BitVec 4) :
    ∃ (s' : Walker) (rs' rd' : BitVec 4),
      w.half.toInt (getReg s'.registers w.half rs') = w.low (getReg s.registers w.full rd) ∧
      w.low (getReg s'.registers w.full rd') = w.half.toInt (getReg s.registers w.half rs) := by
  let s' : Walker := { registers := fun r =>
    if r = 1 then getReg s.registers w.full rd else getReg s.registers w.half rs }
  cases w with
  | B =>
    refine ⟨s', 9, 0, ?_, ?_⟩
    · exact congrArg BitVec.toInt (setWidth_extractLsb' (by decide) (by decide) _)
    · exact congrArg BitVec.toInt (setWidth_extractLsb' (by decide) (by decide) _)
  | W =>
    refine ⟨s', 1, 0, ?_, rfl⟩
    exact congrArg BitVec.toInt (setWidth_extractLsb' (by decide) (by decide) _)

/-- MULXS leaves the signed product when `Rs` is not negative or the low half of
`Rd` is zero, and does not see an exchange of its operands when both are not
negative, they are equal, or one is zero. -/
theorem multiply_signed_iff (s : Walker) (w : Width) (rs rd : BitVec 4) :
    let x := w.half.toInt (getReg s.registers w.half rs)
    let y := w.low (getReg s.registers w.full rd)
    ∃ t, s.opcodeSwitch (w.mulxs rs rd) = .ok t ∧
      (Multiplied w x y (getReg t.registers w.full rd) t.flags ↔ 0 ≤ x ∨ y = 0) ∧
      (s.Commutes w rs rd ↔ 0 ≤ x ∧ 0 ≤ y ∨ x = y ∨ x = 0 ∨ y = 0) := by
  intro x y
  obtain ⟨t, ht, hvalue, hZ, hN⟩ := s.opcodeSwitch_mulxs w rs rd
  refine ⟨t, ht, ?_, ?_⟩
  · rw [← unsigned_mul_eq_iff w.half]
    constructor
    · intro h
      exact hvalue.symm.trans h.value
    · intro h
      rw [h] at hvalue hZ hN
      exact ⟨hvalue, hZ, hN⟩
  · rw [← unsigned_mul_comm_iff w.half]
    constructor
    · intro h
      obtain ⟨s', rs', rd', hrs, hrd⟩ := s.exchanged_exists w rs rd
      obtain ⟨t', ht', hvalue', -⟩ := s'.opcodeSwitch_mulxs w rs' rd'
      obtain ⟨hresult, -⟩ := h s' rs' rd' t t' hrs hrd ht ht'
      rw [hresult, hrs, hrd] at hvalue'
      exact hvalue.symm.trans hvalue'
    · intro h s' rs' rd' u t' hrs hrd hu ht'
      cases ht.symm.trans hu
      obtain ⟨_, hsome, hvalue', hZ', hN'⟩ := s'.opcodeSwitch_mulxs w rs' rd'
      cases ht'.symm.trans hsome
      rw [hrs, hrd, ← h] at hvalue' hZ' hN'
      refine ⟨?_, hZ'.trans hZ.symm, hN'.trans hN.symm⟩
      exact (toInt_inj (getReg_lt _ _ _) (getReg_lt _ _ _)).mp (hvalue'.trans hvalue.symm)

/-- `MULXS.B R1L,R0` with R0 = 1 and R1L = -1: the product left is 255. -/
theorem multiply_signed_negative : ¬ ∀ (s : Walker) (w : Width) (rs rd : BitVec 4),
    ∃ t, s.opcodeSwitch (w.mulxs rs rd) = .ok t ∧
      Multiplied w (w.half.toInt (getReg s.registers w.half rs))
        (w.low (getReg s.registers w.full rd)) (getReg t.registers w.full rd) t.flags ∧
      s.Commutes w rs rd := by
  intro claim
  obtain ⟨t, ht, h, -⟩ := claim { registers := fun r => if r = 0 then 1 else 0xff } .B 9 0
  cases ht
  exact absurd h.value (by decide)

end Walker

end PokeStroller
