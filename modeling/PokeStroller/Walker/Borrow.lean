import PokeStroller.Lib.Limbs
import PokeStroller.Walker.Compare
import PokeStroller.Walker.Run

/-!
# Subtracting with a borrow

SUB.B on the lowest bytes of two numbers and SUBX on the others. SUBX gives the
right carry to the next byte and subtracts it, too, from its own.
-/

namespace PokeStroller

structure Entry where
  x : Byte
  y : Byte
  result : Byte
  deriving DecidableEq, Repr

namespace Entry

def column (e : Entry) : Column := ⟨e.x.toNat, e.y.toNat⟩

theorem below (e : Entry) : e.column.Below 256 := ⟨e.x.isLt, e.y.isLt⟩

end Entry

namespace Walker

def entry (before after : Walker) (rs rd : BitVec 4) : Entry where
  x := getReg8 before.registers rd
  y := getReg8 before.registers rs
  result := getReg8 after.registers rd

/-- The bytes after the lowest, between them instructions that leave C. -/
inductive Extended : Walker → List Entry → Walker → Prop
  | done (s : Walker) : Extended s [] s
  | reload {s t u : Walker} {i : Instr} {es : List Entry} : s.opcodeSwitch i = .ok t →
      t.flags.C = s.flags.C → Extended t es u → Extended s es u
  | subx {s t u : Walker} {rs rd : BitVec 4} {es : List Entry} :
      s.opcodeSwitch (.subx rs rd) = .ok t → Extended t es u →
        Extended s (s.entry t rs rd :: es) u

/-- A subtraction of any number of bytes, the lowest first. -/
inductive Subtraction : Walker → Entry → List Entry → Walker → Prop
  | sub {s t u : Walker} {rs rd : BitVec 4} {es : List Entry} :
      s.opcodeSwitch (.sub .b (.reg rs) rd) = .ok t → Extended t es u →
        Subtraction s (s.entry t rs rd) es u

end Walker

/-- What a subtraction of these bytes is to leave in them and in C. -/
structure Subtracted (es : List Entry) (C : Bool) : Prop where
  value : ((Nat.ofDigits 256 (es.map fun e => e.result.toNat) : Nat) : Int) =
    ((Nat.ofDigits 256 (es.map fun e => e.x.toNat) : Nat) -
      (Nat.ofDigits 256 (es.map fun e => e.y.toNat) : Nat)) % (256 ^ es.length : Nat)
  C : C = decide (Nat.ofDigits 256 (es.map fun e => e.x.toNat) <
    Nat.ofDigits 256 (es.map fun e => e.y.toNat))

/-- No byte borrows, or every one does. -/
def Unbroken (e : Entry) (es : List Entry) : Prop :=
  (∀ e' ∈ e :: es, e'.y ≤ e'.x) ∨ e.x < e.y ∧ ∀ e' ∈ es, e'.x ≤ e'.y

-- ---------------------------------------------------------------------------
-- One byte
-- ---------------------------------------------------------------------------

theorem toNat_widened (x : Byte) : (x.setWidth 32).toNat = x.toNat :=
  BitVec.toNat_setWidth_of_le (by decide)

theorem toNat_carry (c : Bool) : ((BitVec.ofBool c).setWidth 32).toNat = c.toNat := by
  cases c <;> rfl

theorem sub_widened (x : Byte) (v : BitVec 32) :
    (x.setWidth 32 - v).setWidth 8 = x - v.setWidth 8 := by
  rw [BitVec.sub_eq_add_neg, BitVec.setWidth_add _ _ (by decide),
    BitVec.setWidth_neg_of_le (by decide), ← BitVec.sub_eq_add_neg,
    BitVec.setWidth_setWidth_of_le _ (by decide), BitVec.setWidth_eq]

theorem borrow_eq (x y : Byte) (c : Bool) :
    decide (x.setWidth 32 < y.setWidth 32 + (BitVec.ofBool c).setWidth 32) =
      Column.borrow ⟨x.toNat, y.toNat⟩ c := by
  have hc := Bool.toNat_le c
  have hx := x.isLt
  have hy := y.isLt
  rw [Column.borrow, decide_eq_decide, BitVec.lt_def, BitVec.toNat_add, toNat_widened,
    toNat_widened, toNat_carry]
  dsimp only
  omega

theorem digit_eq (x y : Byte) (c : Bool) :
    (x - y - (BitVec.ofBool c).setWidth 8).toNat = Column.digit 256 ⟨x.toNat, y.toNat⟩ c := by
  cases c <;> simp [Column.digit, BitVec.toNat_sub] <;> omega

theorem getReg8_setReg8_of_ne (registers : Registers) (v : Byte) (h : r ≠ rd) :
    getReg8 (setReg8 registers rd v) r = getReg8 registers r := by
  unfold getReg8 setReg8
  by_cases hidx : regIdx r = regIdx rd
  · have hhigh : regHigh r ≠ regHigh rd := by
      revert r rd
      decide
    rw [hidx, Function.update_self]
    cases hr : regHigh r <;> cases hrd : regHigh rd
    · exact absurd (hr.trans hrd.symm) hhigh
    · apply BitVec.eq_of_getLsbD_eq
      intro i hi
      simp only [Bool.false_eq_true, if_false, if_true, BitVec.getLsbD_extractLsb']
      grind
    · apply BitVec.eq_of_getLsbD_eq
      intro i hi
      simp only [Bool.false_eq_true, if_false, if_true, BitVec.getLsbD_extractLsb']
      grind
    · exact absurd (hr.trans hrd.symm) hhigh
  · rw [Function.update_of_ne hidx]

namespace Walker

theorem opcodeSwitch_sub (s : Walker) (rs rd : BitVec 4) :
    ∃ t, s.opcodeSwitch (.sub .b (.reg rs) rd) = .ok t ∧
      (s.entry t rs rd).result.toNat = (s.entry t rs rd).column.digit 256 false ∧
      t.flags.C = (s.entry t rs rd).column.borrow false ∧
      ∀ r, r ≠ rd → getReg8 t.registers r = getReg8 s.registers r := by
  refine ⟨{ s with toCpu := s.sub .b (.reg rs) rd }, rfl, ?_, ?_, fun r hr => ?_⟩
  · have hresult : getReg8 (s.sub .b (.reg rs) rd).registers rd =
        getReg8 s.registers rd - getReg8 s.registers rs := by
      refine (getReg8_setReg8 s.registers rd _).trans ((sub_widened _ _).trans ?_)
      rw [Source.value, getReg, BitVec.setWidth_setWidth_of_le _ (by decide), BitVec.setWidth_eq]
    refine (congrArg BitVec.toNat hresult).trans ?_
    rw [← BitVec.sub_zero (_ - _)]
    exact digit_eq _ _ false
  · have hC := borrow_eq (getReg8 s.registers rd) (getReg8 s.registers rs) false
    have hzero : (BitVec.ofBool false).setWidth 32 = 0#32 := rfl
    rw [hzero, BitVec.add_zero] at hC
    exact hC
  · exact getReg8_setReg8_of_ne s.registers _ hr

theorem opcodeSwitch_subx (s : Walker) (rs rd : BitVec 4) :
    ∃ t, s.opcodeSwitch (.subx rs rd) = .ok t ∧
      (s.entry t rs rd).result.toNat =
        (s.entry t rs rd).column.digit 256 ((s.entry t rs rd).column.borrow s.flags.C) ∧
      t.flags.C = (s.entry t rs rd).column.borrow s.flags.C ∧
      ∀ r, r ≠ rd → getReg8 t.registers r = getReg8 s.registers r := by
  refine ⟨{ s with toCpu := s.subx rs rd }, rfl, ?_, borrow_eq _ _ _, fun r hr => ?_⟩
  · have hresult : getReg8 (s.subx rs rd).registers rd =
        getReg8 s.registers rd - getReg8 s.registers rs -
          (BitVec.ofBool (s.subx rs rd).flags.C).setWidth 8 := by
      refine (getReg8_setReg8 _ rd _).trans ((sub_widened _ _).trans ?_)
      rw [BitVec.setWidth_setWidth_of_le _ (by decide)]
      refine congrArg (· - _) ((getReg8_setReg8 s.registers rd _).trans
        ((sub_widened _ _).trans ?_))
      rw [getReg, BitVec.setWidth_setWidth_of_le _ (by decide), BitVec.setWidth_eq]
    refine (congrArg BitVec.toNat hresult).trans ((digit_eq _ _ _).trans ?_)
    exact congrArg _ (borrow_eq _ _ _)
  · exact (getReg8_setReg8_of_ne _ _ hr).trans (getReg8_setReg8_of_ne _ _ hr)

end Walker

-- ---------------------------------------------------------------------------
-- Every byte
-- ---------------------------------------------------------------------------

/-- The digits SUBX leaves: each column has the borrow out of it subtracted. -/
def late : List Column → Bool → List Nat
  | [], _ => []
  | p :: ps, c => p.digit 256 (p.borrow c) :: late ps (p.borrow c)

theorem late_eq_iff {ps : List Column} (hps : ∀ p ∈ ps, Column.Below 256 p) (c : Bool) :
    late ps c = Limbs.difference 256 ps c ↔ ∀ p ∈ ps, p.borrow c = c := by
  induction ps generalizing c with
  | nil => simp [late, Limbs.difference]
  | cons p ps ih =>
    have hrest := ih fun q hq => hps q (List.mem_cons_of_mem _ hq)
    have hdigit : p.digit 256 (p.borrow c) = p.digit 256 c ↔ p.borrow c = c :=
      Column.digit_inj (by decide) (hps p List.mem_cons_self)
    simp only [late, Limbs.difference, List.cons.injEq, List.forall_mem_cons, hdigit, hrest]
    constructor
    · rintro ⟨hp, hps⟩
      rw [hp] at hps
      exact ⟨hp, hps⟩
    · rintro ⟨hp, hps⟩
      rw [hp]
      exact ⟨rfl, hps⟩

theorem unbroken_iff (e : Entry) (es : List Entry) :
    Unbroken e es ↔
      ∀ p ∈ es.map Entry.column, p.borrow (e.column.borrow false) = e.column.borrow false := by
  have hfirst : e.column.borrow false = decide (e.x < e.y) := rfl
  simp only [hfirst, Column.borrow_eq_iff, List.forall_mem_map, decide_eq_true_eq]
  unfold Unbroken
  simp only [List.forall_mem_cons, BitVec.le_def, BitVec.lt_def, Entry.column]
  by_cases h : e.x.toNat < e.y.toNat
  · simp [h]
  · simp [h, Nat.not_lt.mp h]

theorem minuend_map (es : List Entry) :
    Limbs.minuend 256 (es.map Entry.column) = Nat.ofDigits 256 (es.map fun e => e.x.toNat) :=
  congrArg _ List.map_map

theorem subtrahend_map (es : List Entry) :
    Limbs.subtrahend 256 (es.map Entry.column) = Nat.ofDigits 256 (es.map fun e => e.y.toNat) :=
  congrArg _ List.map_map

theorem subtracted_iff (e : Entry) (es : List Entry)
    (hresults : (e :: es).map (fun e => e.result.toNat) =
      e.column.digit 256 false :: late (es.map Entry.column) (e.column.borrow false))
    (hC : C = Limbs.borrowOut ((e :: es).map Entry.column) false) :
    Subtracted (e :: es) C ↔ Unbroken e es := by
  have hbelow (es : List Entry) : ∀ p ∈ es.map Entry.column, Column.Below 256 p := by
    simp [Entry.below]
  have hdigit : ∀ d ∈ (e :: es).map fun e => e.result.toNat, d < 256 := fun d hd => by
    obtain ⟨e, -, rfl⟩ := List.mem_map.mp hd
    exact e.result.isLt
  have hvalue := Limbs.ofDigits_eq_iff (by decide) (hbelow (e :: es)) false (by simp) hdigit
  have hborrow := Limbs.borrowOut_eq (b := 256) (by decide) (hbelow (e :: es)) false
  rw [minuend_map, subtrahend_map, List.length_map, Bool.toNat_false, Nat.cast_zero,
    Int.sub_zero] at hvalue
  rw [minuend_map, subtrahend_map] at hborrow
  have hdigits : (e :: es).map (fun e => e.result.toNat) =
      Limbs.difference 256 ((e :: es).map Entry.column) false ↔ Unbroken e es := by
    rw [hresults, List.map_cons, Limbs.difference, List.cons.injEq, late_eq_iff (hbelow es),
      unbroken_iff]
    exact and_iff_right rfl
  rw [← hdigits, ← hvalue]
  exact ⟨Subtracted.value, fun h => ⟨h, hC.trans hborrow⟩⟩

namespace Walker

theorem Extended.spec (h : Extended s es t) :
    es.map (fun e => e.result.toNat) = late (es.map Entry.column) s.flags.C ∧
      t.flags.C = Limbs.borrowOut (es.map Entry.column) s.flags.C := by
  induction h with
  | done s => exact ⟨rfl, rfl⟩
  | reload _ hC _ ih =>
    rw [hC] at ih
    exact ih
  | subx hsubx _ ih =>
    obtain ⟨t, ht, hresult, hC, -⟩ := opcodeSwitch_subx _ _ _
    cases hsubx.symm.trans ht
    rw [hC] at ih
    refine ⟨?_, ih.2⟩
    rw [List.map_cons, hresult, ih.1]
    rfl

theorem Subtraction.subtracted_iff (h : Subtraction s e es t) :
    Subtracted (e :: es) t.flags.C ↔ Unbroken e es := by
  cases h with
  | sub hsub hrest =>
    obtain ⟨t, ht, hresult, hC, -⟩ := opcodeSwitch_sub _ _ _
    cases hsub.symm.trans ht
    obtain ⟨hresults, hborrow⟩ := hrest.spec
    rw [hC] at hresults hborrow
    refine PokeStroller.subtracted_iff _ _ ?_ hborrow
    rw [List.map_cons, hresult, hresults]

-- ---------------------------------------------------------------------------
-- Operands in registers
-- ---------------------------------------------------------------------------

def subxs : List (BitVec 4 × BitVec 4) → Walker → Outcome Fault Walker
  | [], s => .ok s
  | (rs, rd) :: ps, s => (s.opcodeSwitch (.subx rs rd)).andThen (subxs ps)

def Distinct (ps : List (BitVec 4 × BitVec 4)) : Prop := (ps.flatMap fun p => [p.1, p.2]).Nodup

theorem Distinct.tail (h : Distinct (p :: ps)) :
    Distinct ps ∧ ∀ q ∈ ps, q.1 ≠ p.2 ∧ q.2 ≠ p.2 := by
  simp only [Distinct, List.flatMap_cons, List.cons_append, List.nil_append, List.nodup_cons] at h
  obtain ⟨-, hnotin, hrest⟩ := h
  refine ⟨hrest, fun q hq => ⟨?_, ?_⟩⟩
  · intro heq
    exact hnotin (List.mem_flatMap.mpr ⟨q, hq, by simp [heq]⟩)
  · intro heq
    exact hnotin (List.mem_flatMap.mpr ⟨q, hq, by simp [heq]⟩)

theorem map_entry_congr {s s' : Walker} {ps : List (BitVec 4 × BitVec 4)} (t : Walker)
    (h : ∀ p ∈ ps, getReg8 s.registers p.1 = getReg8 s'.registers p.1 ∧
      getReg8 s.registers p.2 = getReg8 s'.registers p.2) :
    ps.map (fun p => s.entry t p.1 p.2) = ps.map fun p => s'.entry t p.1 p.2 := by
  refine List.map_congr_left fun p hp => ?_
  rw [entry, entry, (h p hp).1, (h p hp).2]

theorem extended_of_distinct (s : Walker) (hps : Distinct ps) :
    ∃ t, subxs ps s = .ok t ∧ Extended s (ps.map fun p => s.entry t p.1 p.2) t ∧
      ∀ r, (∀ p ∈ ps, p.2 ≠ r) → getReg8 t.registers r = getReg8 s.registers r := by
  induction ps generalizing s with
  | nil => exact ⟨s, rfl, .done s, fun _ _ => rfl⟩
  | cons p ps ih =>
    obtain ⟨htail, hne⟩ := hps.tail
    obtain ⟨t, ht, -, -, hframe⟩ := opcodeSwitch_subx s p.1 p.2
    obtain ⟨u, hu, hextended, hframe'⟩ := ih t htail
    have hlast : s.entry u p.1 p.2 = s.entry t p.1 p.2 := by
      rw [entry, entry, hframe' p.2 fun q hq => (hne q hq).2]
    refine ⟨u, ?_, ?_, fun r hr => ?_⟩
    · rw [subxs, ht]
      exact hu
    · rw [List.map_cons, hlast, map_entry_congr u fun q hq =>
        ⟨(hframe q.1 (hne q hq).1).symm, (hframe q.2 (hne q hq).2).symm⟩]
      exact .subx ht hextended
    · rw [hframe' r fun q hq => hr q (List.mem_cons_of_mem _ hq),
        hframe r (hr p List.mem_cons_self).symm]

/-- A subtraction of bytes held in registers or reloaded leaves the difference
and its borrow exactly if no byte borrows or every one does. -/
theorem subtract_iff (s : Walker) :
    (∀ (t : Walker) (e : Entry) (es : List Entry), Subtraction s e es t →
      (Subtracted (e :: es) t.flags.C ↔ Unbroken e es)) ∧
    ∀ (p : BitVec 4 × BitVec 4) (ps : List (BitVec 4 × BitVec 4)),
      Distinct (p :: ps) →
        ∃ t, (s.opcodeSwitch (.sub .b (.reg p.1) p.2)).andThen (subxs ps) = .ok t ∧
          (Subtracted ((p :: ps).map fun p => s.entry t p.1 p.2) t.flags.C ↔
            Unbroken (s.entry t p.1 p.2) (ps.map fun p => s.entry t p.1 p.2)) := by
  refine ⟨fun t e es h => h.subtracted_iff, fun p ps hps => ?_⟩
  obtain ⟨htail, hne⟩ := hps.tail
  obtain ⟨t, ht, -, -, hframe⟩ := opcodeSwitch_sub s p.1 p.2
  obtain ⟨u, hu, hextended, hframe'⟩ := extended_of_distinct t htail
  have hlast : s.entry u p.1 p.2 = s.entry t p.1 p.2 := by
    rw [entry, entry, hframe' p.2 fun q hq => (hne q hq).2]
  refine ⟨u, ?_, ?_⟩
  · rw [ht]
    exact hu
  · rw [List.map_cons, hlast, map_entry_congr u fun q hq =>
      ⟨(hframe q.1 (hne q hq).1).symm, (hframe q.2 (hne q hq).2).symm⟩]
    exact Subtraction.subtracted_iff (.sub ht hextended)

/-- 0x0504 - 0x0102, in R1 and R0, and its low bytes alone. -/
theorem subtract_iff_level :
    (∃ t e, Subtraction { registers := fun r => if r = 0 then 0x102 else 0x504 } e [] t ∧
      Subtracted [e] t.flags.C) ∧
    ∃ t, (Walker.opcodeSwitch { registers := fun r => if r = 0 then 0x102 else 0x504 }
        (.sub .b (.reg 8) 9)).andThen (subxs [(0, 1)]) = .ok t ∧ t.flags.C = false := by
  obtain ⟨hchain, hheld⟩ := subtract_iff { registers := fun r => if r = 0 then 0x102 else 0x504 }
  obtain ⟨t, ht, hsubtracted⟩ := hheld (8, 9) [(0, 1)] (by simp [Distinct])
  have hlow : (2 : Byte) ≤ 4 := by decide
  have hhigh : (1 : Byte) ≤ 5 := by decide
  have hC := (hsubtracted.mpr (.inl (by
    simp only [List.map_cons, List.map_nil, List.forall_mem_cons]
    exact ⟨hlow, hhigh, by simp⟩))).C
  have hsub : Walker.opcodeSwitch { registers := fun r => if r = 0 then 0x102 else 0x504 }
      (.sub .b (.reg 8) 9) = .ok _ := rfl
  refine ⟨⟨_, _, .sub hsub (.done _), ?_⟩, t, ht, hC.trans rfl⟩
  refine (hchain _ _ _ (.sub hsub (.done _))).mpr (.inl ?_)
  simp only [List.forall_mem_cons]
  exact ⟨hlow, by simp⟩

/-- 0x0100 - 0x0001, in R1 and R0, leaves 0x01ff. -/
theorem borrow_out_subtracted : ¬ ∀ (s t : Walker) (e : Entry) (es : List Entry),
    Subtraction s e es t → Subtracted (e :: es) t.flags.C := by
  intro claim
  obtain ⟨t, ht⟩ : ∃ t, Walker.opcodeSwitch
      { registers := fun r => if r = 0 then 0x1 else 0x100 } (.sub .b (.reg 8) 9) = .ok t := ⟨_, rfl⟩
  obtain ⟨u, hu⟩ : ∃ u, t.opcodeSwitch (.subx 0 1) = .ok u := ⟨_, rfl⟩
  have h := claim _ _ _ _ (.sub ht (.subx hu (.done _)))
  cases ht
  cases hu
  exact absurd h.value (by decide)

end Walker

end PokeStroller
