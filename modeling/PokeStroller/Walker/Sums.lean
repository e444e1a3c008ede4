import PokeStroller.Walker.Compare

/-!
# Adding and counting

The sums of ADD, INC and DEC and what the flags say of them. `setFlagsADD`
derives the carry from sign bits and misses every carry out of a negative
source; `setFlagsINC` tests its 32-bit sum for zero at every size.
-/

namespace PokeStroller

-- ---------------------------------------------------------------------------
-- Sums at a size
-- ---------------------------------------------------------------------------

def Size.InRange (sz : Size) (n : Int) : Prop := -sz.modulus ≤ 2 * n ∧ 2 * n < sz.modulus

instance : Decidable (Size.InRange sz n) := inferInstanceAs (Decidable (_ ∧ _))

variable {sz : Size} {d v : BitVec 32}

theorem toNat_add_mod (sz : Size) (d v : BitVec 32) :
    (d + v).toNat % sz.modulus = (d.toNat % sz.modulus + v.toNat % sz.modulus) % sz.modulus := by
  have hdvd : sz.modulus ∣ 4294967296 := by cases sz <;> decide
  rw [BitVec.toNat_add, Nat.mod_mod_of_dvd _ hdvd, Nat.add_mod]

theorem modulus_pos (sz : Size) : 0 < sz.modulus := by cases sz <;> decide

theorem toInt_eq_mod (sz : Size) (v : BitVec 32) :
    sz.toInt v = if sz.sign v then ((v.toNat % sz.modulus : Nat) : Int) - sz.modulus
      else (v.toNat % sz.modulus : Nat) := by
  have hcond := BitVec.toInt_eq_toNat_cond (v.setWidth sz.numberOfBits)
  rw [BitVec.toNat_setWidth] at hcond
  have hbits : 2 ^ sz.numberOfBits = sz.modulus := by cases sz <;> rfl
  rw [hbits] at hcond
  by_cases h : sz.modulus ≤ 2 * (v.toNat % sz.modulus)
  · rw [if_neg (Nat.not_lt.mpr h)] at hcond
    rw [if_pos ((sign_iff sz v).mpr h)]
    exact hcond
  · rw [if_pos (Nat.lt_of_not_le h)] at hcond
    rw [if_neg fun hs => h ((sign_iff sz v).mp hs)]
    exact hcond

theorem overflow_eq (sz : Size) (d v : BitVec 32) :
    (~~~(d ^^^ v) &&& ((d + v) ^^^ d) &&& sz.negativeFlag != 0) =
      decide (¬ sz.InRange (sz.toInt d + sz.toInt v)) := by
  have hd := Nat.mod_lt d.toNat (modulus_pos sz)
  have hv := Nat.mod_lt v.toNat (modulus_pos sz)
  have hsd := sign_iff sz d
  have hsv := sign_iff sz v
  have hsum := sign_iff sz (d + v)
  rw [toNat_add_mod] at hsum
  rw [and_negativeFlag, Bool.eq_iff_iff, decide_eq_true_iff, toInt_eq_mod, toInt_eq_mod,
    Size.InRange]
  have hand : sz.sign (~~~(d ^^^ v) &&& ((d + v) ^^^ d)) =
      (!(sz.sign d ^^ sz.sign v) && (sz.sign (d + v) ^^ sz.sign d)) := by
    rw [← sign_xor, ← sign_xor, ← sign_not]
    exact BitVec.getLsbD_and
  rw [hand]
  generalize d.toNat % sz.modulus = x at hd hsd hsum
  generalize v.toNat % sz.modulus = y at hv hsv hsum
  have hwrap : (x + y) % sz.modulus = if x + y < sz.modulus then x + y else x + y - sz.modulus := by
    split
    · exact Nat.mod_eq_of_lt ‹_›
    · rw [Nat.mod_eq_sub_mod (by omega), Nat.mod_eq_of_lt (by omega)]
  rw [hwrap] at hsum
  cases hcd : sz.sign d <;> cases hcv : sz.sign v <;> cases hcs : sz.sign (d + v) <;>
    simp only [hcd, hcv, hcs, Bool.false_eq_true, false_iff, true_iff, Nat.not_le] at hsd hsv hsum <;>
    split at hsum <;> simp <;> omega

theorem truncate_toNat (sz : Size) (v : BitVec 32) :
    (sz.truncate v).toNat = v.toNat % sz.modulus := by
  cases sz with
  | b => exact (BitVec.toNat_and _ _).trans (Nat.and_two_pow_sub_one_eq_mod v.toNat 8)
  | w => exact (BitVec.toNat_and _ _).trans (Nat.and_two_pow_sub_one_eq_mod v.toNat 16)
  | l => exact (Nat.mod_eq_of_lt v.isLt).symm

-- ---------------------------------------------------------------------------
-- ADD
-- ---------------------------------------------------------------------------

/-- What an ADD of `v` to `d` is to leave in its register and in the flags, and
what BCS and BCC are to make of them. -/
structure Added (sz : Size) (d v sum : BitVec 32) (flags : Flags) : Prop where
  result : sum.toNat = (d.toNat + v.toNat) % sz.modulus
  C : flags.C = decide (sz.modulus ≤ d.toNat + v.toNat)
  V : flags.V = decide (¬ sz.InRange (sz.toInt d + sz.toInt v))
  Z : flags.Z = decide (sum = 0)
  N : flags.N = decide (sz.modulus ≤ 2 * sum.toNat)
  BCS : Cpu.condition8 Comparison.BCS.cc flags = decide (sz.modulus ≤ d.toNat + v.toNat) ∧
    Cpu.condition16 Comparison.BCS.cc flags = decide (sz.modulus ≤ d.toNat + v.toNat)
  BCC : Cpu.condition8 Comparison.BCC.cc flags = decide (d.toNat + v.toNat < sz.modulus) ∧
    Cpu.condition16 Comparison.BCC.cc flags = decide (d.toNat + v.toNat < sz.modulus)

/-- The carry of `setFlagsADD` is that of the sum unless the source is negative
and there is one. -/
theorem setFlagsADD_C (flags : Flags) (hd : d.toNat < sz.modulus) (hv : v.toNat < sz.modulus) :
    (setFlagsADD flags d v sz).C = decide (sz.modulus ≤ d.toNat + v.toNat) ↔
      d.toNat + v.toNat < sz.modulus ∨ 2 * v.toNat < sz.modulus := by
  have hsd := sign_iff_of_lt hd
  have hsv := sign_iff_of_lt hv
  have hsum := sign_iff sz (d + v)
  rw [toNat_add_mod, Nat.mod_eq_of_lt hd, Nat.mod_eq_of_lt hv] at hsum
  simp only [setFlagsADD, and_negativeFlag]
  by_cases hcarry : sz.modulus ≤ d.toNat + v.toNat
  · rw [Nat.mod_eq_sub_mod hcarry, Nat.mod_eq_of_lt (by omega)] at hsum
    rw [decide_eq_true hcarry]
    cases hcd : sz.sign d <;> cases hcv : sz.sign v <;> cases hcs : sz.sign (d + v) <;>
      simp [hcd, hcv, hcs] at hsd hsv hsum ⊢ <;> omega
  · rw [Nat.mod_eq_of_lt (by omega)] at hsum
    rw [decide_eq_false hcarry]
    cases hcd : sz.sign d <;> cases hcv : sz.sign v <;> cases hcs : sz.sign (d + v) <;>
      simp [hcd, hcv, hcs] at hsd hsv hsum ⊢ <;> omega

theorem added_iff (flags : Flags) {result : BitVec 32} (hd : d.toNat < sz.modulus)
    (hv : v.toNat < sz.modulus) (hresult : result.toNat = (d + v).toNat % sz.modulus) :
    Added sz d v result (setFlagsADD flags d v sz) ↔
      d.toNat + v.toNat < sz.modulus ∨ 2 * v.toNat < sz.modulus := by
  rw [← setFlagsADD_C flags hd hv]
  refine ⟨Added.C, fun hC => ?_⟩
  have hzero : sz.truncate (d + v) = result :=
    BitVec.eq_of_toNat_eq ((truncate_toNat sz _).trans hresult.symm)
  have hN := sign_iff sz (d + v)
  rw [← hresult] at hN
  have hnot : (!decide (sz.modulus ≤ d.toNat + v.toNat)) =
      decide (d.toNat + v.toNat < sz.modulus) := by
    rw [← decide_not, decide_eq_decide]
    exact Nat.not_le
  refine ⟨?_, hC, overflow_eq sz d v, ?_, ?_, ⟨hC, hC⟩, ?_⟩
  · rw [hresult, toNat_add_mod, Nat.mod_eq_of_lt hd, Nat.mod_eq_of_lt hv]
  · simp only [setFlagsADD, hzero, Bool.beq_eq_decide_eq]
  · simp only [setFlagsADD, truncate_and_negativeFlag, and_negativeFlag]
    rw [Bool.eq_iff_iff, decide_eq_true_iff]
    exact hN
  · rw [← hC] at hnot
    exact ⟨hnot, hnot⟩

namespace Walker

/-- Every form of ADD meets its description on the operands without a carry, and
on those with a carry out of a source that is not negative. -/
theorem add_iff (s : Walker) (hfits : (Instr.add sz src rd).Fits) :
    ∃ t, s.opcodeSwitch (.add sz src rd) = .ok t ∧
      (Added sz (getReg s.registers sz rd) (src.value s.registers sz)
          (getReg t.registers sz rd) t.flags ↔
        (getReg s.registers sz rd).toNat + (src.value s.registers sz).toNat < sz.modulus ∨
          2 * (src.value s.registers sz).toNat < sz.modulus) := by
  refine ⟨_, rfl, added_iff s.flags (getReg_lt s.registers sz rd) ?_ ?_⟩
  · have hsource : (Instr.cmp sz src rd).Fits := by cases src <;> exact hfits
    exact value_lt s.registers hsource
  · exact getReg_setReg _ _ _ _

/-- `ADD.B #1,R0L` with R0L = 0xff. -/
theorem add_iff_wraps :
    ∃ t, Walker.opcodeSwitch { registers := fun _ => 0xff } (.add .b (.imm 1) 8) = .ok t ∧
      t.flags.C = true ∧ t.flags.Z = true := by
  have hfits : (Instr.add .b (.imm 1) 8).Fits := show (1 : BitVec 32).toNat < 2 ^ 8 by decide
  obtain ⟨t, ht, hadded⟩ := add_iff { registers := fun _ => 0xff } hfits
  have h := hadded.mpr (by decide)
  cases ht
  exact ⟨_, rfl, h.C.trans (by decide), h.Z.trans (by decide)⟩

/-- `ADD.B #0x80,R0L` with R0L = 0x80: the sum is 256 and C is clear. -/
theorem add_carry_lost : ¬ ∀ (s : Walker) (sz : Size) (src : Source) (rd : BitVec 4),
    (Instr.add sz src rd).Fits → ∃ t, s.opcodeSwitch (.add sz src rd) = .ok t ∧
      Added sz (getReg s.registers sz rd) (src.value s.registers sz)
        (getReg t.registers sz rd) t.flags := by
  intro claim
  obtain ⟨t, ht, h⟩ := claim { registers := fun _ => 0x80 } .b (.imm 0x80) 8
    (show (0x80 : BitVec 32).toNat < Size.b.modulus by decide)
  cases ht
  exact absurd h.C (by decide)

end Walker

-- ---------------------------------------------------------------------------
-- INC and DEC
-- ---------------------------------------------------------------------------

inductive Direction
  | INC
  | DEC
  deriving DecidableEq, Repr

namespace Direction

def instr (sz : Size) (k : BitVec 32) (rd : BitVec 4) : Direction → Instr
  | INC => .inc sz k rd
  | DEC => .dec sz k rd

def step (k : BitVec 32) : Direction → Int
  | INC => k.toNat
  | DEC => -k.toNat

def value2 (k : BitVec 32) : Direction → BitVec 32
  | INC => k
  | DEC => -k

end Direction

/-- What a count from `v` is to leave in its register and in the flags. -/
structure Counted (sz : Size) (step : Int) (v : BitVec 32) (before : Flags) (count : BitVec 32)
    (flags : Flags) : Prop where
  result : (count.toNat : Int) = (v.toNat + step) % sz.modulus
  Z : flags.Z = decide (count = 0)
  N : flags.N = decide (sz.modulus ≤ 2 * count.toNat)
  V : flags.V = decide (¬ sz.InRange (sz.toInt v + step))
  C : flags.C = before.C
  H : flags.H = before.H

/-- The counts whose 32-bit sum is zero exactly if the register is. -/
def Direction.ZeroSeen (sz : Size) (k v : BitVec 32) (dir : Direction) : Prop :=
  dir = .DEC ∨ sz = .l ∨ v.toNat + k.toNat ≠ sz.modulus

theorem toNat_eq_zero {x : BitVec 32} : x = 0 ↔ x.toNat = 0 :=
  ⟨fun h => by rw [h]; rfl, fun h => BitVec.eq_of_toNat_eq h⟩

theorem sum_eq_zero_iff (dir : Direction) {k : BitVec 32} (hk : k = 1 ∨ k = 2)
    (hv : v.toNat < sz.modulus) :
    (v + dir.value2 k = 0 ↔ (v + dir.value2 k).toNat % sz.modulus = 0) ↔ dir.ZeroSeen sz k v := by
  have hword := v.isLt
  have hle : k.toNat = 1 ∨ k.toNat = 2 := hk.imp (congrArg BitVec.toNat) (congrArg BitVec.toNat)
  rw [toNat_eq_zero]
  cases dir with
  | INC =>
    have hsum : (v + Direction.INC.value2 k).toNat = (v.toNat + k.toNat) % 4294967296 :=
      BitVec.toNat_add v k
    rw [hsum]
    unfold Direction.ZeroSeen
    cases sz with
    | b => simp only [Size.modulus, reduceCtorEq, false_or] at hv ⊢; omega
    | w => simp only [Size.modulus, reduceCtorEq, false_or] at hv ⊢; omega
    | l => simp only [Size.modulus, reduceCtorEq, false_or, true_or, Nat.mod_mod]
  | DEC =>
    have hsum : (v + Direction.DEC.value2 k).toNat = (v.toNat + (4294967296 - k.toNat)) % 4294967296 := by
      rw [BitVec.toNat_add, Direction.value2, BitVec.toNat_neg]
      omega
    rw [hsum]
    unfold Direction.ZeroSeen
    simp only [true_or, iff_true]
    cases sz <;> simp only [Size.modulus] at hv ⊢ <;> omega

theorem toInt_value2 (sz : Size) (dir : Direction) {k : BitVec 32} (hk : k = 1 ∨ k = 2) :
    sz.toInt (dir.value2 k) = dir.step k := by
  rcases hk with rfl | rfl <;> cases sz <;> cases dir <;> decide

theorem toNat_value2 (dir : Direction) {k : BitVec 32} (hk : k = 1 ∨ k = 2) :
    (((v + dir.value2 k).toNat % sz.modulus : Nat) : Int) = (v.toNat + dir.step k) % sz.modulus := by
  have hle : k.toNat = 1 ∨ k.toNat = 2 := hk.imp (congrArg BitVec.toNat) (congrArg BitVec.toNat)
  cases dir with
  | INC =>
    rw [Direction.value2, BitVec.toNat_add, Direction.step]
    cases sz <;> simp only [Size.modulus] <;> omega
  | DEC =>
    rw [Direction.value2, BitVec.toNat_add, BitVec.toNat_neg, Direction.step]
    cases sz <;> simp only [Size.modulus] <;> omega

theorem counted_iff (before : Flags) (dir : Direction) {k count : BitVec 32} (hk : k = 1 ∨ k = 2)
    (hv : v.toNat < sz.modulus) (hcount : count.toNat = (v + dir.value2 k).toNat % sz.modulus) :
    Counted sz (dir.step k) v before count (setFlagsINC before v (dir.value2 k) sz) ↔
      dir.ZeroSeen sz k v := by
  have hZ : (setFlagsINC before v (dir.value2 k) sz).Z = decide (v + dir.value2 k = 0) :=
    Bool.beq_eq_decide_eq _ _
  rw [← sum_eq_zero_iff dir hk hv, ← hcount]
  constructor
  · intro h
    have heq := hZ.symm.trans h.Z
    rw [decide_eq_decide, toNat_eq_zero (x := count)] at heq
    exact heq
  · intro h
    have hN := sign_iff sz (v + dir.value2 k)
    rw [← hcount] at hN
    refine ⟨?_, ?_, ?_, ?_, rfl, rfl⟩
    · rw [hcount]
      exact toNat_value2 dir hk
    · rw [hZ, decide_eq_decide, toNat_eq_zero (x := count)]
      exact h
    · simp only [setFlagsINC, and_negativeFlag]
      rw [Bool.eq_iff_iff, decide_eq_true_iff]
      exact hN
    · rw [← toInt_value2 sz dir hk]
      exact overflow_eq sz v (dir.value2 k)

-- ---------------------------------------------------------------------------
-- Loops
-- ---------------------------------------------------------------------------

namespace Walker

def fetchAt (memory : Memory) (pc : BitVec 16) : Instr := Walker.fetch { memory := memory, pc := pc }

/-- At `p` a count by 1, and after it a BNE back to it. -/
structure CountLoop (dir : Direction) (sz : Size) (rd : BitVec 4) (disp : Displacement)
    (p : BitVec 16) (memory : Memory) : Prop where
  hookFree : HookFree p ∧ HookFree (p + 2)
  count : fetchAt memory p = dir.instr sz 1 rd
  branch : fetchAt memory (p + 2) = disp.bcc Comparison.BNE.cc
  target : disp.target (p + 2) = p

inductive Turns (p : BitVec 16) : Walker → Nat → Walker → Prop
  | nil (s : Walker) : Turns p s 0 s
  | cons {s t u v : Walker} {n : Nat} : s.pc = p → s.instructionPhase = .ok t →
      t.instructionPhase = .ok u → Turns p u n v → Turns p s (n + 1) v

/-- The loop ends, and it ends where its register is zero after a turn. -/
def ExitsAtZero (sz : Size) (rd : BitVec 4) (disp : Displacement) (p : BitVec 16) (s : Walker) :
    Prop :=
  (∀ n t, Turns p s (n + 1) t → (t.pc = disp.next (p + 2) ↔ getReg t.registers sz rd = 0)) ∧
    ∃ n t, Turns p s (n + 1) t ∧ getReg t.registers sz rd = 0

theorem execute_count (saved : BitVec 16) (savedFlags : Flags) (s : Cpu) (dir : Direction)
    (sz : Size) (k : BitVec 32) (rd : BitVec 4) :
    execute saved savedFlags s (dir.instr sz k rd) = .ok { s with
      flags := setFlagsINC s.flags (getReg s.registers sz rd) (dir.value2 k) sz
      registers := setReg s.registers sz rd (getReg s.registers sz rd + dir.value2 k) } := by
  cases dir with
  | INC => rfl
  | DEC => simp only [Direction.instr, execute, Cpu.dec, Direction.value2, BitVec.sub_eq_add_neg]

/-- A turn counts and comes back to `p` unless the 32-bit sum is zero. -/
theorem CountLoop.turn {s : Walker} (h : CountLoop dir sz rd disp p s.memory) (hp : s.pc = p) :
    ∃ t u, s.instructionPhase = .ok t ∧ t.instructionPhase = .ok u ∧ u.memory = s.memory ∧
      (getReg u.registers sz rd).toNat =
        (getReg s.registers sz rd + dir.value2 1).toNat % sz.modulus ∧
      u.pc = if getReg s.registers sz rd + dir.value2 1 = 0 then disp.next (p + 2) else p := by
  have hfetch : s.fetch = dir.instr sz 1 rd := by
    rw [← h.count, ← hp]
    rfl
  have hexec := execute_count s.interruptSavedAddress s.interruptSavedFlags s.toCpu dir sz 1 rd
  rw [← hfetch] at hexec
  obtain ⟨t, ht, htcpu⟩ := instructionPhase_of_execute (hp.symm ▸ h.hookFree.1) hexec
  have htpc : t.pc = p + 2 := by
    rw [htcpu, ← hp]
    rfl
  have htmemory : t.memory = s.memory := by rw [htcpu]; rfl
  have htfetch : t.fetch = disp.bcc Comparison.BNE.cc := by
    rw [← h.branch, ← htpc, ← htmemory]
    rfl
  obtain ⟨cpu, hexec', hbranch⟩ := execute_bcc t.interruptSavedAddress t.interruptSavedFlags
    t.toCpu Comparison.BNE.cc_ne disp
  rw [← htfetch] at hexec'
  obtain ⟨u, hu, hucpu⟩ := instructionPhase_of_execute (htpc.symm ▸ h.hookFree.2) hexec'
  rw [hbranch] at hucpu
  have hZ : t.flags.Z = decide (getReg s.registers sz rd + dir.value2 1 = 0) := by
    rw [htcpu]
    exact Bool.beq_eq_decide_eq _ _
  refine ⟨t, u, ht, hu, ?_, ?_, ?_⟩
  · rw [hucpu]
    exact htmemory
  · rw [hucpu]
    change (getReg t.registers sz rd).toNat = _
    rw [htcpu]
    exact getReg_setReg _ _ _ _
  · rw [hucpu]
    change (if (!t.flags.Z) = true then disp.target t.pc else disp.next t.pc) = _
    rw [htpc, h.target, hZ]
    simp

theorem next_ne (disp : Displacement) (p : BitVec 16) : disp.next (p + 2) ≠ p := by
  cases disp with
  | d8 => change p + 2 + 2 ≠ p; bv_omega
  | d16 => change p + 2 + 4 ≠ p; bv_omega

theorem CountLoop.turn_exits {s : Walker} (h : CountLoop dir sz rd disp p s.memory)
    (hp : s.pc = p) (hseen : dir.ZeroSeen sz 1 (getReg s.registers sz rd)) :
    ∃ t u, s.instructionPhase = .ok t ∧ t.instructionPhase = .ok u ∧ u.memory = s.memory ∧
      ((getReg u.registers sz rd).toNat : Int) =
        ((getReg s.registers sz rd).toNat + dir.step 1) % sz.modulus ∧
      u.pc = if getReg u.registers sz rd = 0 then disp.next (p + 2) else p := by
  obtain ⟨t, u, ht, hu, hmemory, hreg, hpc⟩ := h.turn hp
  have hzero := (sum_eq_zero_iff dir (.inl rfl) (getReg_lt s.registers sz rd)).mpr hseen
  rw [← hreg, ← toNat_eq_zero] at hzero
  refine ⟨t, u, ht, hu, hmemory, ?_, ?_⟩
  · rw [hreg]
    exact toNat_value2 dir (.inl rfl)
  · rw [hpc]
    simp only [hzero]

theorem Turns.last {s t : Walker} (hturns : Turns p s (n + 1) t)
    (h : CountLoop dir sz rd disp p s.memory) :
    ∃ r u : Walker, r.pc = p ∧ r.memory = s.memory ∧ r.instructionPhase = .ok u ∧
      u.instructionPhase = .ok t := by
  induction n generalizing s with
  | zero =>
    cases hturns with
    | cons hp ht hu hrest =>
      cases hrest
      exact ⟨_, _, hp, rfl, ht, hu⟩
  | succ n ih =>
    cases hturns with
    | cons hp ht hu hrest =>
      obtain ⟨_, _, ht', hu', hmemory, -, -⟩ := h.turn hp
      cases ht.symm.trans ht'
      cases hu.symm.trans hu'
      obtain ⟨r, u, hr, hrmemory, hlast⟩ := ih hrest (hmemory ▸ h)
      exact ⟨r, u, hr, hrmemory.trans hmemory, hlast⟩

theorem Turns.exits {s t : Walker} (hdir : dir = .DEC ∨ sz = .l) (hturns : Turns p s (n + 1) t)
    (h : CountLoop dir sz rd disp p s.memory) :
    t.pc = disp.next (p + 2) ↔ getReg t.registers sz rd = 0 := by
  obtain ⟨r, u, hr, hmemory, hu, ht⟩ := hturns.last h
  obtain ⟨_, _, hu', ht', -, -, hpc⟩ :=
    CountLoop.turn_exits (hmemory ▸ h) hr (hdir.imp id .inl)
  cases hu.symm.trans hu'
  cases ht.symm.trans ht'
  rw [hpc]
  split
  · exact iff_of_true rfl ‹_›
  · exact iff_of_false (next_ne disp p).symm ‹_›

/-- The 32-bit sum of a count up at a smaller size is never zero. -/
theorem Turns.stays {s t : Walker} (hdir : ¬ (dir = .DEC ∨ sz = .l)) (hturns : Turns p s (n + 1) t)
    (h : CountLoop dir sz rd disp p s.memory) : t.pc = p := by
  have hsum (v : BitVec 32) (hv : v.toNat < sz.modulus) : ¬ v + dir.value2 1 = 0 := by
    cases dir with
    | DEC => exact absurd (.inl rfl) hdir
    | INC =>
      change ¬ v + 1 = 0
      cases sz with
      | l => exact absurd (.inr rfl) hdir
      | b => change v.toNat < 256 at hv; bv_omega
      | w => change v.toNat < 65536 at hv; bv_omega
  obtain ⟨r, u, hr, hmemory, hu, ht⟩ := hturns.last h
  obtain ⟨_, _, hu', ht', -, -, hpc⟩ := CountLoop.turn (hmemory ▸ h) hr
  cases hu.symm.trans hu'
  cases ht.symm.trans ht'
  rwa [if_neg (hsum _ (getReg_lt r.registers sz rd))] at hpc

def turnsLeft (sz : Size) (v : Nat) : Direction → Nat
  | .INC => sz.modulus - v
  | .DEC => if v = 0 then sz.modulus else v

theorem turnsLeft_pos {v : Nat} (hv : v < sz.modulus) : 0 < turnsLeft sz v dir := by
  cases dir with
  | INC => exact Nat.sub_pos_of_lt hv
  | DEC =>
    change 0 < if v = 0 then sz.modulus else v
    split <;> omega

theorem turnsLeft_turn {v v' : Nat} (hv : v < sz.modulus) (hne : v' ≠ 0)
    (hturn : (v' : Int) = (v + dir.step 1) % sz.modulus) :
    turnsLeft sz v dir = turnsLeft sz v' dir + 1 := by
  cases dir with
  | INC =>
    change (v' : Int) = (v + 1) % sz.modulus at hturn
    unfold turnsLeft
    cases sz <;> simp only [Size.modulus] at hv hturn ⊢ <;> omega
  | DEC =>
    change (v' : Int) = (v + -1) % sz.modulus at hturn
    unfold turnsLeft
    cases sz <;> simp only [Size.modulus] at hv hturn ⊢ <;> split <;> omega

theorem turns_to_zero {s : Walker} (hdir : dir = .DEC ∨ sz = .l)
    (h : CountLoop dir sz rd disp p s.memory) (hp : s.pc = p)
    (hleft : turnsLeft sz (getReg s.registers sz rd).toNat dir ≤ m) :
    ∃ n t, Turns p s (n + 1) t ∧ getReg t.registers sz rd = 0 := by
  induction m generalizing s with
  | zero =>
    have hpos : 0 < turnsLeft sz (getReg s.registers sz rd).toNat dir :=
      turnsLeft_pos (getReg_lt s.registers sz rd)
    omega
  | succ m ih =>
    obtain ⟨t, u, ht, hu, hmemory, hreg, hpc⟩ := h.turn_exits hp (hdir.imp id .inl)
    by_cases hzero : getReg u.registers sz rd = 0
    · exact ⟨0, u, .cons hp ht hu (.nil u), hzero⟩
    · have hless := turnsLeft_turn (getReg_lt s.registers sz rd) (hzero ∘ toNat_eq_zero.mpr) hreg
      rw [if_neg hzero] at hpc
      obtain ⟨n, w, hturns, hw⟩ := ih (hmemory ▸ h) hpc (by omega)
      exact ⟨n + 1, w, .cons hp ht hu hturns, hw⟩

theorem exitsAtZero_iff {s : Walker} (h : CountLoop dir sz rd disp p s.memory) (hp : s.pc = p) :
    ExitsAtZero sz rd disp p s ↔ dir = .DEC ∨ sz = .l := by
  constructor
  · rintro ⟨hexit, n, t, hturns, hzero⟩
    by_contra hnot
    refine next_ne disp p ?_
    rw [← (hexit n t hturns).mpr hzero]
    exact hturns.stays hnot h
  · intro hdir
    refine ⟨fun n t hturns => ?_, turns_to_zero hdir h hp (Nat.le_refl _)⟩
    exact hturns.exits hdir h

/-- Every count meets its description where the flag shows a zero register, and
a loop of counts by 1 if that holds at zero. -/
theorem count_iff (s : Walker) :
    (∀ (dir : Direction) (sz : Size) (k : BitVec 32) (rd : BitVec 4),
      k = 1 ∨ k = 2 → ∃ t, s.opcodeSwitch (dir.instr sz k rd) = .ok t ∧
        (Counted sz (dir.step k) (getReg s.registers sz rd) s.flags (getReg t.registers sz rd)
            t.flags ↔ dir.ZeroSeen sz k (getReg s.registers sz rd))) ∧
    ∀ (dir : Direction) (sz : Size) (rd : BitVec 4) (disp : Displacement),
      CountLoop dir sz rd disp s.pc s.memory →
        (ExitsAtZero sz rd disp s.pc s ↔ dir = .DEC ∨ sz = .l) := by
  refine ⟨fun dir sz k rd hk => ?_, fun dir sz rd disp h => exitsAtZero_iff h rfl⟩
  have hexec := execute_count s.interruptSavedAddress s.interruptSavedFlags s.toCpu dir sz k rd
  refine ⟨_, by rw [opcodeSwitch, hexec]; rfl, ?_⟩
  exact counted_iff s.flags dir hk (getReg_lt s.registers sz rd) (getReg_setReg _ _ _ _)

/-- `DEC.B R0L` and a BNE back to it, with R0L = 3. -/
theorem count_iff_down :
    let s : Walker :=
      { pc := 0x100, registers := fun _ => 3
        memory := fun a =>
          if a = 0x100 then 0x1a else if a = 0x101 then 0x08
          else if a = 0x102 then 0x46 else if a = 0x103 then 0xfc else 0 }
    (∃ t, s.opcodeSwitch (.dec .b 1 8) = .ok t ∧ t.flags.Z = false) ∧
      ∃ n t, Turns 0x100 s (n + 1) t ∧ getReg t.registers .b 8 = 0 := by
  intro s
  obtain ⟨hcount, hloop⟩ := count_iff s
  have hcode : CountLoop .DEC .b 8 (.d8 0xfc) s.pc s.memory :=
    ⟨by decide, by decide, by decide, by decide⟩
  obtain ⟨t, ht, hcounted⟩ := hcount .DEC .b 1 8 (.inl rfl)
  have hZ := (hcounted.mpr (.inl rfl)).Z
  cases ht
  exact ⟨⟨_, rfl, hZ.trans (by decide)⟩, ((hloop .DEC .b 8 (.d8 0xfc) hcode).mpr (.inl rfl)).2⟩

/-- `INC.B R0L` with R0L = 0xff: the register is 0 and Z is clear. -/
theorem inc_zero_missed : ¬ ∀ (s : Walker) (dir : Direction) (sz : Size) (k : BitVec 32)
    (rd : BitVec 4), k = 1 ∨ k = 2 → ∃ t, s.opcodeSwitch (dir.instr sz k rd) = .ok t ∧
      Counted sz (dir.step k) (getReg s.registers sz rd) s.flags (getReg t.registers sz rd)
        t.flags := by
  intro claim
  obtain ⟨t, ht, h⟩ := claim { registers := fun _ => 0xff } .INC .b 1 8 (.inl rfl)
  cases ht
  exact absurd h.Z (by decide)

end Walker

end PokeStroller
