import PokeStroller.Walker.Compare

/-!
# Short and long branches

The two encodings of a Bcc side by side. BRN is left out of the short one only;
the long one ends on its own displacement.
-/

namespace PokeStroller

-- ---------------------------------------------------------------------------
-- Encodings
-- ---------------------------------------------------------------------------

theorem hi8_append (hi lo : Byte) : hi8 (hi ++ lo) = hi := BitVec.extractLsb'_append_eq_left
theorem lo8_append (hi lo : Byte) : lo8 (hi ++ lo) = lo := BitVec.extractLsb'_append_eq_right
theorem hi4_append (hi lo : BitVec 4) : hi4 (hi ++ lo) = hi := BitVec.extractLsb'_append_eq_left
theorem lo4_append (hi lo : BitVec 4) : lo4 (hi ++ lo) = lo := BitVec.extractLsb'_append_eq_right

theorem decode_bcc8 (cc : BitVec 4) (disp : Byte) (cd ef : BitVec 16) :
    decode ((0x4#4 ++ cc) ++ disp) cd ef = if cc = 1 then .unsupported else .bcc8 cc disp := by
  have hhi : hi8 ((0x4#4 ++ cc) ++ disp) = 0x4#4 ++ cc := hi8_append _ _
  have hlo : lo8 ((0x4#4 ++ cc) ++ disp) = disp := lo8_append _ _
  have hop : hi4 (0x4#4 ++ cc) = 0x4#4 := hi4_append _ _
  have hcc : lo4 (0x4#4 ++ cc) = cc := lo4_append _ _
  simp only [decode, hhi, hlo, hop, hcc]
  rfl

theorem decode_bcc16 (cc : BitVec 4) (disp ef : BitVec 16) :
    decode (0x58#8 ++ (cc ++ 0x0#4)) disp ef = .bcc16 cc disp := by
  have hhi : hi8 (0x58#8 ++ (cc ++ 0x0#4)) = 0x58#8 := hi8_append _ _
  have hlo : lo8 (0x58#8 ++ (cc ++ 0x0#4)) = cc ++ 0x0#4 := lo8_append _ _
  have hcc : hi4 (cc ++ 0x0#4) = cc := hi4_append _ _
  simp only [decode, hhi, hlo]
  change decode5 0x8 (cc ++ 0x0#4) disp = _
  simp only [decode5, hcc]
  rfl

-- ---------------------------------------------------------------------------
-- Conditions
-- ---------------------------------------------------------------------------

/-- The conditions in pairs: an odd one is the negation of the one before it. -/
def Flags.condition (f : Flags) (cc : BitVec 4) : Bool :=
  cc.getLsbD 0 ^^ match (cc >>> 1).toNat with
    | 0 => true
    | 1 => !(f.C || f.Z)
    | 2 => !f.C
    | 3 => !f.Z
    | 4 => !f.V
    | 5 => !f.N
    | 6 => f.N == f.V
    | _ => !f.Z && f.N == f.V

theorem condition8_eq (cc : BitVec 4) (f : Flags) : Cpu.condition8 cc f = f.condition cc := by
  obtain ⟨I, UI, H, U, N, Z, V, C⟩ := f
  have hflags : ∀ (cc : BitVec 4) (N Z V C : Bool),
      Cpu.condition8 cc ⟨false, false, false, false, N, Z, V, C⟩ =
        Flags.condition ⟨false, false, false, false, N, Z, V, C⟩ cc := by decide
  exact hflags cc N Z V C

namespace Walker

def Encodes (s : Walker) (cc : BitVec 4) : Displacement → Prop
  | .d8 disp => getMemory16 s.memory (s.pc.setWidth 32) = (0x4#4 ++ cc) ++ disp
  | .d16 disp => getMemory16 s.memory (s.pc.setWidth 32) = 0x58#8 ++ (cc ++ 0x0#4) ∧
      getMemory16 s.memory (s.pc.setWidth 32 + 2) = disp

/-- What the instruction phase of a Bcc is to come to: `pc` alone moves. -/
def Branches (s : Walker) (cc : BitVec 4) (disp : Displacement) : Prop :=
  ∃ t, s.instructionPhase = .ok t ∧ t.toCpu = { s.toCpu with
    pc := if s.flags.condition cc then disp.target s.pc else disp.next s.pc }

def Refuses (s : Walker) : Prop := ∃ t, s.instructionPhase = .error t

variable {s : Walker} {cc : BitVec 4}

theorem fetch_bcc {disp : Displacement} (h : s.Encodes cc disp) (hcc : cc ≠ 1) :
    s.fetch = disp.bcc cc := by
  unfold fetch
  cases disp with
  | d8 disp =>
    dsimp only
    rw [h, decode_bcc8, if_neg hcc]
    rfl
  | d16 disp =>
    dsimp only
    rw [h.1, h.2, decode_bcc16]
    rfl

theorem branches_of_ne {disp : Displacement} (hpc : HookFree s.pc) (h : s.Encodes cc disp)
    (hcc : cc ≠ 1) : s.Branches cc disp := by
  obtain ⟨cpu, hexec, hcpu⟩ := execute_bcc s.interruptSavedAddress s.interruptSavedFlags s.toCpu
    hcc disp
  rw [← fetch_bcc h hcc] at hexec
  obtain ⟨t, ht, htcpu⟩ := instructionPhase_of_execute hpc hexec
  refine ⟨t, ht, ?_⟩
  rw [htcpu, hcpu, condition8_eq]

theorem brn8_refuses (hpc : HookFree s.pc) (h : s.Encodes 1 (.d8 disp)) : s.Refuses := by
  have hfetch : s.fetch = .unsupported := by
    unfold fetch
    dsimp only
    rw [h, decode_bcc8, if_pos rfl]
  refine ⟨s, ?_⟩
  unfold instructionPhase
  dsimp only
  rw [hpc.keyHook, hpc.wattsHook, hfetch]
  rfl

/-- BRN d:16 goes on with its displacement as the next instruction. -/
theorem brn16_not_refuses (hpc : HookFree s.pc) (h : s.Encodes 1 (.d16 disp)) : ¬ s.Refuses := by
  have hfetch : s.fetch = .bcc16 1 disp := by
    unfold fetch
    dsimp only
    rw [h.1, h.2, decode_bcc16]
  have hexec : execute s.interruptSavedAddress s.interruptSavedFlags s.toCpu s.fetch =
      .ok s.toCpu := by
    rw [hfetch]
    rfl
  obtain ⟨t, ht, -⟩ := instructionPhase_of_execute hpc hexec
  rintro ⟨u, hu⟩
  cases ht.symm.trans hu

/-- The two encodings agree unless the branch is BRN. -/
theorem branch_forms_iff {s t : Walker} (cc : BitVec 4) {disp8 : Byte} {disp16 : BitVec 16}
    (hs : HookFree s.pc) (ht : HookFree t.pc) (h8 : s.Encodes cc (.d8 disp8))
    (h16 : t.Encodes cc (.d16 disp16)) :
    (s.Branches cc (.d8 disp8) ∧ t.Branches cc (.d16 disp16) ∨ s.Refuses ∧ t.Refuses) ↔
      cc ≠ 1 := by
  constructor
  · rintro h rfl
    obtain ⟨⟨u, hu, -⟩, -⟩ | ⟨-, hrefuses⟩ := h
    · obtain ⟨v, hv⟩ := brn8_refuses hs h8
      cases hu.symm.trans hv
    · exact brn16_not_refuses ht h16 hrefuses
  · intro hcc
    exact .inl ⟨branches_of_ne hs h8 hcc, branches_of_ne ht h16 hcc⟩

def branchProgram (code : BitVec 32) : Walker :=
  { pc := 0x100, memory := setMemory32 (fun _ => 0) 0x100 code }

/-- `BNE` 16 bytes ahead, with Z clear. -/
theorem branch_forms_iff_bne : ∃ t u,
    (branchProgram 0x46100000).instructionPhase = .ok t ∧
    (branchProgram 0x58600010).instructionPhase = .ok u ∧ t.pc = 0x112 ∧ u.pc = 0x114 := by
  have hpc : HookFree (branchProgram 0x46100000).pc := by decide
  have h8 : (branchProgram 0x46100000).Encodes 0x6 (.d8 0x10) := rfl
  have h16 : (branchProgram 0x58600010).Encodes 0x6 (.d16 0x10) := ⟨rfl, rfl⟩
  have hiff := branch_forms_iff 0x6 hpc (by decide) h8 h16
  obtain ⟨⟨t, ht, htpc⟩, u, hu, hupc⟩ | ⟨⟨t, ht⟩, -⟩ := hiff.mpr (by decide)
  · exact ⟨t, u, ht, hu, congrArg Cpu.pc htpc, congrArg Cpu.pc hupc⟩
  · obtain ⟨u, hu, -⟩ := branches_of_ne hpc h8 (by decide)
    cases ht.symm.trans hu

/-- `BRN` d:8 returns 1, and d:16 does not. -/
theorem brn_forms_differ : ¬ ∀ (s t : Walker) (cc : BitVec 4) (disp8 : Byte) (disp16 : BitVec 16),
    HookFree s.pc → HookFree t.pc → s.Encodes cc (.d8 disp8) → t.Encodes cc (.d16 disp16) →
      s.Branches cc (.d8 disp8) ∧ t.Branches cc (.d16 disp16) ∨ s.Refuses ∧ t.Refuses := by
  intro claim
  have h8 : (branchProgram 0x41000000).Encodes 1 (.d8 0) := rfl
  have h16 : (branchProgram 0x58100000).Encodes 1 (.d16 0) := ⟨rfl, rfl⟩
  obtain ⟨⟨t, ht, -⟩, -⟩ | ⟨-, hrefuses⟩ := claim (branchProgram 0x41000000)
    (branchProgram 0x58100000) 1 0 0 (by decide) (by decide) h8 h16
  · obtain ⟨u, hu⟩ := brn8_refuses (by decide) h8
    cases ht.symm.trans hu
  · exact brn16_not_refuses (by decide) h16 hrefuses

end Walker

end PokeStroller
