import PokeStroller.Walker.Session

/-!
# Unsupported opcodes

A call that returns 1 out of the opcode switch has run the hooks for the
address of the instruction, as every instruction does, and nothing else. Where
no hook acts, the machine it leaves is the one it found.
-/

namespace PokeStroller

/-- `case 0x01` with `bH` 0x4 or 0xF, and no case for the word after it: the two
places where `pc` moves before the `return 1`. -/
def PrefixRefused (ab cd : BitVec 16) : Prop :=
  hi4 (hi8 ab) = 0x0 ∧ lo4 (hi8 ab) = 0x1 ∧ lo4 (lo8 ab) = 0 ∧ hi4 (hi8 cd) = 0x6 ∧
    (hi4 (lo8 ab) = 0x4 ∧ lo4 (hi8 cd) ∉ [0x9, 0xb, 0xd, 0xf] ∨ hi4 (lo8 ab) = 0xf)

-- ---------------------------------------------------------------------------
-- The switch
-- ---------------------------------------------------------------------------

theorem decodeLong_ne (c d : Byte) (ef : BitVec 16) : decodeLong c d ef ≠ .unsupported2 := by
  unfold decodeLong
  dsimp only
  repeat' split
  all_goals nofun

theorem decodePrefix01_refused (h : decodePrefix01 b cd ef = .unsupported2) :
    lo4 b = 0 ∧ hi4 (hi8 cd) = 0x6 ∧
      (hi4 b = 0x4 ∧ lo4 (hi8 cd) ∉ [0x9, 0xb, 0xd, 0xf] ∨ hi4 b = 0xf) := by
  unfold decodePrefix01 at h
  dsimp only at h
  split at h
  · exact absurd h (decodeLong_ne _ _ _)
  · rename_i hb
    split at h
    · rename_i hrefused
      split at h
      case h_5 h₁ h₂ h₃ h₄ =>
        refine ⟨hrefused.1, hrefused.2, .inl ⟨BitVec.eq_of_toNat_eq hb, ?_⟩⟩
        simp only [List.mem_cons, List.not_mem_nil, or_false, not_or]
        exact ⟨fun h => h₁ (congrArg BitVec.toNat h), fun h => h₂ (congrArg BitVec.toNat h),
          fun h => h₃ (congrArg BitVec.toNat h), fun h => h₄ (congrArg BitVec.toNat h)⟩
      all_goals cases h
    · cases h
  · cases h
  · split at h
    · split at h
      all_goals cases h
    · cases h
  · split at h
    · split at h
      all_goals cases h
    · cases h
  · rename_i hb
    split at h
    · rename_i hrefused
      exact ⟨hrefused.1, hrefused.2, .inr (BitVec.eq_of_toNat_eq hb)⟩
    · cases h
  · cases h

theorem decode1_ne (aL : BitVec 4) (b : Byte) : decode1 aL b ≠ .unsupported2 := by
  unfold decode1
  dsimp only
  repeat' split
  all_goals nofun

theorem decode5_ne (aL : BitVec 4) (b : Byte) (cd : BitVec 16) :
    decode5 aL b cd ≠ .unsupported2 := by
  unfold decode5
  dsimp only
  repeat' split
  all_goals nofun

theorem decode6_ne (aL : BitVec 4) (b : Byte) (cd : BitVec 16) :
    decode6 aL b cd ≠ .unsupported2 := by
  unfold decode6
  dsimp only
  repeat' split
  all_goals nofun

theorem decodeImmediate_ne (sz : Size) (bH bL : BitVec 4) (v : BitVec 32) :
    decodeImmediate sz bH bL v ≠ .unsupported2 := by
  unfold decodeImmediate
  split
  all_goals nofun

theorem decode7_ne (aL : BitVec 4) (b : Byte) (cd ef : BitVec 16) :
    decode7 aL b cd ef ≠ .unsupported2 := by
  unfold decode7
  dsimp only
  repeat' split
  all_goals first | exact decodeImmediate_ne _ _ _ _ | nofun

theorem decode0_refused (h : decode0 aL b cd ef = .unsupported2) :
    aL = 0x1 ∧ decodePrefix01 b cd ef = .unsupported2 := by
  unfold decode0 at h
  dsimp only at h
  split at h
  case h_2 haL => exact ⟨BitVec.eq_of_toNat_eq haL, h⟩
  all_goals
    repeat' split at h
    all_goals cases h

theorem decode_refused (h : decode ab cd ef = .unsupported2) : PrefixRefused ab cd := by
  unfold decode at h
  dsimp only at h
  split at h
  case h_1 haH =>
    obtain ⟨haL, hrefused⟩ := decode0_refused h
    obtain ⟨hbL, hcH, hsite⟩ := decodePrefix01_refused hrefused
    exact ⟨BitVec.eq_of_toNat_eq haH, haL, hbL, hcH, hsite⟩
  case h_2 => exact absurd h (decode1_ne _ _)
  case h_5 =>
    split at h
    all_goals cases h
  case h_6 => exact absurd h (decode5_ne _ _ _)
  case h_7 => exact absurd h (decode6_ne _ _ _)
  case h_8 => exact absurd h (decode7_ne _ _ _ _)
  all_goals cases h

-- ---------------------------------------------------------------------------
-- The call
-- ---------------------------------------------------------------------------

namespace Walker

variable {s t : Walker}

theorem keyHook_fetch (s : Walker) : s.keyHook.fetch = s.fetch := by
  unfold keyHook
  split
  · rename_i hkey
    have word (k : BitVec 32) (h : maskAddress (0x9b84 + k) ≠ 0xffde)
        (h' : maskAddress (0x9b84 + k) + 1 ≠ 0xffde) (v : Byte) :
        getMemory16 (setMemory8 s.memory 0xffde v) (0x9b84 + k) =
          getMemory16 s.memory (0x9b84 + k) := by
      unfold getMemory16
      rw [setMemory8_ne _ h, setMemory8_ne _ h']
    have first := word 0 (by decide) (by decide)
    have second := word 2 (by decide) (by decide)
    have third := word 4 (by decide) (by decide)
    unfold fetch
    dsimp only
    rw [hkey.1]
    exact congr (congr (congrArg decode (first _)) (second _)) (third _)
  · rfl

theorem instructionPhase_unsupported (h : s.fetch = .unsupported) :
    s.instructionPhase = .error s.keyHook.wattsHook := by
  unfold instructionPhase opcodeSwitch
  dsimp only
  rw [s.keyHook_fetch, h]
  rfl

/-- What an instruction phase that returns 1 leaves: the state after the
hooks, and `pc` where it was unless the prefix moved it. -/
theorem instructionPhase_error (h : s.instructionPhase = .error t) :
    t = { s.keyHook.wattsHook with pc := t.pc } ∧ (s.fetch ≠ .unsupported2 → t.pc = s.pc) := by
  obtain ⟨queue, memory, hhooks, -⟩ := s.hooks_eq
  have hpc : s.keyHook.wattsHook.pc = s.pc := by rw [hhooks]
  rw [← s.keyHook_fetch, ← hpc]
  unfold instructionPhase opcodeSwitch at h
  dsimp only at h
  have hstops := execute_stops s.keyHook.wattsHook.interruptSavedAddress
    s.keyHook.wattsHook.interruptSavedFlags s.keyHook.wattsHook.toCpu s.keyHook.fetch
  cases hx : execute s.keyHook.wattsHook.interruptSavedAddress
    s.keyHook.wattsHook.interruptSavedFlags s.keyHook.wattsHook.toCpu s.keyHook.fetch with
  | ok cpu =>
    rw [hx] at h
    cases h
  | error cpu =>
    rw [hx] at h hstops
    obtain ⟨hcpu, hkeep⟩ := hstops
    cases h
    exact ⟨congrArg (fun c => { s.keyHook.wattsHook with toCpu := c }) hcpu, hkeep⟩
  | fault e =>
    rw [hx] at h
    cases h

end Walker

namespace Machine

/-- The call returns 1 out of its instruction, with `t` left. -/
def Unsupported (m t : Machine) : Prop :=
  m.sleep = false ∧ m.toWalker.skipHook = none ∧
    ∃ s, m.toWalker.instructionPhase = .error s ∧ t = { m with toWalker := s }

def AtPrefix (m : Machine) : Prop :=
  let pc := m.pc.setWidth 32
  PrefixRefused (getMemory16 m.memory pc) (getMemory16 m.memory (pc + 2))

/-- `pc` is at the keys, with one to read, or at the watts. -/
def HookActs (m : Machine) : Prop :=
  (m.pc = 0x9b84 ∧ ¬ isEmpty m.inputQueue) ∨ m.pc = 0x79b8

instance (m : Machine) : Decidable m.HookActs := inferInstanceAs (Decidable (_ ∨ _))

/-- The machine is as it was, but for what the hooks did to the queue and the
memory, and for the place of a prefix. -/
structure Untouched (m t : Machine) : Prop where
  rest : t = { m with pc := t.pc, memory := t.memory, inputQueue := t.inputQueue }
  queue : t.inputQueue = m.toWalker.keyHook.inputQueue
  memory : t.memory = m.toWalker.keyHook.wattsHook.memory
  pc : ¬ m.AtPrefix → t.pc = m.pc

theorem HookActs.hooks {m : Machine} (h : ¬ m.HookActs) :
    m.toWalker.keyHook.wattsHook = m.toWalker := by
  have hkey : m.toWalker.keyHook = m.toWalker := if_neg fun hkey => h (.inl hkey)
  rw [hkey]
  exact if_neg fun hwatts => h (.inr hwatts)

/-- A call that returns 1 out of its instruction has run the hooks; where none
acts, and away from the prefixes, nothing has changed at all. -/
theorem unsupported_untouched {m t : Machine} (h : m.Unsupported t) :
    m.runNextInstruction = .error t ∧ m.Untouched t ∧
      (¬ m.AtPrefix → ¬ m.HookActs → t = m) := by
  obtain ⟨hawake, hskip, s, hs, rfl⟩ := h
  obtain ⟨hstate, hkeep⟩ := Walker.instructionPhase_error hs
  obtain ⟨queue, memory, hhooks, -⟩ := m.toWalker.hooks_eq
  obtain ⟨_, hwatts, -⟩ := m.toWalker.keyHook.wattsHook_eq
  have hpc (hrefused : ¬ m.AtPrefix) : s.pc = m.pc := hkeep fun h => hrefused (decode_refused h)
  refine ⟨?_, ⟨?_, ?_, ?_, hpc⟩, fun hrefused hacts => ?_⟩
  · simp [runNextInstruction, hawake, hskip, hs]
  · rw [hhooks] at hstate
    rw [hstate]
  · refine (congrArg (·.inputQueue) hstate).trans ?_
    rw [hwatts]
  · exact congrArg (·.memory) hstate
  · rw [HookActs.hooks hacts, hpc hrefused] at hstate
    rw [hstate]

/-- STC at the entry of a program: the machine waits at it. -/
theorem unsupported_untouched_stc :
    let m : Machine := { pc := 0x2c4, memory := fun a => if a = 0x2c4 then 0x02 else 0 }
    m.runNextInstruction = .error m := by
  intro m
  have hacts : ¬ m.HookActs := by decide
  have hphase : m.toWalker.instructionPhase = .error m.toWalker := by
    rw [Walker.instructionPhase_unsupported (by decide), HookActs.hooks hacts]
  exact (unsupported_untouched ⟨rfl, rfl, m.toWalker, hphase, rfl⟩).1

/-- STC where the ROM reads the keys: an event is gone. -/
theorem unsupported_hook : ¬ ∀ m t : Machine, m.Unsupported t → t = m := by
  intro claim
  let m : Machine :=
    { pc := 0x9b84
      inputQueue := [1, 0]
      memory := fun a => if a = 0x9b84 then 0x02 else 0 }
  have hphase := Walker.instructionPhase_unsupported (s := m.toWalker) (by decide)
  have h := claim m _ ⟨rfl, rfl, _, hphase, rfl⟩
  have hqueue : [(0 : Int)] = [1, 0] := congrArg (·.inputQueue) h
  cases hqueue

end Machine

end PokeStroller
