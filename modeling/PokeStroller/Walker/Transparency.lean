import PokeStroller.Walker.Session

/-!
# Interrupt transparency

A call keeps the context of the interrupted program or saves it on an
unmasked entry, at most once. A handler that does not unmask keeps what was
saved, so its RTE resumes the program where and as it was.
-/

namespace PokeStroller

/-- Where the program is, and what RTE would go back to. -/
structure Context where
  pc : BitVec 16
  flags : Flags
  savedAddress : BitVec 16
  savedFlags : Flags

def vectors : List (BitVec 16) :=
  [VECTOR_IRQ0, VECTOR_RTC_QUARTER_SEC, VECTOR_RTC_HALF_SEC, VECTOR_RTC_EVERY_SEC,
    VECTOR_TIMER_B1, VECTOR_TIMER_W]

namespace Context

/-- An interrupt was taken: the program is at a vector with the mask set, and
its place and flags are saved. -/
structure Enters (c d : Context) : Prop where
  vector : d.pc ∈ vectors
  flags : d.flags = { c.flags with I := true }
  savedAddress : d.savedAddress = c.pc
  savedFlags : d.savedFlags = c.flags

/-- Nothing happened to the context, or an unmasked interrupt. -/
def KeepsOrEnters (c d : Context) : Prop := d = c ∨ (c.flags.I = false ∧ c.Enters d)

theorem KeepsOrEnters.refl (c : Context) : c.KeepsOrEnters c := .inl rfl

/-- An entry sets the mask, so there is no second one after it. -/
theorem KeepsOrEnters.trans {c d e : Context} (h : c.KeepsOrEnters d) (h' : d.KeepsOrEnters e) :
    c.KeepsOrEnters e := by
  rcases h with rfl | ⟨hI, hd⟩
  · exact h'
  · rcases h' with rfl | ⟨hI', -⟩
    · exact .inr ⟨hI, hd⟩
    · simp [hd.flags] at hI'

theorem KeepsOrEnters.masked {c d : Context} (h : c.KeepsOrEnters d) (hI : c.flags.I = true) :
    d = c := by
  rcases h with h | ⟨hI', -⟩
  · exact h
  · simp [hI] at hI'

theorem KeepsOrEnters.ite {p : Prop} [Decidable p] {c : Context} {s t : α} {f : α → Context}
    (hs : c.KeepsOrEnters (f s)) (ht : c.KeepsOrEnters (f t)) :
    c.KeepsOrEnters (f (if p then s else t)) := by
  split
  · exact hs
  · exact ht

end Context

-- ---------------------------------------------------------------------------
-- The parts of a call
-- ---------------------------------------------------------------------------

namespace Walker

def context (s : Walker) : Context :=
  ⟨s.pc, s.flags, s.interruptSavedAddress, s.interruptSavedFlags⟩

theorem enterInterrupt_context {s : Walker} (hI : s.flags.I = false) (hv : vector ∈ vectors) :
    s.context.KeepsOrEnters (s.enterInterrupt vector).context :=
  .inr ⟨hI, hv, rfl, rfl, rfl⟩

theorem interruptHandling_context (s : Walker) :
    s.context.KeepsOrEnters s.interruptHandling.context := by
  unfold interruptHandling
  cases hI : s.flags.I with
  | true => exact .refl _
  | false =>
    have entry (v) (hv : v ∈ vectors := by decide) := s.enterInterrupt_context hI hv
    refine .ite (.refl _) (.ite (entry VECTOR_IRQ0) (.ite ?_ ?_))
    · exact .ite (entry _) (.ite (entry _) (.ite (entry _) (.refl _)))
    · exact .ite (entry _) (.refl _)

theorem runSubClock_context (s : Walker) : s.context.KeepsOrEnters s.runSubClock.context := by
  obtain ⟨memory, timerB, timerW, -, h | ⟨hmatch, h⟩⟩ := s.runSubClock_eq
  · rw [h]
    exact .refl _
  · rw [h]
    have hv : VECTOR_TIMER_W ∈ vectors := by decide
    exact enterInterrupt_context hmatch.unmasked hv

theorem SsuFrame.context {s t : Walker} (h : SsuFrame s t) : t.context = s.context :=
  (congrArg Walker.context h.offBus : t.offBus.context = s.offBus.context)

end Walker

namespace Machine

theorem clockCycle_context (m : Machine) :
    m.clockCycle.Holds fun t => m.context.KeepsOrEnters t.context := by
  refine m.clockCycle_cycle.mono ?_
  rintro t ⟨hcycle, -⟩
  cases hcycle with
  | plain h => exact .inl h.context
  | subClock _ h ht =>
    rw [← ht, ← h.context]
    exact Walker.runSubClock_context _

theorem finishCall_context (m : Machine) :
    m.finishCall.Holds fun t => m.context.KeepsOrEnters t.context := by
  unfold finishCall clockHandling
  refine (clockCycle_context _).andThen (Q := fun t => m.context.KeepsOrEnters t.context) ?_ ?_
  · exact fun t h => m.interruptHandling_context.trans h
  · exact fun t h => t.clockCycle_context.mono fun u h' =>
      (m.interruptHandling_context.trans h).trans h'

end Machine

-- ---------------------------------------------------------------------------
-- The instruction phase
-- ---------------------------------------------------------------------------

namespace Walker

@[simp] theorem keyHook_context (s : Walker) : s.keyHook.context = s.context := by
  unfold keyHook
  split <;> rfl

@[simp] theorem wattsHook_context (s : Walker) : s.wattsHook.context = s.context := by
  unfold wattsHook
  split <;> rfl

@[simp] theorem keyHook_registers (s : Walker) : s.keyHook.registers = s.registers := by
  unfold keyHook
  split <;> rfl

@[simp] theorem wattsHook_registers (s : Walker) : s.wattsHook.registers = s.registers := by
  unfold wattsHook
  split <;> rfl

theorem ssuCleanup_context (s : Walker) : s.ssuCleanup.context = s.context := by
  unfold ssuCleanup
  dsimp only
  split <;> split <;> rfl

theorem skipHook_context {s t : Walker} (h : s.skipHook = some t) :
    t.context = { s.context with pc := t.pc } := by
  rw [skipHook_eq h]
  rfl

def ldcMasks (s : Walker) (i : Instr) : Prop :=
  ∀ src, i = .ldc src → (setFlags ((src.value s.registers .b).setWidth 8)).I = true

/-- The switch keeps the saved context; it keeps the mask unless it executes
RTE or an LDC that clears it. -/
theorem opcodeSwitch_context (s : Walker) (i : Instr) :
    (s.opcodeSwitch i).Holds fun t =>
      t.interruptSavedAddress = s.interruptSavedAddress ∧
      t.interruptSavedFlags = s.interruptSavedFlags ∧
      (i ≠ .rte → s.ldcMasks i → s.flags.I = true → t.flags.I = true) := by
  unfold opcodeSwitch
  rw [Outcome.holds_map]
  by_cases hldc : ∃ src, i = .ldc src
  · obtain ⟨src, rfl⟩ := hldc
    exact ⟨rfl, rfl, fun _ h _ => h src rfl⟩
  · by_cases hrte : i = .rte
    · subst hrte
      exact ⟨rfl, rfl, fun h => absurd rfl h⟩
    · refine (execute_I i hrte fun src h => hldc ⟨src, h⟩).mono fun cpu h => ⟨rfl, rfl, ?_⟩
      exact fun _ _ hI => h.trans hI

theorem instructionPhase_context (s : Walker) :
    s.instructionPhase.Holds fun t =>
      t.interruptSavedAddress = s.interruptSavedAddress ∧
      t.interruptSavedFlags = s.interruptSavedFlags ∧
      (s.keyHook.fetch ≠ .rte → s.ldcMasks s.keyHook.fetch → s.flags.I = true →
        t.flags.I = true) := by
  have hpre : s.keyHook.wattsHook.context = s.context := by simp
  have haddress := congrArg Context.savedAddress hpre
  have hflags := congrArg Context.savedFlags hpre
  have hmask := congrArg (fun c => c.flags.I) hpre
  have hldc (i) : s.keyHook.wattsHook.ldcMasks i ↔ s.ldcMasks i := by simp [ldcMasks]
  refine (opcodeSwitch_context s.keyHook.wattsHook s.keyHook.fetch).andThen ?_ ?_
  · rintro t ⟨ha, hf, hI⟩
    exact ⟨ha.trans haddress, hf.trans hflags,
      fun hrte hl hs => hI hrte ((hldc _).mpr hl) (hmask.trans hs)⟩
  · rintro t ⟨ha, hf, hI⟩
    have hc := t.ssuCleanup_context
    refine ⟨(congrArg Context.savedAddress hc).trans (ha.trans haddress),
      (congrArg Context.savedFlags hc).trans (hf.trans hflags), fun hrte hl hs => ?_⟩
    exact (congrArg (fun c => c.flags.I) hc).trans (hI hrte ((hldc _).mpr hl) (hmask.trans hs))

theorem instructionPhase_rte {s : Walker} (h : s.keyHook.fetch = .rte) :
    ∃ r, s.instructionPhase = .ok r ∧ r.pc = s.interruptSavedAddress ∧
      r.flags = s.interruptSavedFlags := by
  have hpre : s.keyHook.wattsHook.context = s.context := by simp
  let t := { s.keyHook.wattsHook with
    toCpu := s.keyHook.wattsHook.toCpu.rte s.keyHook.wattsHook.interruptSavedAddress
      s.keyHook.wattsHook.interruptSavedFlags }
  have hc := t.ssuCleanup_context
  refine ⟨{ t.ssuCleanup with pc := t.ssuCleanup.pc + 2 }, ?_, ?_, ?_⟩
  · unfold instructionPhase
    simp only [h]
    rfl
  · have hpc : t.ssuCleanup.pc = s.keyHook.wattsHook.interruptSavedAddress - 2 :=
      congrArg Context.pc hc
    show t.ssuCleanup.pc + 2 = _
    rw [hpc, BitVec.sub_add_cancel]
    exact congrArg Context.savedAddress hpre
  · exact (congrArg Context.flags hc).trans (congrArg Context.savedFlags hpre)

end Walker

-- ---------------------------------------------------------------------------
-- Handlers
-- ---------------------------------------------------------------------------

namespace Machine

/-- A step of a handler: anything but RTE, and no LDC that unmasks. -/
def HandlerStep (m : Machine) (e : Event) (t : Machine) : Prop :=
  Step m e t ∧ ∀ i, e = .call → m.executes = some i → i ≠ .rte ∧ m.toWalker.ldcMasks i

structure Interrupted (c : Context) (m : Machine) : Prop where
  savedAddress : m.interruptSavedAddress = c.pc
  savedFlags : m.interruptSavedFlags = c.flags
  masked : m.flags.I = true

theorem Interrupted.of_context {c : Context} {m t : Machine} (h : Interrupted c m)
    (ht : t.context = m.context) : Interrupted c t where
  savedAddress := (congrArg Context.savedAddress ht).trans h.savedAddress
  savedFlags := (congrArg Context.savedFlags ht).trans h.savedFlags
  masked := (congrArg (fun c => c.flags.I) ht).trans h.masked

theorem setKeys_context (s : Walker) (input : Byte) : (s.setKeys input).context = s.context := by
  unfold Walker.setKeys
  split <;> rfl

theorem quarterRTCInterrupt_context (s : Walker) :
    s.quarterRTCInterrupt.context = s.context := by
  unfold Walker.quarterRTCInterrupt
  dsimp only
  split <;> split <;> rfl

theorem HandlerStep.interrupted {c : Context} {m t : Machine} (h : HandlerStep m e t)
    (hm : Interrupted c m) : Interrupted c t := by
  obtain ⟨hstep, hsafe⟩ := h
  -- after an instruction phase that returned a state
  have phase (hs : m.sleep = false) (hk : m.toWalker.skipHook = none) (he : e = .call)
      (s : Walker) (hi : m.toWalker.instructionPhase.Leaves s) :
      Interrupted c { m with toWalker := s } := by
    obtain ⟨hrte, hldc⟩ := hsafe _ he (executes_eq_some.mpr ⟨hs, hk, rfl⟩)
    obtain ⟨ha, hf, hI⟩ := m.toWalker.instructionPhase_context.leaves hi
    exact ⟨ha.trans hm.savedAddress, hf.trans hm.savedFlags, hI hrte hldc hm.masked⟩
  cases hstep with
  | setKeys input => exact hm.of_context (setKeys_context _ _)
  | quarterRTCInterrupt => exact hm.of_context (quarterRTCInterrupt_context _)
  | call hcall =>
    rcases runNextInstruction_cases hcall with ⟨s, hd, hfin⟩ | ⟨-, s, hs, rfl⟩ |
      ⟨hs, hk, s, hi, rfl⟩
    · have hms : Interrupted c { m with toWalker := s } := by
        cases hd with
        | asleep => exact hm
        | executed hs hk hi => exact phase hs hk rfl s (Outcome.leaves_of_ok hi)
      exact hms.of_context (((finishCall_context _).leaves hfin).masked hms.masked)
    · have hc := Walker.skipHook_context hs
      exact ⟨(congrArg Context.savedAddress hc).trans hm.savedAddress,
        (congrArg Context.savedFlags hc).trans hm.savedFlags,
        (congrArg (fun c => c.flags.I) hc).trans hm.masked⟩
    · exact phase hs hk rfl s (by rw [hi]; rfl)

/-- Entries and handlers of any length. A call keeps the context of the state
`s` it dispatches from or takes one unmasked interrupt there; a call that does
not come to the dispatch takes none. From an entry on, every state of a
handler has the saved context, and RTE restores it. -/
theorem interrupt_transparency {m t : Machine} (hcall : m.runNextInstruction.Leaves t) :
    (∀ s, m.Dispatches s → s.interruptSavedAddress = m.interruptSavedAddress ∧
      s.interruptSavedFlags = m.interruptSavedFlags ∧ s.context.KeepsOrEnters t.context) ∧
    ((∀ s, ¬ m.Dispatches s) → t.interruptSavedAddress = m.interruptSavedAddress ∧
      t.interruptSavedFlags = m.interruptSavedFlags) ∧
    ∀ s, m.Dispatches s → t.context ≠ s.context → s.flags.I = false ∧
      ∀ es n, Runs HandlerStep t es n →
        n.interruptSavedAddress = s.pc ∧ n.interruptSavedFlags = s.flags ∧
        (n.executes = some .rte → ∃ r, n.toWalker.instructionPhase = .ok r ∧
          r.pc = s.pc ∧ r.flags = s.flags ∧ r.flags.I = false) := by
  have dispatched (s) (hd : m.Dispatches s) : s.context.KeepsOrEnters t.context := by
    rw [hd.run] at hcall
    exact (finishCall_context _).leaves hcall
  refine ⟨fun s hd => ?_, fun hno => ?_, fun s hd hne => ?_⟩
  · refine ⟨?_, ?_, dispatched s hd⟩ <;> cases hd with
    | asleep => rfl
    | executed _ _ hi =>
      have h := m.toWalker.instructionPhase_context.ok hi
      first | exact h.1 | exact h.2.1
  · rcases runNextInstruction_cases hcall with ⟨s, hd, -⟩ | ⟨-, s, hs, rfl⟩ | ⟨-, -, s, hi, rfl⟩
    · exact absurd hd (hno s)
    · have hc := Walker.skipHook_context hs
      exact ⟨congrArg Context.savedAddress hc, congrArg Context.savedFlags hc⟩
    · have h : s.interruptSavedAddress = _ ∧ s.interruptSavedFlags = _ ∧ _ :=
        m.toWalker.instructionPhase_context.leaves (by rw [hi]; rfl)
      exact ⟨h.1, h.2.1⟩
  · obtain ⟨hI, hentry⟩ : s.flags.I = false ∧ s.context.Enters t.context :=
      (dispatched s hd).resolve_left hne
    have ht : Interrupted s.context t :=
      ⟨hentry.savedAddress, hentry.savedFlags, congrArg Flags.I hentry.flags⟩
    refine ⟨hI, fun es n hrun => ?_⟩
    have hn : Interrupted s.context n := hrun.invariant (fun _ _ _ h hi => h.interrupted hi) ht
    refine ⟨hn.savedAddress, hn.savedFlags, fun hrte => ?_⟩
    obtain ⟨-, -, hfetch⟩ := executes_eq_some.mp hrte
    obtain ⟨r, hr, hpc, hflags⟩ := Walker.instructionPhase_rte hfetch
    have hrflags := hflags.trans hn.savedFlags
    exact ⟨r, hr, hpc.trans hn.savedAddress, hrflags, hrflags ▸ hI⟩

end Machine

def keyProgram : List (Nat × List Byte) :=
  [(0x2c4, [0xf8, 0x01, 0x6a, 0x88, 0xff, 0xf3]), (0xa300, [0x07, 0x80, 0x56, 0x70])]

/-- A key press interrupts the program at 0x2cc, and RTE goes back there. -/
theorem interrupt_transparency_key : ∃ m t n : Machine, ∃ r,
    m.runNextInstruction = .ok t ∧ t.pc = VECTOR_IRQ0 ∧ t.runNextInstruction = .ok n ∧
    n.toWalker.instructionPhase = .ok r ∧ r.pc = 0x2cc ∧ r.flags.I = false := by
  have run : ((Machine.boot keyProgram).calls 2).okWith (fun m₁ =>
      let m := m₁.host (·.setKeys ENTER)
      !m.sleep && m.toWalker.skipHook.isNone && m.toWalker.instructionPhase.okWith (fun s =>
        s.pc == 0x2cc) && m.runNextInstruction.okWith fun t =>
          t.pc == VECTOR_IRQ0 && t.executes == some (.ldc (.imm 0x80)) &&
            t.runNextInstruction.okWith fun n => n.executes == some .rte) = true := by
    decide +kernel
  obtain ⟨m₁, -, h⟩ := Outcome.okWith_iff.mp run
  extract_lets m at h
  clear_value m
  simp only [Bool.and_eq_true, Bool.not_eq_true', Option.isNone_iff_eq_none] at h
  obtain ⟨⟨⟨hsleep, hskip⟩, hphase⟩, h⟩ := h
  obtain ⟨s, hs, hspc⟩ := Outcome.okWith_iff.mp hphase
  obtain ⟨t, ht, h⟩ := Outcome.okWith_iff.mp h
  simp only [Bool.and_eq_true, beq_iff_eq] at h hspc
  obtain ⟨⟨htpc, hldc⟩, h⟩ := h
  obtain ⟨n, hn, hrte⟩ := Outcome.okWith_iff.mp h
  simp only [beq_iff_eq] at hrte
  have hd : m.Dispatches s := .executed hsleep hskip hs
  have hne : t.context ≠ s.context := fun h => by
    have := congrArg Context.pc h
    simp [Walker.context, htpc, hspc, VECTOR_IRQ0] at this
  have handler : Runs Machine.HandlerStep t [.call] n := by
    refine .single ⟨.call (Outcome.leaves_of_ok hn), fun i _ hi => ?_⟩
    rw [hldc] at hi
    cases hi
    refine ⟨by simp, fun src hsrc => ?_⟩
    cases hsrc
    show (setFlags ((0x80 : BitVec 32).setWidth 8)).I = true
    decide
  obtain ⟨-, -, hentry⟩ := Machine.interrupt_transparency (Outcome.leaves_of_ok ht)
  obtain ⟨-, hresume⟩ := hentry s hd hne
  obtain ⟨-, -, hrestore⟩ := hresume [.call] n handler
  obtain ⟨r, hr, hpc, -, hI⟩ := hrestore hrte
  exact ⟨_, t, n, r, ht, htpc, hn, hr, hpc.trans hspc, hI⟩

end PokeStroller
