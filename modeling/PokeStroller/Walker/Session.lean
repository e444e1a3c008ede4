import PokeStroller.Lib.Runs
import PokeStroller.Walker.Frames
import PokeStroller.Walker.Reload

/-!
# Sessions

What the host does with a loaded walker: calls of `runNextInstruction`, with
key and clock events between them. A call that returned 1 leaves a state like
any other, and the host may go on from it.
-/

namespace PokeStroller

inductive Event
  | call
  | setKeys (input : Byte)
  | quarterRTCInterrupt

namespace Machine

def host (m : Machine) (f : Walker → Walker) : Machine := { m with toWalker := f m.toWalker }

inductive Step : Machine → Event → Machine → Prop
  | call {m t : Machine} : m.runNextInstruction.Leaves t → Step m .call t
  | setKeys (m : Machine) (input : Byte) :
      Step m (.setKeys input) (m.host (·.setKeys input))
  | quarterRTCInterrupt (m : Machine) :
      Step m .quarterRTCInterrupt (m.host (·.quarterRTCInterrupt))

/-- A load that succeeded, on whatever walker there was. -/
def Loaded (m : Machine) : Prop :=
  ∃ s rom eeprom error text,
    Walker.initWalkerFromFiles s rom eeprom error = (true, text, m.toWalker) ∧ m.cycleCount = 0

def Reachable (m : Machine) : Prop := ∃ m₀ es, m₀.Loaded ∧ Runs Step m₀ es m

theorem Loaded.images {m : Machine} (h : m.Loaded) :
    ∃ s rom image, m.toWalker = Walker.initializeWalkerImages s rom image := by
  obtain ⟨s, rom, eeprom, error, text, hload, -⟩ := h
  rcases s.initWalkerFromFiles_cases rom eeprom error with ⟨-, -, _, hs⟩ | ⟨-, _, hs, -⟩
  · exact ⟨_, _, _, congrArg (·.2.2) (hload.symm.trans hs)⟩
  · cases congrArg Prod.fst (hload.symm.trans hs)

-- ---------------------------------------------------------------------------
-- The parts of a call
-- ---------------------------------------------------------------------------

/-- The call from `m` comes to the interrupt dispatch in state `s`. -/
inductive Dispatches (m : Machine) : Walker → Prop
  | asleep : m.sleep = true → Dispatches m m.toWalker
  | executed {s : Walker} : m.sleep = false → m.toWalker.skipHook = none →
      m.toWalker.instructionPhase = .ok s → Dispatches m s

def executes (m : Machine) : Option Instr :=
  if m.sleep then none
  else match m.toWalker.skipHook with
    | some _ => none
    | none => some m.toWalker.keyHook.fetch

theorem executes_eq_some {m : Machine} : m.executes = some i ↔
    m.sleep = false ∧ m.toWalker.skipHook = none ∧ m.toWalker.keyHook.fetch = i := by
  unfold executes
  cases m.sleep with
  | true => simp
  | false => cases m.toWalker.skipHook <;> simp

theorem Dispatches.unique {m : Machine} (h : m.Dispatches s) (h' : m.Dispatches s') : s = s' := by
  cases h with
  | asleep hs =>
    cases h' with
    | asleep => rfl
    | executed hs' => simp [hs] at hs'
  | executed hs _ hi =>
    cases h' with
    | asleep hs' => simp [hs] at hs'
    | executed _ _ hi' => exact Outcome.ok.inj (hi.symm.trans hi')

theorem Dispatches.run {m : Machine} (h : m.Dispatches s) :
    m.runNextInstruction = { m with toWalker := s }.finishCall := by
  cases h with
  | asleep h => simp [runNextInstruction, h]
  | executed h hs hi => simp [runNextInstruction, h, hs, hi]

/-- The three ways through a call: to the dispatch, out through a skip, and
out of an opcode the emulator does not have. -/
theorem runNextInstruction_cases {m t : Machine} (h : m.runNextInstruction.Leaves t) :
    (∃ s, m.Dispatches s ∧ { m with toWalker := s }.finishCall.Leaves t) ∨
    (m.sleep = false ∧ ∃ s, m.toWalker.skipHook = some s ∧ t = { m with toWalker := s }) ∨
    (m.sleep = false ∧ m.toWalker.skipHook = none ∧
      ∃ s, m.toWalker.instructionPhase = .error s ∧ t = { m with toWalker := s }) := by
  unfold runNextInstruction at h
  cases hsleep : m.sleep with
  | true =>
    rw [hsleep] at h
    exact .inl ⟨_, .asleep hsleep, h⟩
  | false =>
    simp only [hsleep, Bool.false_eq_true, ↓reduceIte] at h
    cases hskip : m.toWalker.skipHook with
    | some s =>
      rw [hskip] at h
      exact .inr (.inl ⟨rfl, s, rfl, h.symm⟩)
    | none =>
      simp only [hskip] at h
      cases hi : m.toWalker.instructionPhase with
      | ok s =>
        rw [hi] at h
        exact .inl ⟨s, .executed hsleep hskip hi, h⟩
      | error s =>
        rw [hi] at h
        exact .inr (.inr ⟨rfl, rfl, s, rfl, h.symm⟩)
      | fault e =>
        rw [hi] at h
        exact h.elim

def dispatched (m : Machine) (s : Walker) : Machine := { m with toWalker := s.interruptHandling }

theorem Dispatches.run_clocks {m : Machine} (h : m.Dispatches s) :
    m.runNextInstruction = (m.dispatched s).clockCycle.andThen clockCycle :=
  h.run

def tickDue (m : Machine) : Bool := (m.cycleCount + 1) % 4 == 0

theorem clockCycle_ok {m t : Machine} (h : m.clockCycle = .ok t) :
    ∃ u, (if m.tickDue then m.toWalker.ssuTick = .ok u else u = m.toWalker) ∧
      Walker.SameBus u t.toWalker ∧ t.cycleCount = m.cycleCount + 1 := by
  unfold clockCycle at h
  obtain ⟨c, hc, h⟩ := Outcome.andThen_eq_ok.mp h
  have hticked : (if m.tickDue then m.toWalker.ssuTick = .ok c.toWalker
      else c.toWalker = m.toWalker) ∧ c.cycleCount = m.cycleCount + 1 := by
    unfold tickDue
    by_cases hdue : (m.cycleCount + 1) % 4 = 0
    · simp only [hdue, ↓reduceIte] at hc
      obtain ⟨u, hu, rfl⟩ := Outcome.map_eq_ok.mp hc
      simp only [hdue, beq_self_eq_true, ↓reduceIte]
      exact ⟨hu, trivial⟩
    · simp only [hdue, ↓reduceIte] at hc
      cases hc
      simp only [beq_false_of_ne hdue, Bool.false_eq_true, ↓reduceIte]
      exact ⟨trivial, trivial⟩
  refine ⟨c.toWalker, hticked.1, ?_⟩
  split at h
  · cases h
    have hcount : Walker.SameBus c.toWalker
        { c.toWalker with subClockCyclesEllapsed := c.subClockCyclesEllapsed + 1 } :=
      ⟨fun _ _ => rfl, rfl, rfl, rfl, rfl⟩
    exact ⟨hcount.trans (Walker.runSubClock_sameBus _), hticked.2⟩
  · cases h
    exact ⟨.refl _, hticked.2⟩

-- ---------------------------------------------------------------------------
-- One clock cycle
-- ---------------------------------------------------------------------------

def SubClockAt (count : BitVec 64) : Prop :=
  count % BitVec.ofNat 64 (SYSTEM_CLOCK_CYCLES_PER_SECOND / SUB_CLOCK_CYCLES_PER_SECOND) = 0

theorem subClockAt_iff (count : BitVec 64) : SubClockAt count ↔ count.toNat % 112 = 0 := by
  unfold SubClockAt
  rw [← BitVec.toNat_inj]
  rfl

inductive Cycle (m t : Machine) : Prop
  | plain : Walker.SsuFrame m.toWalker t.toWalker → Cycle m t
  | subClock {u : Walker} : SubClockAt (m.cycleCount + 1) → Walker.SsuFrame m.toWalker u →
      { u with subClockCyclesEllapsed := u.subClockCyclesEllapsed + 1 }.runSubClock = t.toWalker →
      Cycle m t

theorem clockCycle_cycle (m : Machine) :
    m.clockCycle.Holds fun t => m.Cycle t ∧ t.cycleCount = m.cycleCount + 1 := by
  unfold clockCycle
  dsimp only
  refine Outcome.Holds.andThen (P := fun t =>
    Walker.SsuFrame m.toWalker t.toWalker ∧ t.cycleCount = m.cycleCount + 1) ?_ ?_ ?_
  · split
    · rw [Outcome.holds_map]
      exact m.toWalker.ssuTick_frame.mono fun _ h => ⟨h, rfl⟩
    · exact ⟨.refl _, rfl⟩
  · rintro t ⟨h, hcount⟩
    exact ⟨.plain h, hcount⟩
  · rintro t ⟨h, hcount⟩
    split
    · rename_i hdue
      rw [hcount] at hdue
      exact ⟨.subClock hdue h rfl, hcount⟩
    · exact ⟨.plain h, hcount⟩

theorem clockCycle_due {m t : Machine} (h : m.clockCycle = .ok t) :
    (SubClockAt (m.cycleCount + 1) ∧ ∃ u, Walker.SsuFrame m.toWalker u ∧
      t.toWalker =
        { u with subClockCyclesEllapsed := u.subClockCyclesEllapsed + 1 }.runSubClock) ∨
    (¬ SubClockAt (m.cycleCount + 1) ∧ Walker.SsuFrame m.toWalker t.toWalker) := by
  unfold clockCycle at h
  obtain ⟨c, hc, h⟩ := Outcome.andThen_eq_ok.mp h
  have hticked : c.cycleCount = m.cycleCount + 1 ∧ Walker.SsuFrame m.toWalker c.toWalker := by
    dsimp only at hc
    split at hc
    · obtain ⟨s, hs, rfl⟩ := Outcome.map_eq_ok.mp hc
      exact ⟨rfl, m.toWalker.ssuTick_frame.ok hs⟩
    · cases hc
      exact ⟨rfl, .refl _⟩
  unfold SubClockAt
  rw [← hticked.1]
  split at h
  · rename_i hdue
    cases h
    exact .inl ⟨hdue, c.toWalker, hticked.2, rfl⟩
  · rename_i hdue
    cases h
    exact .inr ⟨hdue, hticked.2⟩

-- ---------------------------------------------------------------------------
-- Booting
-- ---------------------------------------------------------------------------

end Machine

def ImagePath.ofBytes (image : Bytes n) : ImagePath :=
  .opened "image.bin" { content := List.ofFn image, readLimit := n }

theorem ImagePath.ofBytes_image (image : Bytes n) : (ImagePath.ofBytes image).image n = image := by
  funext i
  simp [ImagePath.image, ImagePath.content, ImagePath.ofBytes]

theorem ImagePath.ofBytes_accepted (image : Bytes n) (hsize : size n) :
    (ImagePath.ofBytes image).Accepted n size := by
  refine ⟨_, _, rfl, ⟨rfl, rfl, ?_, rfl, rfl⟩, ?_⟩
  · simp [File.read]
  · simpa using hsize

theorem Walker.initWalkerFromFiles_ofBytes (rom : Bytes WALKER_ROM_SIZE)
    (image : Bytes WALKER_EEPROM_SIZE) :
    ∃ text, Walker.initWalkerFromFiles {} (.ofBytes rom) (.ofBytes image) ⟨0, ""⟩ =
      (true, text, Walker.initializeWalkerImages {} rom image) := by
  obtain ⟨text, h⟩ := Walker.initWalkerFromFiles_accepted {}
    (ImagePath.ofBytes_accepted rom (.inl rfl)) (ImagePath.ofBytes_accepted image (.inl rfl))
    ⟨0, ""⟩
  rw [ImagePath.ofBytes_image, ImagePath.ofBytes_image] at h
  exact ⟨text, h⟩

namespace Machine

theorem loaded_images (rom : Bytes WALKER_ROM_SIZE) (image : Bytes WALKER_EEPROM_SIZE) :
    Loaded { toWalker := Walker.initializeWalkerImages {} rom image } := by
  obtain ⟨text, h⟩ := Walker.initWalkerFromFiles_ofBytes rom image
  exact ⟨_, _, _, _, text, h, rfl⟩

def romOf (code : List (Nat × List Byte)) : Bytes WALKER_ROM_SIZE := fun i =>
  (code.findSome? fun (base, bytes) =>
    if base ≤ i.val then bytes[i.val - base]? else none).getD 0

/-- The machine after loading such a ROM and an erased EEPROM. -/
def boot (code : List (Nat × List Byte)) : Machine :=
  { toWalker := Walker.initializeWalkerImages {} (romOf code) fun _ => 0xff }

def calls : Nat → Machine → Outcome Fault Machine
  | 0, m => .ok m
  | n + 1, m => m.runNextInstruction.andThen (calls n)

theorem Reachable.step {m t : Machine} (h : m.Reachable) (hs : Step m e t) : t.Reachable := by
  obtain ⟨m₀, es, h₀, hr⟩ := h
  exact ⟨m₀, _, h₀, hr.append (.single hs)⟩

theorem reachable_boot (code : List (Nat × List Byte)) : (boot code).Reachable :=
  ⟨_, [], loaded_images _ _, .nil _⟩

theorem Reachable.calls {m t : Machine} (h : m.Reachable) (hc : m.calls n = .ok t) :
    t.Reachable := by
  induction n generalizing m with
  | zero => cases hc; exact h
  | succ n ih =>
    obtain ⟨s, hs, hc⟩ := Outcome.andThen_eq_ok.mp hc
    exact ih (h.step (.call (Outcome.leaves_of_ok hs))) hc

end Machine

end PokeStroller
