import PokeStroller.Lib.Slot
import PokeStroller.Walker.Devices
import PokeStroller.Walker.Session

/-!
# The SSTDR handshake

TDRE says that the transmit register is empty. Read as a one-place channel,
the program puts bytes into SSTDR and the selected device takes them: in a
well-behaved run, exactly one step of the device for each byte.
-/

namespace PokeStroller

-- ---------------------------------------------------------------------------
-- TDRE after each part of a tick
-- ---------------------------------------------------------------------------

namespace Walker

def tdre (s : Walker) : Bool := (s.memory SSSR).has TDRE

@[simp] theorem setSSSR_tdre (s : Walker) (bits : Byte) :
    (s.setSSSR bits).tdre = (s.tdre || bits.has TDRE) := by
  simp [tdre, setSSSR, Byte.has_or]

@[simp] theorem setSSRDR_tdre (s : Walker) (v : Byte) : (s.setSSRDR v).tdre = s.tdre := rfl

@[simp] theorem RDRF_tdre : Byte.has RDRF TDRE = false := by decide
@[simp] theorem TDRE_tdre : Byte.has TDRE TDRE = true := by decide
@[simp] theorem TEND_tdre : Byte.has TEND TDRE = false := by decide

/-- The accelerometer takes a register number without marking it taken. -/
theorem accelRead_tdre (s : Walker) :
    s.accelRead.Holds fun t => t.tdre = (s.tdre || s.accel.buffer.state == .gettingBytes) := by
  unfold accelRead
  cases hstate : s.accel.buffer.state with
  | gettingAddress =>
    simp only [Outcome.holds_ok, setSSSR_tdre, RDRF_tdre, Bool.or_false]
    exact (Bool.or_false _).symm
  | gettingBytes =>
    dsimp only
    split
    · trivial
    · simp

theorem accelWrite_tdre (s : Walker) :
    s.accelWrite.Holds fun t => t.tdre = (s.tdre || s.accel.buffer.state == .gettingBytes) := by
  unfold accelWrite
  cases hstate : s.accel.buffer.state with
  | gettingAddress =>
    simp only [Outcome.holds_ok, setSSSR_tdre, RDRF_tdre, Bool.or_false]
    exact (Bool.or_false _).symm
  | gettingBytes =>
    dsimp only
    split
    · trivial
    · simp

theorem ssuProgress_tdre {s t : Walker} {f : Walker → Outcome Fault Walker}
    (hf : ∀ s t, f s = .ok t → t.tdre = true) (h : s.ssuProgress f = .ok t) :
    t.tdre = (s.tdre || s.SSU.progress + 1 == 7) := by
  unfold ssuProgress at h
  dsimp only at h
  split at h
  · rename_i hp
    rw [hf _ _ h, hp]
    simp
  · rename_i hp
    cases h
    rw [beq_false_of_ne hp, Bool.or_false]
    rfl

theorem eepromRead_tdre {s t : Walker} (h : s.eepromRead = .ok t) :
    t.tdre = (s.tdre || s.SSU.progress + 1 == 7) := by
  refine ssuProgress_tdre (fun s t h => ?_) h
  obtain ⟨u, -, hu⟩ := Outcome.andThen_eq_ok.mp h
  cases hu
  simp

theorem eepromWrite_tdre {s t : Walker} (h : s.eepromWrite = .ok t) :
    t.tdre = (s.tdre || s.SSU.progress + 1 == 7) := by
  refine ssuProgress_tdre (fun s t h => ?_) h
  obtain ⟨u, -, hu⟩ := Outcome.andThen_eq_ok.mp h
  cases hu
  simp

theorem lcdData_tdre {s t : Walker} (h : s.lcdData = .ok t) :
    t.tdre = (s.tdre || s.SSU.progress + 1 == 7) := by
  refine ssuProgress_tdre (fun s t h => ?_) h
  split at h
  · cases h
  · cases h
    simp

theorem lcdCommand_tdre (s : Walker) : s.lcdCommand.tdre = true := by
  simp [lcdCommand]

-- ---------------------------------------------------------------------------
-- Well-behaved ticks
-- ---------------------------------------------------------------------------

def selects (s : Walker) : Device → Bool
  | .accel => s.accelSelected
  | .eeprom => s.eepromSelected
  | .lcd => s.lcdSelected

/-- One device is selected, in a mode it answers in: transmission, and for the
two that can be read also with reception. -/
structure Configured (s : Walker) (d : Device) : Prop where
  selected : s.selects d = true
  others : ∀ e, e ≠ d → s.selects e = false
  transmit : (s.memory SSER).has TE = true
  receive : d = .lcd → (s.memory SSER).has RE = false

/-- The branches of a tick that take a byte mark it taken: the accelerometer
is not waiting for a register number, and the LCD data path is not entered
while the LCD is deselected. -/
structure MarksTaken (s : Walker) (d : Device) : Prop where
  accel : d = .accel → s.accel.buffer.state = .gettingBytes
  dataPin : d ≠ .lcd → (s.memory SSER).has RE = false → s.lcdDataPin = false

-- With one device selected, a transmission is that device's part alone.

theorem lcdStage_deselected {s u : Walker} (hu : SsuFrame s u) (hlcd : s.lcdSelected = false)
    (hpin : s.lcdDataPin = false) :
    (if u.lcdDataPin then u.lcdData else if u.lcdSelected then .ok u.lcdCommand else .ok u) =
      .ok u := by
  have hport : u.memory PORT1 = s.memory PORT1 := hu.memory _ (by decide) (by decide)
  have hlcd' : u.lcdSelected = false := by rw [← hlcd]; simp [lcdSelected, hport]
  have hpin' : u.lcdDataPin = false := by rw [← hpin]; simp [lcdDataPin, hport]
  simp [hlcd', hpin']

theorem ssuTransmit_accel {s : Walker} (hsel : s.accelSelected = true)
    (heeprom : s.eepromSelected = false) (hlcd : s.lcdSelected = false)
    (hpin : s.lcdDataPin = false) : s.ssuTransmit = s.accelWrite := by
  unfold ssuTransmit
  rw [if_pos hsel]
  refine Outcome.andThen_eq_self fun u hu => ?_
  have hframe := s.accelWrite_frame.ok hu
  have hport : u.memory PORT1 = s.memory PORT1 := hframe.memory _ (by decide) (by decide)
  have heeprom' : u.eepromSelected = false := by rw [← heeprom]; simp [eepromSelected, hport]
  rw [if_neg (by simp [heeprom']), Outcome.andThen_ok]
  exact lcdStage_deselected hframe hlcd hpin

theorem ssuTransmit_eeprom {s : Walker} (haccel : s.accelSelected = false)
    (hsel : s.eepromSelected = true) (hlcd : s.lcdSelected = false)
    (hpin : s.lcdDataPin = false) : s.ssuTransmit = s.eepromWrite := by
  unfold ssuTransmit
  rw [if_neg (by simp [haccel]), Outcome.andThen_ok, if_pos hsel]
  refine Outcome.andThen_eq_self fun u hu => ?_
  exact lcdStage_deselected (s.eepromWrite_frame.ok hu) hlcd hpin

theorem ssuTransmit_lcd {s : Walker} (haccel : s.accelSelected = false)
    (heeprom : s.eepromSelected = false) (hsel : s.lcdSelected = true) :
    s.ssuTransmit = if s.lcdDataPin then s.lcdData else .ok s.lcdCommand := by
  unfold ssuTransmit
  rw [if_neg (by simp [haccel]), Outcome.andThen_ok, if_neg (by simp [heeprom]),
    Outcome.andThen_ok, if_pos hsel]

def Took (s t : Walker) (d : Device) : Prop :=
  (s.stepping = [d] ∧ t.tdre = true) ∨ (s.stepping = [] ∧ t.tdre = false)

theorem took_of_seventh {s t : Walker} (hstep : s.stepping = onSeventh s.SSU.progress d)
    (ht : t.tdre = (s.SSU.progress + 1 == 7)) : s.Took t d := by
  rw [Took, hstep, ht, onSeventh]
  split
  · rename_i hp
    exact .inl ⟨rfl, by rw [hp]; rfl⟩
  · rename_i hp
    exact .inr ⟨rfl, beq_false_of_ne hp⟩

theorem Configured.took_receive {s t : Walker} (hc : s.Configured d) (hm : s.MarksTaken d)
    (htdre : s.tdre = false) (hmode : s.transferMode = some .transmitReceive)
    (hRE : (s.memory SSER).has RE = true) (h : s.ssuTransmitReceive = .ok t) : s.Took t d := by
  unfold ssuTransmitReceive at h
  cases d with
  | accel =>
    have hsel : s.accelSelected = true := hc.selected
    rw [if_pos hsel] at h
    have hset := s.accelRead_tdre.ok h
    rw [hm.accel rfl, htdre] at hset
    refine .inl ⟨?_, hset⟩
    simp [stepping, hmode, hsel]
  | eeprom =>
    have hsel : s.eepromSelected = true := hc.selected
    have haccel : s.accelSelected = false := hc.others .accel (by decide)
    rw [if_neg (by simp [haccel]), if_pos hsel] at h
    refine took_of_seventh ?_ ?_
    · simp [stepping, hmode, hsel, haccel]
    · rw [eepromRead_tdre h, htdre, Bool.false_or]
  | lcd => simp [hc.receive rfl] at hRE

theorem Configured.took_transmit {s t : Walker} (hc : s.Configured d) (hm : s.MarksTaken d)
    (htdre : s.tdre = false) (hmode : s.transferMode = some .transmit)
    (hRE : (s.memory SSER).has RE = false) (h : s.ssuTransmit = .ok t) : s.Took t d := by
  cases d with
  | accel =>
    have hsel : s.accelSelected = true := hc.selected
    have heeprom : s.eepromSelected = false := hc.others .eeprom (by decide)
    have hlcd : s.lcdSelected = false := hc.others .lcd (by decide)
    have hpin := hm.dataPin (by decide) hRE
    rw [ssuTransmit_accel hsel heeprom hlcd hpin] at h
    have hset := s.accelWrite_tdre.ok h
    rw [hm.accel rfl, htdre] at hset
    refine .inl ⟨?_, hset⟩
    simp [stepping, hmode, hsel, heeprom, hlcd, hpin]
  | eeprom =>
    have haccel : s.accelSelected = false := hc.others .accel (by decide)
    have hsel : s.eepromSelected = true := hc.selected
    have hlcd : s.lcdSelected = false := hc.others .lcd (by decide)
    have hpin := hm.dataPin (by decide) hRE
    rw [ssuTransmit_eeprom haccel hsel hlcd hpin] at h
    refine took_of_seventh ?_ ?_
    · simp [stepping, hmode, hsel, haccel, hlcd, hpin]
    · rw [eepromWrite_tdre h, htdre, Bool.false_or]
  | lcd =>
    have haccel : s.accelSelected = false := hc.others .accel (by decide)
    have heeprom : s.eepromSelected = false := hc.others .eeprom (by decide)
    have hsel : s.lcdSelected = true := hc.selected
    rw [ssuTransmit_lcd haccel heeprom hsel] at h
    cases hpin : s.lcdDataPin with
    | true =>
      rw [if_pos hpin] at h
      refine took_of_seventh ?_ ?_
      · simp [stepping, hmode, haccel, heeprom, hpin, lcdProgress]
      · rw [lcdData_tdre h, htdre, Bool.false_or]
    | false =>
      rw [if_neg (by simp [hpin])] at h
      cases h
      refine .inl ⟨?_, s.lcdCommand_tdre⟩
      simp [stepping, hmode, haccel, heeprom, hsel, hpin]

theorem Configured.took {s t : Walker} (hc : s.Configured d) (hm : s.MarksTaken d)
    (htdre : s.tdre = false) (h : s.ssuTick = .ok t) : s.Took t d := by
  cases hRE : (s.memory SSER).has RE with
  | true =>
    have hmode : s.transferMode = some .transmitReceive :=
      transferMode_eq_some.mpr ⟨htdre, hc.transmit, by rw [hRE]; rfl⟩
    rw [ssuTick_transfer hmode] at h
    exact hc.took_receive hm htdre hmode hRE h
  | false =>
    have hmode : s.transferMode = some .transmit :=
      transferMode_eq_some.mpr ⟨htdre, hc.transmit, by rw [hRE]; rfl⟩
    rw [ssuTick_transfer hmode] at h
    exact hc.took_transmit hm htdre hmode hRE h

end Walker

-- ---------------------------------------------------------------------------
-- Storing a byte
-- ---------------------------------------------------------------------------

namespace Walker

theorem hooks_bus (s : Walker) : s.keyHook.wattsHook.registers = s.registers ∧
    ∀ a ∈ busRegisters, s.keyHook.wattsHook.memory a = s.memory a := by
  obtain ⟨queue, memory, hhooks, hm⟩ := s.hooks_eq
  rw [hhooks]
  refine ⟨rfl, fun a ha => hm a ?_ ?_ ?_⟩
  · exact ne_of_mem_of_not_mem ha (by decide)
  · exact ne_of_mem_of_not_mem ha (by decide)
  · exact ne_of_mem_of_not_mem ha (by decide)

theorem instructionPhase_store {s t : Walker}
    (hfetch : s.keyHook.fetch = .movAbs16Store .b rs SSTDR) (h : s.instructionPhase = .ok t) :
    t.memory SSTDR = getReg8 s.registers rs ∧ t.tdre = false ∧
      ∀ a ∈ busRegisters, a ≠ SSTDR → a ≠ SSSR → t.memory a = s.memory a := by
  obtain ⟨cpu, hcpu, hmemory, -⟩ := instructionPhase_ok h
  obtain ⟨hregisters, hbus⟩ := s.hooks_bus
  rw [hfetch] at hcpu
  cases hcpu
  have hvalue : (getReg s.keyHook.wattsHook.registers .b rs).setWidth 8 =
      getReg8 s.registers rs := by
    simp [getReg, hregisters]
  have hm : t.memory = Function.update
      (Function.update s.keyHook.wattsHook.memory SSTDR (getReg8 s.registers rs)) SSSR
      (clearBit8 (clearBit8 (s.keyHook.wattsHook.memory SSSR) 2) 3) := by
    rw [hmemory, ← hvalue]
    rfl
  have hcleared : ∀ x : Byte, (clearBit8 (clearBit8 x 2) 3).has TDRE = false := by decide
  refine ⟨?_, ?_, fun a ha h₁ h₂ => ?_⟩
  · rw [hm, Function.update_of_ne (by decide), Function.update_self]
  · rw [tdre, hm, Function.update_self]
    exact hcleared _
  · rw [hm, Function.update_of_ne h₂, Function.update_of_ne h₁]
    exact hbus a ha

end Walker

-- ---------------------------------------------------------------------------
-- Logged runs
-- ---------------------------------------------------------------------------

/-- What happens to bytes: the program stores one, or a device takes a step
with the one in SSTDR, selected or not. -/
inductive BusEvent
  | stored (byte : Byte)
  | stepped (device : Device) (byte : Byte) (selected : Bool)
  deriving DecidableEq, Repr

def BusEvent.slot : BusEvent → SlotEvent Byte
  | .stored byte => .put byte
  | .stepped _ byte _ => .take byte

namespace Machine

def storedBy (m : Machine) : List BusEvent :=
  match m.executes with
  | some (.movAbs16Store .b rs address) =>
    if address = SSTDR then [.stored (getReg8 m.registers rs)] else []
  | _ => []

def tickEvents (m : Machine) : List BusEvent :=
  if m.tickDue then m.stepping.map fun d => .stepped d (m.memory SSTDR) (m.selects d) else []

/-- Host steps that complete, with what happens to bytes in them. -/
inductive Logged : Machine → List BusEvent → Machine → Prop
  | call {m u t : Machine} {s : Walker} : m.Dispatches s → (m.dispatched s).clockCycle = .ok u →
      u.clockCycle = .ok t → Logged m (m.storedBy ++ (m.dispatched s).tickEvents ++ u.tickEvents) t
  | skip {m : Machine} {s : Walker} : m.sleep = false → m.toWalker.skipHook = some s →
      Logged m [] { m with toWalker := s }
  | setKeys (m : Machine) (input : Byte) : Logged m [] (m.host (·.setKeys input))
  | quarterRTCInterrupt (m : Machine) : Logged m [] (m.host (·.quarterRTCInterrupt))

theorem exists_logged {m t : Machine} (h : m.runNextInstruction = .ok t) :
    ∃ log, m.Logged log t := by
  rcases runNextInstruction_cases (Outcome.leaves_of_ok h) with ⟨s, hd, -⟩ | ⟨hs, s, hk, rfl⟩ |
    ⟨hs, hk, s, hi, rfl⟩
  · rw [hd.run_clocks] at h
    obtain ⟨u, hu, ht⟩ := Outcome.andThen_eq_ok.mp h
    exact ⟨_, .call hd hu ht⟩
  · exact ⟨_, .skip hs hk⟩
  · simp [runNextInstruction, hs, hk, hi] at h

/-- The clock cycles of a call that come to an SSU tick. -/
inductive Ticks (m : Machine) : Machine → Prop
  | first {s : Walker} : m.Dispatches s → (m.dispatched s).tickDue = true →
      Ticks m (m.dispatched s)
  | second {s : Walker} {u : Machine} : m.Dispatches s → (m.dispatched s).clockCycle = .ok u →
      u.tickDue = true → Ticks m u

/-- What a program on this bus keeps to: one device is configured, SSTDR is
stored to when it is empty, and neither SSTDR nor TDRE is changed otherwise. -/
structure Disciplined (m : Machine) : Prop where
  before : ∃ d, m.Configured d
  after : ∀ s, m.Dispatches s → ∃ d, s.Configured d
  ready : m.storedBy ≠ [] → m.tdre = true
  quiet : ∀ s, m.Dispatches s → m.storedBy = [] →
    s.tdre = m.tdre ∧ s.memory SSTDR = m.memory SSTDR

/-- No tick of the call enters a branch that does not mark the byte taken. -/
def TicksMark (m : Machine) : Prop :=
  ∀ c d, m.Ticks c → c.tdre = false → c.Configured d → c.MarksTaken d

def DisciplinedStep (m : Machine) (log : List BusEvent) (t : Machine) : Prop :=
  m.Logged log t ∧ m.Disciplined

def MarkingStep (m : Machine) (log : List BusEvent) (t : Machine) : Prop :=
  m.DisciplinedStep log t ∧ m.TicksMark

end Machine

-- ---------------------------------------------------------------------------
-- SSTDR as a one-place channel
-- ---------------------------------------------------------------------------

namespace Walker

def slot (s : Walker) : Option Byte := if s.tdre then none else some (s.memory SSTDR)

theorem Configured.congr {s t : Walker} (h : s.Configured d)
    (h₁ : t.memory PORT1 = s.memory PORT1) (h₉ : t.memory PORT9 = s.memory PORT9)
    (hser : t.memory SSER = s.memory SSER) : t.Configured d := by
  have hsel (e : Device) : t.selects e = s.selects e := by
    cases e <;> simp [selects, accelSelected, eepromSelected, lcdSelected, h₁, h₉]
  refine ⟨?_, fun e he => ?_, ?_, fun hd => ?_⟩
  · rw [hsel]; exact h.selected
  · rw [hsel]; exact h.others e he
  · rw [hser]; exact h.transmit
  · rw [hser]; exact h.receive hd

theorem SameBus.configured {s t : Walker} (h : SameBus s t) (hc : s.Configured d) :
    t.Configured d :=
  hc.congr (h.registers _ (by decide)) (h.registers _ (by decide)) (h.registers _ (by decide))

theorem SsuFrame.configured {s t : Walker} (h : SsuFrame s t) (hc : s.Configured d) :
    t.Configured d :=
  hc.congr (h.memory _ (by decide) (by decide)) (h.memory _ (by decide) (by decide))
    (h.memory _ (by decide) (by decide))

theorem SameBus.tdre {s t : Walker} (h : SameBus s t) : t.tdre = s.tdre := by
  simp only [Walker.tdre, h.registers SSSR (by decide)]

theorem SameBus.slot {s t : Walker} (h : SameBus s t) : t.slot = s.slot := by
  simp only [Walker.slot, h.tdre, h.registers SSTDR (by decide)]

theorem ssuTick_ready {s : Walker} (hTE : (s.memory SSER).has TE = true) (h : s.tdre = true) :
    s.ssuTick = .ok s ∧ s.stepping = [] := by
  have hmode : s.transferMode = none := by
    unfold transferMode
    exact if_pos h
  refine ⟨?_, by simp [stepping, hmode]⟩
  rw [ssuTick_idle hmode, if_pos hTE]

theorem Configured.slot_tick {s t : Walker} (hc : s.Configured d)
    (hm : s.tdre = false → s.MarksTaken d) (h : s.ssuTick = .ok t) :
    Slot.run s.slot (s.stepping.map fun _ => .take (s.memory SSTDR)) = some t.slot ∧
      ∀ e ∈ s.stepping, s.selects e = true := by
  cases htdre : s.tdre with
  | true =>
    obtain ⟨hidle, hnone⟩ := ssuTick_ready hc.transmit htdre
    rw [hidle] at h
    cases h
    rw [hnone]
    exact ⟨rfl, by simp⟩
  | false =>
    have hbyte : t.memory SSTDR = s.memory SSTDR :=
      (s.ssuTick_frame.ok h).memory _ (by decide) (by decide)
    rcases hc.took (hm htdre) htdre h with ⟨hstep, ht⟩ | ⟨hstep, ht⟩
    · rw [hstep]
      refine ⟨?_, fun e he => List.mem_singleton.mp he ▸ hc.selected⟩
      simp [slot, htdre, ht, Slot.next]
    · rw [hstep]
      exact ⟨by simp [slot, htdre, ht, hbyte], by simp⟩

end Walker

namespace Machine

def AllSelected (log : List BusEvent) : Prop :=
  ∀ d b selected, .stepped d b selected ∈ log → selected = true

theorem AllSelected.append {log log' : List BusEvent} (h : AllSelected log)
    (h' : AllSelected log') : AllSelected (log ++ log') := by
  intro d b selected hmem
  rcases List.mem_append.mp hmem with hmem | hmem
  · exact h d b selected hmem
  · exact h' d b selected hmem

theorem clockCycle_slot {m t : Machine} (h : m.clockCycle = .ok t) (hc : m.Configured d)
    (hm : m.tickDue = true → m.tdre = false → m.MarksTaken d) :
    t.Configured d ∧ Slot.run m.slot (m.tickEvents.map BusEvent.slot) = some t.slot ∧
      AllSelected m.tickEvents := by
  obtain ⟨u, hu, hbus, -⟩ := clockCycle_ok h
  rw [hbus.slot]
  cases hdue : m.tickDue with
  | true =>
    rw [hdue, if_pos rfl] at hu
    obtain ⟨hrun, hsel⟩ := hc.slot_tick (hm hdue) hu
    refine ⟨hbus.configured ((m.toWalker.ssuTick_frame.ok hu).configured hc), ?_, ?_⟩
    · simpa [tickEvents, hdue, BusEvent.slot, Function.comp_def] using hrun
    · intro d b selected hmem
      simp only [tickEvents, hdue, ↓reduceIte, List.mem_map, BusEvent.stepped.injEq] at hmem
      obtain ⟨e, he, -, -, rfl⟩ := hmem
      exact hsel e he
  | false =>
    rw [hdue, if_neg (by decide)] at hu
    subst hu
    refine ⟨hbus.configured hc, ?_, ?_⟩
    · simp [tickEvents, hdue]
    · simp [AllSelected, tickEvents, hdue]

theorem storedBy_cases (m : Machine) :
    m.storedBy = [] ∨ ∃ rs, m.executes = some (.movAbs16Store .b rs SSTDR) ∧
      m.storedBy = [.stored (getReg8 m.registers rs)] := by
  unfold storedBy
  split
  · rename_i rs address h
    by_cases ha : address = SSTDR
    · subst ha
      exact .inr ⟨rs, h, if_pos rfl⟩
    · exact .inl (if_neg ha)
  · exact .inl rfl

theorem Disciplined.slot {m : Machine} (hm : m.Disciplined) (hd : m.Dispatches s) :
    Slot.run m.slot (m.storedBy.map BusEvent.slot) = some s.slot := by
  rcases m.storedBy_cases with hnone | ⟨rs, hexec, hstored⟩
  · obtain ⟨htdre, hbyte⟩ := hm.quiet s hd hnone
    simp [hnone, Walker.slot, htdre, hbyte]
  · obtain ⟨hsleep, -, hfetch⟩ := executes_eq_some.mp hexec
    cases hd with
    | asleep h => simp [h] at hsleep
    | executed _ _ hi =>
      obtain ⟨hbyte, htdre, -⟩ := Walker.instructionPhase_store hfetch hi
      have hready := hm.ready (by simp [hstored])
      simp [hstored, Walker.slot, BusEvent.slot, hready, htdre, hbyte, Slot.next]

theorem MarkingStep.slot {m t : Machine} (h : m.MarkingStep log t) :
    Slot.run m.slot (log.map BusEvent.slot) = some t.slot ∧ AllSelected log := by
  obtain ⟨⟨hlog, hm⟩, hmark⟩ := h
  cases hlog with
  | call hd hu ht =>
    rename_i s
    obtain ⟨d, hs⟩ := hm.after s hd
    have hbus : Walker.SameBus s (m.dispatched s).toWalker := s.interruptHandling_sameBus
    have hc := hbus.configured hs
    obtain ⟨hcu, hrun₁, hsel₁⟩ := clockCycle_slot hu hc fun hdue htdre =>
      hmark _ d (.first hd hdue) htdre hc
    obtain ⟨-, hrun₂, hsel₂⟩ := clockCycle_slot ht hcu fun hdue htdre =>
      hmark _ d (.second hd hu hdue) htdre hcu
    rw [hbus.slot] at hrun₁
    refine ⟨?_, AllSelected.append (AllSelected.append ?_ hsel₁) hsel₂⟩
    · rw [List.map_append, List.map_append, Slot.run_append, Slot.run_append, hm.slot hd]
      simp only [Option.bind_some, hrun₁, hrun₂]
    · intro d b selected hmem
      rcases m.storedBy_cases with hnone | ⟨rs, -, hstored⟩
      · simp [hnone] at hmem
      · simp [hstored] at hmem
  | skip _ hk =>
    exact ⟨by rw [← (Walker.skipHook_sameBus hk).slot]; rfl, by simp [AllSelected]⟩
  | setKeys input =>
    have hslot : (m.host (·.setKeys input)).slot = m.slot :=
      (m.toWalker.setKeys_sameBus input).slot
    exact ⟨by rw [hslot]; rfl, by simp [AllSelected]⟩
  | quarterRTCInterrupt =>
    have hslot : (m.host (·.quarterRTCInterrupt)).slot = m.slot :=
      m.toWalker.quarterRTCInterrupt_sameBus.slot
    exact ⟨by rw [hslot]; rfl, by simp [AllSelected]⟩

theorem runs_slot {m t : Machine} (h : Runs MarkingStep m logs t) :
    Slot.run m.slot (logs.flatten.map BusEvent.slot) = some t.slot ∧ AllSelected logs.flatten := by
  induction h with
  | nil => exact ⟨rfl, by simp [AllSelected]⟩
  | cons hstep _ ih =>
    obtain ⟨hrun, hsel⟩ := hstep.slot
    rw [List.flatten_cons, List.map_append, Slot.run_append, hrun]
    exact ⟨ih.1, hsel.append ih.2⟩

/-- In a disciplined run whose ticks mark what they take, started with the
transmit register empty, stores and steps of the selected device alternate:
each stored byte is taken by one step before the next store, and the bytes
taken are the bytes stored, but for one that may be pending at the end. -/
theorem one_step_per_byte {m t : Machine} (h : Runs MarkingStep m logs t)
    (hready : m.tdre = true) :
    let log := logs.flatten.map BusEvent.slot
    (∃ pending, Slot.run none log = some pending ∧
      Slot.puts log = Slot.takes log ++ pending.toList) ∧ AllSelected logs.flatten := by
  obtain ⟨hrun, hsel⟩ := runs_slot h
  have hempty : m.slot = none := by simp [Walker.slot, hready]
  rw [hempty] at hrun
  exact ⟨⟨t.slot, hrun, Slot.puts_eq hrun⟩, hsel⟩

-- ---------------------------------------------------------------------------
-- Running programs
-- ---------------------------------------------------------------------------

instance (s : Walker) (d : Device) : Decidable (s.Configured d) :=
  decidable_of_iff (s.selects d = true ∧ (∀ e ∈ [Device.accel, .eeprom, .lcd], e ≠ d →
      s.selects e = false) ∧ (s.memory SSER).has TE = true ∧
      (d = .lcd → (s.memory SSER).has RE = false))
    ⟨fun ⟨h₁, h₂, h₃, h₄⟩ => ⟨h₁, fun e => h₂ e (by cases e <;> decide), h₃, h₄⟩,
      fun h => ⟨h.selected, fun e _ => h.others e, h.transmit, h.receive⟩⟩

instance (s : Walker) (d : Device) : Decidable (s.MarksTaken d) :=
  decidable_of_iff ((d = .accel → s.accel.buffer.state = .gettingBytes) ∧
      (d ≠ .lcd → (s.memory SSER).has RE = false → s.lcdDataPin = false))
    ⟨fun ⟨h₁, h₂⟩ => ⟨h₁, h₂⟩, fun h => ⟨h.accel, h.dataPin⟩⟩

/-- A call that executes an instruction, the parts of it, and its log. -/
def tracedCall (m : Machine) : Option (Walker × Machine × Machine × List BusEvent) :=
  if m.sleep ∨ m.toWalker.skipHook.isSome then none
  else match m.toWalker.instructionPhase with
    | .ok s => match (m.dispatched s).clockCycle with
      | .ok u => match u.clockCycle with
        | .ok t => some (s, u, t, m.storedBy ++ (m.dispatched s).tickEvents ++ u.tickEvents)
        | _ => none
      | _ => none
    | _ => none

theorem Dispatches.of_guard {m : Machine} (hn : ¬ (m.sleep ∨ m.toWalker.skipHook.isSome))
    (hi : m.toWalker.instructionPhase = .ok s) : m.sleep = false ∧ m.Dispatches s := by
  simp only [not_or, Bool.not_eq_true, Option.isSome_eq_false_iff, Option.isNone_iff_eq_none]
    at hn
  exact ⟨hn.1, .executed hn.1 hn.2 hi⟩

theorem tracedCall_logged {m t u : Machine} (h : m.tracedCall = some (s, u, t, log)) :
    m.Dispatches s ∧ (m.dispatched s).clockCycle = .ok u ∧ m.Logged log t := by
  unfold tracedCall at h
  split at h
  · cases h
  rename_i hn
  split at h
  case h_2 => cases h
  rename_i hi
  split at h
  case h_2 => cases h
  rename_i hu
  split at h
  case h_2 => cases h
  rename_i ht
  cases h
  obtain ⟨-, hd⟩ := Dispatches.of_guard hn hi
  exact ⟨hd, hu, .call hd hu ht⟩

/-- `Disciplined` and, if asked, `TicksMark` on the parts of a call. -/
def checkParts (d : Device) (marking : Bool) (m : Machine) (s : Walker) (u : Machine) : Bool :=
  decide (m.Configured d) && decide (s.Configured d) && (m.storedBy.isEmpty || m.tdre) &&
  (!m.storedBy.isEmpty || (s.tdre == m.tdre && s.memory SSTDR == m.memory SSTDR)) &&
  (!marking || decide ((m.dispatched s).MarksTaken d) && decide (u.MarksTaken d))

def checkRun (d : Device) (marking : Bool) : Nat → Machine → Option (List (List BusEvent))
  | 0, _ => some []
  | n + 1, m =>
    match m.tracedCall with
    | some (s, u, t, log) =>
      if checkParts d marking m s u then (checkRun d marking n t).map (log :: ·) else none
    | none => none

theorem checkParts_disciplined {m t u : Machine} (h : m.tracedCall = some (s, u, t, log))
    (hc : checkParts d marking m s u = true) : m.DisciplinedStep log t := by
  obtain ⟨hd, -, hlog⟩ := tracedCall_logged h
  simp only [checkParts, Bool.and_eq_true, Bool.or_eq_true, decide_eq_true_eq, beq_iff_eq,
    List.isEmpty_iff, Bool.not_eq_true'] at hc
  obtain ⟨⟨⟨⟨hm, hs⟩, hready⟩, hquiet⟩, -⟩ := hc
  refine ⟨hlog, ⟨d, hm⟩, fun s' hd' => ⟨d, hd.unique hd' ▸ hs⟩, fun hne => ?_, fun s' hd' hnone => ?_⟩
  · exact hready.resolve_left hne
  · rw [← hd.unique hd']
    exact hquiet.resolve_left (by simp [hnone])

theorem checkParts_marking {m t u : Machine} (h : m.tracedCall = some (s, u, t, log))
    (hc : checkParts d true m s u = true) : m.MarkingStep log t := by
  have hdisc := checkParts_disciplined h hc
  obtain ⟨hd, hu, -⟩ := tracedCall_logged h
  simp only [checkParts, Bool.and_eq_true, Bool.not_true, Bool.false_or, decide_eq_true_eq] at hc
  obtain ⟨⟨⟨⟨-, hs⟩, -⟩, -⟩, hfirst, hsecond⟩ := hc
  have hbus : Walker.SameBus s (m.dispatched s).toWalker := s.interruptHandling_sameBus
  have hconf := hbus.configured hs
  have unique {w : Walker} {e : Device} (h : w.Configured d) (h' : w.Configured e) : e = d := by
    by_contra hne
    exact Bool.noConfusion (h'.selected.symm.trans (h.others e hne))
  have hconf' : u.Configured d := by
    obtain ⟨v, hv, hvu, -⟩ := clockCycle_ok hu
    refine hvu.configured ?_
    split at hv
    · exact ((m.dispatched s).toWalker.ssuTick_frame.ok hv).configured hconf
    · exact hv ▸ hconf
  refine ⟨hdisc, fun c e hticks _ he => ?_⟩
  cases hticks with
  | first hd' _ =>
    obtain rfl := hd.unique hd'
    exact unique hconf he ▸ hfirst
  | second hd' hu' _ =>
    obtain rfl := hd.unique hd'
    obtain rfl := Outcome.ok.inj (hu.symm.trans hu')
    exact unique hconf' he ▸ hsecond

theorem checkRun_runs {step : Machine → List BusEvent → Machine → Prop}
    (hstep : ∀ m s u t log, m.tracedCall = some (s, u, t, log) →
      checkParts d marking m s u = true → step m log t) {m : Machine}
    (h : checkRun d marking n m = some logs) : ∃ t, Runs step m logs t := by
  induction n generalizing m logs with
  | zero => cases h; exact ⟨m, .nil m⟩
  | succ n ih =>
    unfold checkRun at h
    split at h
    · rename_i s u t log htraced
      split at h
      · rename_i hc
        obtain ⟨rest, hrest, rfl⟩ := Option.map_eq_some_iff.mp h
        obtain ⟨t', ht'⟩ := ih hrest
        exact ⟨t', .cons (hstep m s u t log htraced hc) ht'⟩
      · cases h
    · cases h

end Machine

/-- Configures the LCD for commands and stores two of them. -/
def lcdProgram : List (Nat × List Byte) :=
  [(0x2c4, [0xf8, 0x01, 0x6a, 0x88, 0xff, 0xdc, 0xf8, 0x04, 0x6a, 0x88, 0xff, 0xd4,
            0xf8, 0x80, 0x6a, 0x88, 0xf0, 0xe3, 0x6a, 0x88, 0xf0, 0xeb, 0x00, 0x00,
            0xf8, 0x21, 0x6a, 0x88, 0xf0, 0xeb])]

/-- Its two commands, each taken by the LCD before the next. -/
def lcdLogs : List (List BusEvent) :=
  [[.stored 0x80], [.stepped .lcd 0x80 true], [], [.stored 0x21, .stepped .lcd 0x21 true]]

theorem one_step_per_byte_lcd : ∃ m t : Machine, m.Reachable ∧ m.tdre = true ∧
    Runs Machine.MarkingStep m lcdLogs t ∧
    let log := lcdLogs.flatten.map BusEvent.slot
    (∃ pending, Slot.run none log = some pending ∧
      Slot.puts log = Slot.takes log ++ pending.toList) ∧ Machine.AllSelected lcdLogs.flatten := by
  have run : ((Machine.boot lcdProgram).calls 6).okWith (fun m => m.tdre &&
      Machine.checkRun .lcd true 4 m == some lcdLogs) = true := by
    decide +kernel
  obtain ⟨m, hm, h⟩ := Outcome.okWith_iff.mp run
  simp only [Bool.and_eq_true, beq_iff_eq] at h
  obtain ⟨t, ht⟩ := Machine.checkRun_runs (fun _ _ _ _ _ => Machine.checkParts_marking) h.2
  exact ⟨m, t, (Machine.reachable_boot _).calls hm, h.1, ht, Machine.one_step_per_byte ht h.1⟩

def accelProgram : List (Nat × List Byte) :=
  [(0x2c4, [0xf8, 0x05, 0x6a, 0x88, 0xff, 0xd4, 0xf8, 0xc0, 0x6a, 0x88, 0xf0, 0xe3,
            0xf8, 0x80, 0x6a, 0x88, 0xf0, 0xeb])]

/-- In a disciplined run the accelerometer takes one byte twice: as the
register number, and again as a request for data. -/
theorem register_number_taken_twice :
    ¬ ∀ (m t : Machine) (logs : List (List BusEvent)), m.Reachable →
      Runs Machine.DisciplinedStep m logs t → m.tdre = true →
      ∃ pending, Slot.run none (logs.flatten.map BusEvent.slot) = some pending := by
  have run : ((Machine.boot accelProgram).calls 5).okWith (fun m => m.tdre &&
      Machine.checkRun .accel false 3 m == some [[.stored 0x80, .stepped .accel 0x80 true], [],
        [.stepped .accel 0x80 true]]) = true := by
    decide +kernel
  intro claim
  obtain ⟨m, hm, h⟩ := Outcome.okWith_iff.mp run
  simp only [Bool.and_eq_true, beq_iff_eq] at h
  obtain ⟨t, ht⟩ := Machine.checkRun_runs (fun _ _ _ _ _ => Machine.checkParts_disciplined) h.2
  obtain ⟨pending, hp⟩ := claim m t _ ((Machine.reachable_boot _).calls hm) ht h.1
  have rejected : Slot.run (none : Option Byte)
      [.put 0x80, .take 0x80, .take 0x80] = none := by decide
  cases rejected.symm.trans hp

end PokeStroller
