import PokeStroller.Walker.Isolation
import PokeStroller.Walker.Transmit

/-!
# The accelerometer

What reaches the accelerometer are the bytes it takes and the instructions that
end with its pin high. From these alone follow the register it accesses and
what its registers hold.
-/

namespace PokeStroller

-- ---------------------------------------------------------------------------
-- Its side of the bus
-- ---------------------------------------------------------------------------

inductive AccelEvent
  | quiet
  | deselect
  | take (mode : Mode) (byte : Byte)
  deriving DecidableEq, Repr

namespace Accelerometer

def reset (a : Accelerometer) : Accelerometer :=
  { a with buffer := { a.buffer with state := .gettingAddress, offset := 0 } }

def react (a : Accelerometer) : AccelEvent → Outcome Fault Accelerometer
  | .quiet => .ok a
  | .deselect => .ok a.reset
  | .take mode byte => a.transfer mode byte

def Idle (a : Accelerometer) : Prop :=
  a.buffer.state = .gettingAddress ∧ a.buffer.offset = 0

def firstRegister (mode : Mode) (byte : Byte) : Byte :=
  match mode with
  | .transmit => byte
  | .transmitReceive => byte &&& 0x0f

theorem Idle.transfer {a : Accelerometer} (h : a.Idle) (mode : Mode) (byte : Byte) :
    a.transfer mode byte =
      .ok { a with buffer := ⟨firstRegister mode byte, 0, .gettingBytes⟩ } := by
  obtain ⟨memory, address, offset, state⟩ := a
  obtain ⟨rfl, rfl⟩ := h
  cases mode <;> rfl

theorem reset_idle (a : Accelerometer) : a.reset.Idle := ⟨rfl, rfl⟩

theorem Idle.reset {a : Accelerometer} (h : a.Idle) : a.reset = a := by
  obtain ⟨memory, address, offset, state⟩ := a
  obtain ⟨rfl, rfl⟩ := h
  rfl

theorem react_cases (a : Accelerometer) (e : AccelEvent) :
    (∃ a', a.react e = .ok a') ∨ a.react e = .fault .accelIndex := by
  cases e with
  | quiet => exact .inl ⟨_, rfl⟩
  | deselect => exact .inl ⟨_, rfl⟩
  | take mode byte =>
    have hstops := a.transfer_stops mode byte
    simp only [react]
    cases htransfer : a.transfer mode byte with
    | ok a' => exact .inl ⟨a', rfl⟩
    | error a' =>
      rw [htransfer] at hstops
      exact hstops.elim
    | fault f =>
      rw [htransfer] at hstops
      exact .inr (congrArg _ hstops)

end Accelerometer

-- ---------------------------------------------------------------------------
-- Moves on the bus
-- ---------------------------------------------------------------------------

namespace Walker

def accelEvent (s : Walker) : AccelEvent :=
  match s.transferMode with
  | some mode => if s.accelSelected then .take mode (s.memory SSTDR) else .quiet
  | none => .quiet

theorem accelEvent_eq_take {s : Walker} : s.accelEvent = .take mode byte ↔
    s.transferMode = some mode ∧ s.accelSelected = true ∧ s.memory SSTDR = byte := by
  unfold accelEvent
  cases s.transferMode <;> cases s.accelSelected <;> simp

/-- An instruction with the cleanup after it, a tick, or anything that leaves
the bus alone. -/
inductive BusMove (s : Walker) : AccelEvent → Walker → Prop
  | instruction {t : Walker} (memory : Memory) :
      SameBus (ssuCleanup { s with memory := memory }) t →
      BusMove s (if t.accelSelected then .quiet else .deselect) t
  | tick {t : Walker} : s.ssuTick.Leaves t → BusMove s s.accelEvent t
  | aside {t : Walker} : SameBus s t → BusMove s .quiet t

theorem stepping_accel {s : Walker} (hmode : s.transferMode = some mode) :
    ∃ ds, s.stepping = (if s.accelSelected then [.accel] else []) ++ ds ∧ Device.accel ∉ ds := by
  have hseventh (p : Byte) (d : Device) (hd : d ≠ .accel) : Device.accel ∉ onSeventh p d := by
    rintro h
    exact hd (mem_onSeventh.mp h).2.symm
  have heeprom : Device.accel ∉
      if s.eepromSelected then onSeventh s.SSU.progress .eeprom else [] := by
    split
    · exact hseventh _ _ nofun
    · exact List.not_mem_nil
  unfold stepping
  rw [hmode]
  cases mode with
  | transmitReceive =>
    cases s.accelSelected with
    | true => exact ⟨[], rfl, List.not_mem_nil⟩
    | false => exact ⟨_, rfl, heeprom⟩
  | transmit =>
    refine ⟨_, rfl, fun h => ?_⟩
    rcases List.mem_append.mp h with h | h
    · exact heeprom h
    · revert h
      split
      · exact hseventh _ _ nofun
      · split <;> simp

end Walker

theorem Devices.steps_rest (devices : Devices) (h : Device.accel ∉ ds) :
    (devices.steps mode pin byte ds).Avoids .accelIndex fun d => d.accel = devices.accel := by
  induction ds generalizing devices with
  | nil => rfl
  | cons d ds ih =>
    simp only [List.mem_cons, not_or] at h
    have hsame := devices.step_sameAt mode pin byte h.1
    have hfault : .accelIndex ≠ d.fault := by
      cases d with
      | accel => exact absurd rfl h.1
      | eeprom => exact nofun
      | lcd => exact nofun
    refine (hsame.avoids (devices.step_stops mode pin byte d) hfault).andThen (fun _ h => h) ?_
    intro d' hd'
    exact (ih d' h.2).mono fun d'' hd'' => hd''.trans hd'

namespace Walker

theorem ssuTick_accel (s : Walker) : ∃ rest : Devices → Outcome Fault Devices,
    s.ssuTick.map devices =
      ((s.accel.react s.accelEvent).map fun a => { s.devices with accel := a }).andThen rest ∧
    ∀ d, (rest d).Avoids .accelIndex fun d' => d'.accel = d.accel := by
  rw [ssuTick_devices]
  unfold accelEvent
  cases hmode : s.transferMode with
  | none =>
    refine ⟨fun d => if !(s.memory SSER).has TE && (s.memory SSER).has RE then .error d else .ok d,
      rfl, fun d => ?_⟩
    dsimp only
    split <;> rfl
  | some mode =>
    obtain ⟨ds, hstepping, hds⟩ := stepping_accel hmode
    refine ⟨Devices.steps mode s.lcdDataPin (s.memory SSTDR) ds, ?_, fun d => d.steps_rest hds⟩
    dsimp only
    rw [hstepping, Devices.steps_append]
    cases s.accelSelected with
    | false => rfl
    | true => simp only [↓reduceIte, Devices.steps_single]; rfl

theorem ssuTick_reacts {s : Walker} (h : s.accel.react s.accelEvent = .ok a) :
    s.ssuTick.Avoids .accelIndex fun t => t.accel = a := by
  obtain ⟨rest, htick, hrest⟩ := s.ssuTick_accel
  refine (Outcome.avoids_map (g := devices) (P := fun d => d.accel = a)).mp ?_
  rw [htick, h]
  exact hrest { s.devices with accel := a }

theorem ssuTick_faults {s : Walker} (h : s.accel.react s.accelEvent = .fault e) :
    s.ssuTick = .fault e := by
  obtain ⟨rest, htick, -⟩ := s.ssuTick_accel
  rw [h] at htick
  exact Outcome.map_eq_fault.mp htick

theorem ssuTick_fault_iff {s : Walker} :
    s.ssuTick = .fault .accelIndex ↔ s.accel.react s.accelEvent = .fault .accelIndex := by
  constructor
  · rintro htick
    rcases s.accel.react_cases s.accelEvent with ⟨a, ha⟩ | ha
    · exact absurd htick (ssuTick_reacts ha).ne_fault
    · exact ha
  · exact ssuTick_faults

theorem ssuCleanup_accel (s : Walker) :
    s.ssuCleanup.accel = if s.accelSelected then s.accel else s.accel.reset := by
  unfold ssuCleanup setEepromBuffer
  cases s.accelSelected <;> simp <;> split <;> rfl

theorem BusMove.react {s t : Walker} (h : BusMove s e t) : s.accel.react e = .ok t.accel := by
  cases h with
  | instruction memory h =>
    have hport : t.memory PORT9 = memory PORT9 := by
      rw [h.registers PORT9 (by simp [busRegisters]), ssuCleanup_toCpu]
    have hsel : t.accelSelected = accelSelected { s with memory := memory } :=
      congrArg (fun port : Byte => !port.has ACCEL_PIN) hport
    rw [h.accel, ssuCleanup_accel, ← hsel]
    cases t.accelSelected <;> rfl
  | tick h =>
    rcases s.accel.react_cases s.accelEvent with ⟨a, ha⟩ | ha
    · rw [ha, (ssuTick_reacts ha).leaves h]
    · rw [ssuTick_faults ha] at h
      exact h.elim
  | aside h => exact congrArg Outcome.ok h.accel.symm

end Walker

-- ---------------------------------------------------------------------------
-- Which register is next
-- ---------------------------------------------------------------------------

/-- A transaction in progress: the register it began with, and how many bytes
were read since. -/
structure AccelSession where
  base : Nat
  received : Nat
  deriving DecidableEq, Repr

namespace AccelSession

def start (mode : Mode) (byte : Byte) : AccelSession :=
  ⟨(Accelerometer.firstRegister mode byte).toNat, 0⟩

def follow : Option AccelSession → AccelEvent → Option AccelSession
  | session, .quiet => session
  | _, .deselect => none
  | none, .take mode byte => some (start mode byte)
  | some session, .take .transmitReceive _ =>
    some { session with received := session.received + 1 }
  | some session, .take .transmit _ => some session

/-- The event stays in the register file: reads go on upwards from the first
register, writes stay at it. -/
def InRange : Option AccelSession → AccelEvent → Prop
  | some session, .take .transmitReceive _ => session.base + session.received < 29
  | some session, .take .transmit _ => session.base < 29
  | _, _ => True

end AccelSession

namespace Accelerometer

def Follows (a : Accelerometer) : Option AccelSession → Prop
  | none => a.Idle
  | some session => a.buffer.state = .gettingBytes ∧ a.buffer.address.toNat = session.base ∧
      a.buffer.offset.toNat = session.received

theorem Follows.react {a a' : Accelerometer} (h : a.Follows session) (ha : a.react e = .ok a') :
    a'.Follows (AccelSession.follow session e) := by
  cases e with
  | quiet =>
    cases ha
    cases session <;> exact h
  | deselect =>
    cases ha
    exact a.reset_idle
  | take mode byte =>
    cases session with
    | none =>
      cases (Idle.transfer h mode byte).symm.trans ha
      exact ⟨rfl, rfl, rfl⟩
    | some session =>
      obtain ⟨hstate, hbase, hreceived⟩ := h
      simp only [Accelerometer.react, transfer, hstate] at ha
      cases mode with
      | transmit =>
        obtain ⟨memory, -, rfl⟩ := Outcome.map_eq_ok.mp ha
        exact ⟨hstate, hbase, hreceived⟩
      | transmitReceive =>
        obtain ⟨value, hvalue, rfl⟩ := Outcome.map_eq_ok.mp ha
        -- a read that succeeded was low enough for the offset not to wrap
        have hlt : a.buffer.address.toNat + a.buffer.offset.toNat < 29 := by
          by_contra hn
          rw [Bytes.get?_of_le _ (Nat.not_lt.mp hn)] at hvalue
          cases hvalue
        refine ⟨rfl, hbase, ?_⟩
        have hsmall : (a.buffer.offset.toNat + 1) % 256 = a.buffer.offset.toNat + 1 :=
          Nat.mod_eq_of_lt (by omega)
        simpa [BitVec.toNat_add, hreceived] using hsmall

theorem Follows.in_range_iff {a : Accelerometer} (h : a.Follows session) (e : AccelEvent) :
    a.react e ≠ .fault .accelIndex ↔ AccelSession.InRange session e := by
  cases e with
  | quiet => simp [Accelerometer.react, AccelSession.InRange]
  | deselect => simp [Accelerometer.react, AccelSession.InRange]
  | take mode byte =>
    cases session with
    | none => simp [Accelerometer.react, Idle.transfer h, AccelSession.InRange]
    | some session =>
      obtain ⟨hstate, hbase, hreceived⟩ := h
      cases mode with
      | transmit =>
        simp only [Accelerometer.react, transfer, hstate, AccelSession.InRange, ← hbase]
        by_cases hlt : a.buffer.address.toNat < 29
        · simp [Bytes.set?_of_lt _ hlt, hlt]
        · simp [Bytes.set?_of_le _ (Nat.not_lt.mp hlt), hlt]
      | transmitReceive =>
        simp only [Accelerometer.react, transfer, hstate, AccelSession.InRange, ← hbase,
          ← hreceived]
        by_cases hlt : a.buffer.address.toNat + a.buffer.offset.toNat < 29
        · simp [Bytes.get?_of_lt _ hlt, hlt]
        · simp [Bytes.get?_of_le _ (Nat.not_lt.mp hlt), hlt]

end Accelerometer

namespace Walker

theorem BusMove.follows_run {s t : Walker} (h : Runs BusMove s log t)
    (hs : s.accel.Follows session) : t.accel.Follows (log.foldl AccelSession.follow session) := by
  induction h generalizing session with
  | nil => exact hs
  | cons hmove _ ih => exact ih (hs.react hmove.react)

/-- After any run from an idle accelerometer, the next tick is outside the
register file exactly if the history of the transaction says so. -/
theorem ssuTick_in_range_iff {s t : Walker} (h : Runs BusMove s log t) (hs : s.accel.Idle) :
    t.ssuTick ≠ .fault .accelIndex ↔
      AccelSession.InRange (log.foldl AccelSession.follow none) t.accelEvent := by
  have hnone : s.accel.Follows none := hs
  have hfollows := BusMove.follows_run h hnone
  rw [← hfollows.in_range_iff]
  exact not_congr ssuTick_fault_iff

end Walker

-- ---------------------------------------------------------------------------
-- The moves of a call
-- ---------------------------------------------------------------------------

namespace Walker

/-- The bus moves to the state an outcome leaves, or to the tick that goes
outside the register file. -/
def Traced (s : Walker) : Outcome Fault Walker → Prop
  | .ok t => ∃ log, Runs BusMove s log t
  | .error t => ∃ log, Runs BusMove s log t
  | .fault e => e = .accelIndex → ∃ log t, Runs BusMove s log t ∧ t.ssuTick = .fault .accelIndex

theorem Traced.after {s t : Walker} {x : Outcome Fault Walker} (h : Runs BusMove s log t)
    (hx : t.Traced x) : s.Traced x := by
  cases x with
  | ok u =>
    obtain ⟨more, hmore⟩ := hx
    exact ⟨_, h.append hmore⟩
  | error u =>
    obtain ⟨more, hmore⟩ := hx
    exact ⟨_, h.append hmore⟩
  | fault e =>
    intro he
    obtain ⟨more, u, hmore, hu⟩ := hx he
    exact ⟨_, u, h.append hmore, hu⟩

theorem SameBus.traced {s t : Walker} (h : SameBus s t) : s.Traced (.ok t) := ⟨_, .single (.aside h)⟩

theorem ssuTick_traced (s : Walker) : s.Traced s.ssuTick := by
  cases htick : s.ssuTick with
  | ok t => exact ⟨_, .single (.tick (Outcome.leaves_of_ok htick))⟩
  | error t =>
    refine ⟨_, .single (.tick ?_)⟩
    rw [htick]
    rfl
  | fault e =>
    rintro rfl
    exact ⟨[], s, .nil s, htick⟩

theorem opcodeSwitch_stops (s : Walker) (i : Instr) :
    (s.opcodeSwitch i).Stops (SameBus s)
      fun e => e = .divisionByZero ∨ e = .divisionOverflow ∨ e = .shiftCount :=
  ((execute_stops s.interruptSavedAddress s.interruptSavedFlags s.toCpu i).mono
    fun _ h => ⟨fun a _ => congrFun (congrArg Cpu.memory h.1) a, rfl, rfl, rfl, rfl⟩).map

theorem hooks_sameBus (s : Walker) : SameBus s s.keyHook.wattsHook := by
  obtain ⟨queue, memory, hhooks, hother⟩ := s.hooks_eq
  rw [hhooks]
  refine ⟨fun a ha => hother a ?_ ?_ ?_, rfl, rfl, rfl, rfl⟩
  all_goals
    rintro rfl
    revert ha
    decide

theorem SameBus.accelSelected {s t : Walker} (h : SameBus s t) :
    t.accelSelected = s.accelSelected := by
  simp only [Walker.accelSelected, h.registers PORT9 (by simp [busRegisters])]

theorem SameBus.eepromSelected {s t : Walker} (h : SameBus s t) :
    t.eepromSelected = s.eepromSelected := by
  simp only [Walker.eepromSelected, h.registers PORT1 (by simp [busRegisters])]

theorem SameBus.cleanup {s t : Walker} (h : SameBus s t) : SameBus s.ssuCleanup t.ssuCleanup := by
  obtain ⟨buffer, hs⟩ := s.ssuCleanup_eq
  obtain ⟨buffer', ht⟩ := t.ssuCleanup_eq
  refine ⟨?_, ?_, ?_, ?_, ?_⟩
  · rw [hs, ht]
    exact h.registers
  · rw [hs, ht]
    exact h.SSU
  · rw [ssuCleanup_accel, ssuCleanup_accel, h.accel, h.accelSelected]
  · rw [hs, ht]
    simp only [h.eeprom, h.eepromSelected]
  · rw [hs, ht]
    exact h.lcd

theorem instructionPhase_traced (s : Walker) : s.Traced s.instructionPhase := by
  have hphase : s.instructionPhase = (s.keyHook.wattsHook.opcodeSwitch s.keyHook.fetch).andThen
      fun t => .ok { t.ssuCleanup with pc := t.ssuCleanup.pc + 2 } := rfl
  have hstops := s.keyHook.wattsHook.opcodeSwitch_stops s.keyHook.fetch
  have hframe := s.keyHook.wattsHook.opcodeSwitch_frame s.keyHook.fetch
  rw [hphase]
  cases hswitch : s.keyHook.wattsHook.opcodeSwitch s.keyHook.fetch with
  | ok t =>
    rw [hswitch] at hframe
    obtain ⟨queue, memory, hhooks, -⟩ := s.hooks_eq
    have hbus : SameBus { s with memory := t.memory } t := by
      rw [hframe, hhooks]
      exact ⟨fun _ _ => rfl, rfl, rfl, rfl, rfl⟩
    refine ⟨_, .single (.instruction t.memory (hbus.cleanup.trans ?_))⟩
    exact ⟨fun _ _ => rfl, rfl, rfl, rfl, rfl⟩
  | error t =>
    rw [hswitch] at hstops
    exact ⟨_, .single (.aside (s.hooks_sameBus.trans hstops))⟩
  | fault e =>
    rw [hswitch] at hstops
    rintro rfl
    simp at hstops

end Walker

namespace Machine

theorem Traced.andThen {s : Walker} {x : Outcome Fault Machine} {f : Machine → Outcome Fault Machine}
    (h : s.Traced (x.map fun m => m.toWalker))
    (hf : ∀ m, x = .ok m → m.toWalker.Traced ((f m).map fun m => m.toWalker)) :
    s.Traced ((x.andThen f).map fun m => m.toWalker) := by
  cases x with
  | ok m =>
    obtain ⟨log, hlog⟩ := h
    exact .after hlog (hf m rfl)
  | error m => exact h
  | fault e => exact h

theorem clockCycle_traced (m : Machine) :
    m.toWalker.Traced (m.clockCycle.map fun m => m.toWalker) := by
  unfold clockCycle
  dsimp only
  refine Traced.andThen ?_ fun t _ => ?_
  · split
    · rw [Outcome.map_map, Outcome.map_same fun _ => rfl]
      exact m.toWalker.ssuTick_traced
    · exact ⟨[], .nil _⟩
  · split
    · have hcount : Walker.SameBus t.toWalker
          { t.toWalker with subClockCyclesEllapsed := t.subClockCyclesEllapsed + 1 } :=
        ⟨fun _ _ => rfl, rfl, rfl, rfl, rfl⟩
      exact (hcount.trans (Walker.runSubClock_sameBus _)).traced
    · exact ⟨[], .nil _⟩

theorem finishCall_traced (m : Machine) :
    m.toWalker.Traced (m.finishCall.map fun m => m.toWalker) := by
  have hbus : Runs Walker.BusMove m.toWalker [.quiet] m.toWalker.interruptHandling :=
    .single (.aside m.toWalker.interruptHandling_sameBus)
  refine .after hbus ?_
  exact Traced.andThen (clockCycle_traced _) fun t _ => t.clockCycle_traced

theorem runNextInstruction_traced (m : Machine) :
    m.toWalker.Traced (m.runNextInstruction.map fun m => m.toWalker) := by
  unfold runNextInstruction
  split
  · exact m.finishCall_traced
  · split
    · rename_i hskip
      exact (Walker.skipHook_sameBus hskip).traced
    · refine Traced.andThen ?_ fun t _ => t.finishCall_traced
      rw [Outcome.map_map, Outcome.map_same fun _ => rfl]
      exact m.toWalker.instructionPhase_traced

theorem Step.moves {m t : Machine} (h : Step m e t) :
    ∃ log, Runs Walker.BusMove m.toWalker log t.toWalker := by
  cases h with
  | call h =>
    have htraced := m.runNextInstruction_traced
    cases hrun : m.runNextInstruction with
    | ok u =>
      rw [hrun] at h htraced
      cases h
      exact htraced
    | error u =>
      rw [hrun] at h htraced
      cases h
      exact htraced
    | fault e =>
      rw [hrun] at h
      exact h.elim
  | setKeys input => exact ⟨_, .single (.aside (m.toWalker.setKeys_sameBus input))⟩
  | quarterRTCInterrupt => exact ⟨_, .single (.aside m.toWalker.quarterRTCInterrupt_sameBus)⟩

theorem Step.moves_run {m t : Machine} (h : Runs Step m es t) :
    ∃ log, Runs Walker.BusMove m.toWalker log t.toWalker := by
  induction h with
  | nil m => exact ⟨[], .nil _⟩
  | cons hstep _ ih =>
    obtain ⟨log, hlog⟩ := hstep.moves
    obtain ⟨more, hmore⟩ := ih
    exact ⟨_, hlog.append hmore⟩

theorem Loaded.idle {m : Machine} (h : m.Loaded) : m.accel.Idle := by
  obtain ⟨s, rom, image, hm⟩ := h.images
  rw [hm]
  exact ⟨rfl, rfl⟩

/-- A tick of a run stays in the register file exactly if the history of the
transaction allows it, and a call that leaves it comes to a tick that is not
allowed. -/
theorem accel_in_range_iff {m₀ : Machine} (h₀ : m₀.Loaded) :
    (∀ (log : List AccelEvent) (t : Walker), Runs Walker.BusMove m₀.toWalker log t →
      (t.ssuTick ≠ .fault .accelIndex ↔
        AccelSession.InRange (log.foldl AccelSession.follow none) t.accelEvent)) ∧
    ∀ (es : List Event) (m : Machine), Runs Step m₀ es m →
      m.runNextInstruction = .fault .accelIndex →
      ∃ (log more : List AccelEvent) (t : Walker), Runs Walker.BusMove m₀.toWalker log m.toWalker ∧
        Runs Walker.BusMove m.toWalker more t ∧
        ¬ AccelSession.InRange ((log ++ more).foldl AccelSession.follow none) t.accelEvent := by
  constructor
  · intro log t hlog
    exact Walker.ssuTick_in_range_iff hlog h₀.idle
  · intro es m hes hfault
    obtain ⟨log, hlog⟩ := Step.moves_run hes
    have htraced := m.runNextInstruction_traced
    rw [hfault] at htraced
    obtain ⟨more, t, hmore, htick⟩ := htraced rfl
    refine ⟨log, more, t, hlog, hmore, fun hin => ?_⟩
    exact (Walker.ssuTick_in_range_iff (hlog.append hmore) h₀.idle).mpr hin htick

/-- Nothing is accessed by the tick after booting. -/
theorem accel_in_range_iff_boot : (boot []).toWalker.ssuTick ≠ .fault .accelIndex :=
  ((accel_in_range_iff (loaded_images _ _)).1 [] _ (.nil _)).mpr (by simp [AccelSession.InRange])

end Machine

/-- Deselects the other devices, enables transmission and reception, and stores
a request for register 15 again and again. -/
def burstProgram : List (Nat × List Byte) :=
  [(0x2c4, [0xf8, 0x05, 0x6a, 0x88, 0xff, 0xd4, 0xf8, 0xc0, 0x6a, 0x88, 0xf0, 0xe3,
            0xf8, 0x8f, 0x6a, 0x88, 0xf0, 0xeb, 0x40, 0xfa])]

/-- The 36th call reads the register after the last. -/
theorem burst_overrun :
    ¬ ∀ m : Machine, m.Reachable → m.runNextInstruction ≠ .fault .accelIndex := by
  have run : ((Machine.boot burstProgram).calls 35).okWith (fun m =>
      (m.runNextInstruction.map fun _ => ()) == .fault .accelIndex) = true := by
    decide +kernel
  intro claim
  obtain ⟨m, hm, h⟩ := Outcome.okWith_iff.mp run
  refine claim m ((Machine.reachable_boot _).calls hm) ?_
  cases hrun : m.runNextInstruction with
  | ok t => simp [hrun] at h
  | error t => simp [hrun] at h
  | fault e => simpa [hrun] using h

end PokeStroller
