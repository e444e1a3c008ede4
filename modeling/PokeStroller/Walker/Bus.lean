import PokeStroller.Walker.Handshake

/-!
# The bus under a program

A program reconfigures the bus through a deselect of the EEPROM, and stores
bytes, each clocked until the transmit register is empty again. A byte so sent
is one step of the EEPROM's protocol, whatever else happens in between.
-/

namespace PokeStroller

-- ---------------------------------------------------------------------------
-- The bus as the program sees it
-- ---------------------------------------------------------------------------

structure BusView where
  port1 : Byte
  port9 : Byte
  sser : Byte
  sstdr : Byte
  ssrdr : Byte
  tdre : Bool
  deriving DecidableEq

def Walker.busView (s : Walker) : BusView :=
  ⟨s.memory PORT1, s.memory PORT9, s.memory SSER, s.memory SSTDR, s.memory SSRDR, s.tdre⟩

inductive BusWrite
  | quiet
  | port1 (v : Byte)
  | port9 (v : Byte)
  | sser (v : Byte)
  | store (byte : Byte)
  deriving DecidableEq, Repr

def BusWrite.apply : BusWrite → BusView → BusView
  | .quiet, view => view
  | .port1 v, view => { view with port1 := v }
  | .port9 v, view => { view with port9 := v }
  | .sser v, view => { view with sser := v }
  | .store byte, view => { view with sstdr := byte, tdre := false }

theorem BusWrite.apply_tdre {e : BusWrite} (h : ∀ b, e ≠ .store b) (view : BusView) :
    (e.apply view).tdre = view.tdre := by
  cases e with
  | store b => exact absurd rfl (h b)
  | _ => rfl

namespace Machine

/-- A step of the host that completes, with its effect on the bus. -/
inductive BusStep : Machine → BusWrite → Machine → Prop
  | call {m t : Machine} {s : Walker} {e : BusWrite} : m.Dispatches s →
      m.runNextInstruction = .ok t → s.busView = e.apply m.busView → BusStep m e t
  | skip {m : Machine} {s : Walker} : m.sleep = false → m.toWalker.skipHook = some s →
      BusStep m .quiet { m with toWalker := s }
  | setKeys (m : Machine) (input : Byte) : BusStep m .quiet (m.host (·.setKeys input))
  | quarterRTCInterrupt (m : Machine) : BusStep m .quiet (m.host (·.quarterRTCInterrupt))

def Deselects (m : Machine) (e : BusWrite) (t : Machine) : Prop :=
  m.sleep = false ∧ m.runNextInstruction = .ok t ∧
    ∃ s, m.Dispatches s ∧ s.busView = e.apply m.busView ∧ s.eepromSelected = false

/-- The bus is set up for a transaction with the EEPROM. -/
structure Wired (mode : Mode) (s : Walker) : Prop where
  configured : s.Configured .eeprom
  receive : (s.memory SSER).has RE = (mode == .transmitReceive)
  dataPin : s.lcdDataPin = false

/-- Any number of steps without a store, one of them with the EEPROM
deselected, up to a bus set up in this mode. -/
def Reconfigures (mode : Mode) (m n : Machine) : Prop :=
  ∃ es e es' m₁ m₂, Runs BusStep m es m₁ ∧ m₁.Deselects e m₂ ∧ Runs BusStep m₂ es' n ∧
    (∀ b, .store b ∉ es ++ e :: es') ∧ Wired mode n.toWalker

/-- A byte is stored and clocked until TDRE is set again, among any number of
other steps that leave the bus alone. -/
def Sends (byte : Byte) (m n : Machine) : Prop :=
  ∃ es es' m₁ m₂, Runs BusStep m es m₁ ∧ BusStep m₁ (.store byte) m₂ ∧ Runs BusStep m₂ es' n ∧
    (∀ e ∈ es ++ es', e = .quiet) ∧ n.tdre = true

end Machine

inductive Segment
  | configure (mode : Mode)
  | send (byte : Byte)
  deriving DecidableEq, Repr

def Machine.Performs (m : Machine) : Segment × Byte → Machine → Prop
  | (.configure mode, reply), n => m.Reconfigures mode n ∧ n.memory SSRDR = reply
  | (.send byte, reply), n => m.Sends byte n ∧ n.memory SSRDR = reply

def Eeprom.Clean (e : Eeprom) : Prop := e.buffer.state = .empty ∧ e.buffer.offset = 0

-- ---------------------------------------------------------------------------
-- One step of the host
-- ---------------------------------------------------------------------------

namespace Walker

structure Aside (s t : Walker) : Prop where
  lcd : t.lcd = s.lcd
  accel : t.accel.memory = s.accel.memory

theorem Aside.refl (s : Walker) : Aside s s := ⟨rfl, rfl⟩

theorem Aside.trans {s t u : Walker} (h : Aside s t) (h' : Aside t u) : Aside s u :=
  ⟨h'.lcd.trans h.lcd, h'.accel.trans h.accel⟩

theorem SameBus.aside {s t : Walker} (h : SameBus s t) : Aside s t :=
  ⟨h.lcd, congrArg Accelerometer.memory h.accel⟩

theorem SameBus.busView {s t : Walker} (h : SameBus s t) : t.busView = s.busView := by
  simp only [Walker.busView, h.tdre, h.registers PORT1 (by decide), h.registers PORT9 (by decide),
    h.registers SSER (by decide), h.registers SSTDR (by decide), h.registers SSRDR (by decide)]

theorem wired_of_view {s t : Walker} (h : Machine.Wired mode s)
    (hv : t.busView = s.busView) : Machine.Wired mode t := by
  have h₁ : t.memory PORT1 = s.memory PORT1 := congrArg BusView.port1 hv
  have hser : t.memory SSER = s.memory SSER := congrArg BusView.sser hv
  refine ⟨h.configured.congr h₁ (congrArg BusView.port9 hv) hser, ?_, ?_⟩
  · rw [hser]; exact h.receive
  · rw [← h.dataPin]; simp [lcdDataPin, h₁]

end Walker

namespace Machine

theorem Dispatches.devices {m : Machine} (hd : m.Dispatches s) :
    m.toWalker.Aside s ∧ s.eeprom.memory = m.eeprom.memory ∧
      (s.eeprom = m.eeprom ∨ s.eeprom.Clean) ∧
      (s.eepromSelected = true → s.eeprom = m.eeprom) ∧
      (m.sleep = false → s.eepromSelected = false → s.eeprom.Clean) := by
  cases hd with
  | asleep h => exact ⟨.refl _, rfl, .inl rfl, fun _ => rfl, fun hs => by simp [h] at hs⟩
  | executed _ _ hi =>
    obtain ⟨cpu, -, -, -, hlcd, haccel, heeprom⟩ := Walker.instructionPhase_ok hi
    have hkept (hsel : s.eepromSelected = true) : s.eeprom = m.eeprom := by
      rw [heeprom, hsel]; rfl
    have hclean (hsel : s.eepromSelected = false) : s.eeprom.Clean := by
      rw [heeprom, hsel]; exact ⟨rfl, rfl⟩
    refine ⟨⟨hlcd, haccel⟩, by rw [heeprom], ?_, hkept, fun _ => hclean⟩
    cases hsel : s.eepromSelected with
    | true => exact .inl (hkept hsel)
    | false => exact .inr (hclean hsel)

theorem clockCycle_ready {m t : Machine} (h : m.clockCycle = .ok t) (htdre : m.tdre = true) :
    t.busView = m.busView ∧ t.eeprom = m.eeprom ∧ m.toWalker.Aside t.toWalker := by
  obtain ⟨u, hu, hbus, -⟩ := clockCycle_ok h
  suffices hs : u.busView = m.busView ∧ u.eeprom = m.eeprom ∧ m.toWalker.Aside u by
    exact ⟨hbus.busView.trans hs.1, hbus.eeprom.trans hs.2.1, hs.2.2.trans hbus.aside⟩
  split at hu
  · have hmode : m.transferMode = none := by
      unfold Walker.transferMode
      exact if_pos htdre
    rw [Walker.ssuTick_idle hmode] at hu
    split at hu
    · cases hu; exact ⟨rfl, rfl, .refl _⟩
    split at hu
    · cases hu
    · cases hu
      have hmem {a : BitVec 16} (ha : a ≠ SSSR) := m.toWalker.setSSSR_memory TDRE ha
      refine ⟨?_, rfl, rfl, rfl⟩
      simp only [Walker.busView, hmem (a := PORT1) (by decide), hmem (a := PORT9) (by decide),
        hmem (a := SSER) (by decide), hmem (a := SSTDR) (by decide),
        hmem (a := SSRDR) (by decide), Walker.setSSSR_tdre, htdre, Bool.true_or]
  · cases hu; exact ⟨rfl, rfl, .refl _⟩

/-- A byte on its way to an EEPROM that was in state `e`: pending, or taken,
with what a read of data left in SSRDR. -/
def Sending (mode : Mode) (byte : Byte) (e : Eeprom) (s : Walker) : Prop :=
  (s.tdre = false ∧ s.memory SSTDR = byte ∧ s.eeprom = e) ∨
  (s.tdre = true ∧ e.transfer mode byte = .ok s.eeprom ∧
    (mode = .transmitReceive → e.buffer.state = .gettingBytes →
      e.memory.get? e.buffer.index = some (s.memory SSRDR)))

end Machine

namespace Walker

theorem eepromRead_reply {s t : Walker} (h : s.eepromRead = .ok t) (hp : s.SSU.progress + 1 = 7)
    (hstate : s.eeprom.buffer.state = .gettingBytes) :
    s.eeprom.memory.get? s.eeprom.buffer.index = some (t.memory SSRDR) := by
  unfold eepromRead ssuProgress at h
  dsimp only at h
  rw [if_pos hp] at h
  obtain ⟨u, hu, ht⟩ := Outcome.andThen_eq_ok.mp h
  cases ht
  unfold eepromReadStep at hu
  simp only [hstate] at hu
  split at hu
  · cases hu
  · rename_i value hget
    cases hu
    rw [hget, setSSSR_memory _ _ (by decide), setSSSR_memory _ _ (by decide),
      setSSSR_memory _ _ (by decide)]
    exact congrArg some (Function.update_self (f := s.memory) SSRDR value).symm

theorem ssuTransmitReceive_eeprom {s : Walker} (hc : s.Configured .eeprom) :
    s.ssuTransmitReceive = s.eepromRead := by
  have haccel : s.accelSelected = false := hc.others .accel (by decide)
  have hsel : s.eepromSelected = true := hc.selected
  unfold ssuTransmitReceive
  rw [if_neg (by simp [haccel]), if_pos hsel]

theorem seventh_of_stepping {s : Walker} (hmode : s.transferMode = some .transmitReceive)
    (h : .eeprom ∈ s.stepping) : s.SSU.progress + 1 = 7 := by
  unfold stepping at h
  rw [hmode] at h
  dsimp only at h
  split at h
  · simp at h
  split at h
  · exact (mem_onSeventh.mp h).1
  · cases h

end Walker

namespace Machine

theorem Wired.frame {s t : Walker} (hw : Wired mode s) (h : Walker.SsuFrame s t) :
    Wired mode t := by
  have hser : t.memory SSER = s.memory SSER := h.memory _ (by decide) (by decide)
  have hport : t.memory PORT1 = s.memory PORT1 := h.memory _ (by decide) (by decide)
  refine ⟨h.configured hw.configured, ?_, ?_⟩
  · rw [hser]; exact hw.receive
  · rw [← hw.dataPin]; simp [Walker.lcdDataPin, hport]

theorem Wired.transferMode {s : Walker} (hw : Wired mode s) (htdre : s.tdre = false) :
    s.transferMode = some mode := by
  refine Walker.transferMode_eq_some.mpr ⟨htdre, hw.configured.transmit, ?_⟩
  rw [hw.receive]
  cases mode <;> rfl

theorem Wired.tick {s t : Walker} (hw : Wired mode s) (htdre : s.tdre = false)
    (h : s.ssuTick = .ok t) :
    Sending mode (s.memory SSTDR) s.eeprom t ∧ s.Aside t ∧ Wired mode t := by
  have hframe := s.ssuTick_frame.ok h
  have hmode := hw.transferMode htdre
  have hdevices := s.ssuTick_devices
  rw [h, hmode] at hdevices
  have hmarks : s.MarksTaken .eeprom := ⟨by simp, fun _ _ => hw.dataPin⟩
  rcases hw.configured.took hmarks htdre h with ⟨hstep, ht⟩ | ⟨hstep, ht⟩
  · rw [hstep] at hdevices
    dsimp only at hdevices
    rw [Devices.steps_single] at hdevices
    obtain ⟨e, he, hdev⟩ := Outcome.map_eq_ok.mp hdevices.symm
    have heeprom : t.eeprom = e := (congrArg Devices.eeprom hdev).symm
    refine ⟨.inr ⟨ht, heeprom ▸ he, ?_⟩, ⟨(congrArg Devices.lcd hdev).symm, ?_⟩, hw.frame hframe⟩
    · rintro rfl hstate
      rw [Walker.ssuTick_transfer hmode] at h
      have hread : s.eepromRead = .ok t := Walker.ssuTransmitReceive_eeprom hw.configured ▸ h
      exact Walker.eepromRead_reply hread
        (Walker.seventh_of_stepping hmode (by rw [hstep]; simp)) hstate
    · exact congrArg (fun d => d.accel.memory) hdev.symm
  · rw [hstep] at hdevices
    have hdev : t.devices = s.devices := Outcome.ok.inj hdevices
    refine ⟨.inl ⟨ht, ?_, congrArg Devices.eeprom hdev⟩,
      ⟨congrArg Devices.lcd hdev, congrArg (fun d => d.accel.memory) hdev⟩, hw.frame hframe⟩
    exact hframe.memory _ (by decide) (by decide)

theorem Sending.clockCycle {m t : Machine} (hs : Sending mode byte e m.toWalker)
    (hw : Wired mode m.toWalker) (h : m.clockCycle = .ok t) :
    Sending mode byte e t.toWalker ∧ m.toWalker.Aside t.toWalker ∧ Wired mode t.toWalker := by
  rcases hs with ⟨htdre, hbyte, he⟩ | ⟨htdre, htaken, hreply⟩
  · obtain ⟨u, hu, hbus, -⟩ := clockCycle_ok h
    suffices hs : Sending mode byte e u ∧ m.toWalker.Aside u ∧ Wired mode u by
      obtain ⟨hs, haside, hwu⟩ := hs
      refine ⟨?_, haside.trans hbus.aside, Walker.wired_of_view hwu hbus.busView⟩
      rw [Sending, hbus.tdre, hbus.registers SSTDR (by decide), hbus.registers SSRDR (by decide),
        hbus.eeprom]
      exact hs
    split at hu
    · rw [← hbyte, ← he]
      exact hw.tick htdre hu
    · subst hu
      exact ⟨.inl ⟨htdre, hbyte, he⟩, .refl _, hw⟩
  · obtain ⟨hview, heeprom, haside⟩ := clockCycle_ready h htdre
    refine ⟨.inr ⟨?_, heeprom ▸ htaken, fun hm hst => ?_⟩, haside, Walker.wired_of_view hw hview⟩
    · exact (congrArg BusView.tdre hview).trans htdre
    · rw [hreply hm hst]
      exact congrArg some (congrArg BusView.ssrdr hview).symm

theorem Sending.of_view {s t : Walker} (h : Sending mode byte e s) (hv : t.busView = s.busView)
    (he : t.eeprom = s.eeprom) : Sending mode byte e t := by
  have htdre : t.tdre = s.tdre := congrArg BusView.tdre hv
  have hsstdr : t.memory SSTDR = s.memory SSTDR := congrArg BusView.sstdr hv
  have hssrdr : t.memory SSRDR = s.memory SSRDR := congrArg BusView.ssrdr hv
  rwa [Sending, htdre, hsstdr, hssrdr, he]

theorem Sending.clocks {m t : Machine} {s : Walker} (hs : Sending mode byte e s)
    (hw : Wired mode s) (hd : m.Dispatches s) (h : m.runNextInstruction = .ok t) :
    Sending mode byte e t.toWalker ∧ s.Aside t.toWalker ∧ Wired mode t.toWalker := by
  rw [hd.run_clocks] at h
  obtain ⟨u, hu, ht⟩ := Outcome.andThen_eq_ok.mp h
  have hbus : Walker.SameBus s (m.dispatched s).toWalker := s.interruptHandling_sameBus
  obtain ⟨hsu, hau, hwu⟩ := (hs.of_view hbus.busView hbus.eeprom).clockCycle
    (Walker.wired_of_view hw hbus.busView) hu
  obtain ⟨hst, hat, hwt⟩ := hsu.clockCycle hwu ht
  exact ⟨hst, (hbus.aside.trans hau).trans hat, hwt⟩

theorem clocks_ready {m t : Machine} {s : Walker} (htdre : s.tdre = true) (hd : m.Dispatches s)
    (h : m.runNextInstruction = .ok t) :
    t.busView = s.busView ∧ t.eeprom = s.eeprom ∧ s.Aside t.toWalker := by
  rw [hd.run_clocks] at h
  obtain ⟨u, hu, ht⟩ := Outcome.andThen_eq_ok.mp h
  have hbus : Walker.SameBus s (m.dispatched s).toWalker := s.interruptHandling_sameBus
  obtain ⟨hvu, heu, hau⟩ := clockCycle_ready hu (hbus.tdre.trans htdre)
  have hut : u.tdre = true :=
    (congrArg BusView.tdre (hvu.trans hbus.busView)).trans htdre
  obtain ⟨hvt, het, hat⟩ := clockCycle_ready ht hut
  exact ⟨(hvt.trans hvu).trans hbus.busView, (het.trans heu).trans hbus.eeprom,
    (hbus.aside.trans hau).trans hat⟩

theorem BusStep.sending {m t : Machine} (h : BusStep m .quiet t)
    (hs : Sending mode byte e m.toWalker) (hw : Wired mode m.toWalker) :
    Sending mode byte e t.toWalker ∧ m.toWalker.Aside t.toWalker ∧ Wired mode t.toWalker := by
  have host {t : Walker} (hbus : Walker.SameBus m.toWalker t) :
      Sending mode byte e t ∧ m.toWalker.Aside t ∧ Wired mode t :=
    ⟨hs.of_view hbus.busView hbus.eeprom, hbus.aside, Walker.wired_of_view hw hbus.busView⟩
  cases h with
  | call hd hrun hview =>
    have hws := Walker.wired_of_view hw hview
    obtain ⟨haside, -, -, hkept, -⟩ := hd.devices
    obtain ⟨hst, hat, hwt⟩ :=
      (hs.of_view hview (hkept hws.configured.selected)).clocks hws hd hrun
    exact ⟨hst, haside.trans hat, hwt⟩
  | skip _ hk => exact host (Walker.skipHook_sameBus hk)
  | setKeys input => exact host (m.toWalker.setKeys_sameBus input)
  | quarterRTCInterrupt => exact host m.toWalker.quarterRTCInterrupt_sameBus

theorem BusStep.still {m t : Machine} (h : BusStep m .quiet t) (htdre : m.tdre = true)
    (hw : Wired mode m.toWalker) :
    t.busView = m.busView ∧ t.eeprom = m.eeprom ∧ m.toWalker.Aside t.toWalker := by
  have host {t : Walker} (hbus : Walker.SameBus m.toWalker t) :
      t.busView = m.busView ∧ t.eeprom = m.eeprom ∧ m.toWalker.Aside t :=
    ⟨hbus.busView, hbus.eeprom, hbus.aside⟩
  cases h with
  | call hd hrun hview =>
    have hws := Walker.wired_of_view hw hview
    obtain ⟨haside, -, -, hkept, -⟩ := hd.devices
    obtain ⟨hv, he, ha⟩ := clocks_ready ((congrArg BusView.tdre hview).trans htdre) hd hrun
    exact ⟨hv.trans hview, he.trans (hkept hws.configured.selected), haside.trans ha⟩
  | skip _ hk => exact host (Walker.skipHook_sameBus hk)
  | setKeys input => exact host (m.toWalker.setKeys_sameBus input)
  | quarterRTCInterrupt => exact host m.toWalker.quarterRTCInterrupt_sameBus

theorem BusStep.stored {m t : Machine} (h : BusStep m (.store byte) t)
    (hw : Wired mode m.toWalker) :
    Sending mode byte m.eeprom t.toWalker ∧ m.toWalker.Aside t.toWalker ∧
      Wired mode t.toWalker := by
  cases h with
  | call hd hrun hview =>
    rename_i s
    have hport : s.memory PORT1 = m.memory PORT1 := congrArg BusView.port1 hview
    have hser : s.memory SSER = m.memory SSER := congrArg BusView.sser hview
    have hws : Wired mode s := by
      refine ⟨hw.configured.congr hport (congrArg BusView.port9 hview) hser, ?_, ?_⟩
      · rw [hser]; exact hw.receive
      · rw [← hw.dataPin]; simp [Walker.lcdDataPin, hport]
    obtain ⟨haside, -, -, hkept, -⟩ := hd.devices
    have hs : Sending mode byte m.eeprom s :=
      .inl ⟨congrArg BusView.tdre hview, congrArg BusView.sstdr hview,
        hkept hws.configured.selected⟩
    obtain ⟨hst, hat, hwt⟩ := hs.clocks hws hd hrun
    exact ⟨hst, haside.trans hat, hwt⟩

-- ---------------------------------------------------------------------------
-- Segments
-- ---------------------------------------------------------------------------

structure Keeps (m t : Machine) : Prop where
  tdre : t.tdre = true
  memory : t.eeprom.memory = m.eeprom.memory
  clean : m.eeprom.Clean → t.eeprom.Clean
  aside : m.toWalker.Aside t.toWalker

theorem Keeps.trans {m t u : Machine} (h : Keeps m t) (h' : Keeps t u) : Keeps m u :=
  ⟨h'.tdre, h'.memory.trans h.memory, fun hc => h'.clean (h.clean hc), h.aside.trans h'.aside⟩

theorem keeps_call {m t : Machine} {s : Walker} {e : BusWrite} (htdre : m.tdre = true) (hd : m.Dispatches s)
    (hrun : m.runNextInstruction = .ok t) (hview : s.busView = e.apply m.busView)
    (hstore : ∀ b, e ≠ .store b) : Keeps m t ∧ t.eeprom = s.eeprom := by
  have hs : s.tdre = true :=
    (congrArg BusView.tdre hview).trans ((BusWrite.apply_tdre hstore _).trans htdre)
  obtain ⟨hv, he, ha⟩ := clocks_ready hs hd hrun
  obtain ⟨haside, hmemory, hbuffer, -⟩ := hd.devices
  refine ⟨⟨(congrArg BusView.tdre hv).trans hs, ?_, fun hc => ?_, haside.trans ha⟩, he⟩
  · rw [he]; exact hmemory
  · rw [he]
    rcases hbuffer with h | h
    · rw [h]; exact hc
    · exact h

theorem BusStep.keeps {m t : Machine} (h : BusStep m e t) (hstore : ∀ b, e ≠ .store b)
    (htdre : m.tdre = true) : Keeps m t := by
  have host {t : Machine} (hbus : Walker.SameBus m.toWalker t.toWalker) : Keeps m t :=
    ⟨hbus.tdre.trans htdre, by rw [hbus.eeprom], fun hc => by rw [hbus.eeprom]; exact hc,
      hbus.aside⟩
  cases h with
  | call hd hrun hview => exact (keeps_call htdre hd hrun hview hstore).1
  | skip _ hk => exact host (Walker.skipHook_sameBus hk)
  | setKeys input => exact host (m.toWalker.setKeys_sameBus input)
  | quarterRTCInterrupt => exact host m.toWalker.quarterRTCInterrupt_sameBus

theorem Deselects.keeps {m t : Machine} (h : m.Deselects e t) (hstore : ∀ b, e ≠ .store b)
    (htdre : m.tdre = true) : Keeps m t ∧ t.eeprom.Clean := by
  obtain ⟨hsleep, hrun, s, hd, hview, hsel⟩ := h
  obtain ⟨hkeeps, he⟩ := keeps_call htdre hd hrun hview hstore
  obtain ⟨-, -, -, -, hclean⟩ := hd.devices
  exact ⟨hkeeps, he ▸ hclean hsleep hsel⟩

theorem keeps_runs {m t : Machine} (h : Runs BusStep m es t) (hstore : ∀ b, .store b ∉ es)
    (htdre : m.tdre = true) : Keeps m t := by
  induction h with
  | nil => exact ⟨htdre, rfl, id, .refl _⟩
  | cons hstep _ ih =>
    have hfirst := hstep.keeps (fun b h => hstore b (h ▸ List.mem_cons_self)) htdre
    exact hfirst.trans (ih (fun b h => hstore b (List.mem_cons_of_mem _ h)) hfirst.tdre)

theorem Reconfigures.keeps {m n : Machine} (h : m.Reconfigures mode n) (htdre : m.tdre = true) :
    Keeps m n ∧ n.eeprom.Clean ∧ Wired mode n.toWalker := by
  obtain ⟨es, e, es', m₁, m₂, hbefore, hdes, hafter, hstore, hw⟩ := h
  have h₁ := keeps_runs hbefore (fun b h => hstore b (List.mem_append_left _ h)) htdre
  obtain ⟨h₂, hclean⟩ := hdes.keeps
    (fun b h => hstore b (List.mem_append_right _ (h ▸ List.mem_cons_self))) h₁.tdre
  have h₃ := keeps_runs hafter
    (fun b h => hstore b (List.mem_append_right _ (List.mem_cons_of_mem _ h))) h₂.tdre
  exact ⟨(h₁.trans h₂).trans h₃, h₃.clean hclean, hw⟩

/-- A byte sent is one step of the EEPROM's protocol, and a data byte read is
in SSRDR. -/
structure Transfers (mode : Mode) (byte : Byte) (m n : Machine) : Prop where
  tdre : n.tdre = true
  wired : Wired mode n.toWalker
  eeprom : m.eeprom.transfer mode byte = .ok n.eeprom
  reply : mode = .transmitReceive → m.eeprom.buffer.state = .gettingBytes →
    m.eeprom.memory.get? m.eeprom.buffer.index = some (n.memory SSRDR)
  aside : m.toWalker.Aside n.toWalker

theorem still_runs {m t : Machine} (h : Runs BusStep m es t) (hquiet : ∀ e ∈ es, e = .quiet)
    (htdre : m.tdre = true) (hw : Wired mode m.toWalker) :
    t.busView = m.busView ∧ t.eeprom = m.eeprom ∧ m.toWalker.Aside t.toWalker := by
  induction h with
  | nil => exact ⟨rfl, rfl, .refl _⟩
  | cons hstep _ ih =>
    obtain rfl := hquiet _ List.mem_cons_self
    obtain ⟨hv, he, ha⟩ := hstep.still htdre hw
    obtain ⟨hv', he', ha'⟩ := ih (fun e h => hquiet e (List.mem_cons_of_mem _ h))
      ((congrArg BusView.tdre hv).trans htdre) (Walker.wired_of_view hw hv)
    exact ⟨hv'.trans hv, he'.trans he, ha.trans ha'⟩

theorem sending_runs {m t : Machine} (h : Runs BusStep m es t) (hquiet : ∀ e ∈ es, e = .quiet)
    (hs : Sending mode byte e m.toWalker) (hw : Wired mode m.toWalker) :
    Sending mode byte e t.toWalker ∧ m.toWalker.Aside t.toWalker ∧ Wired mode t.toWalker := by
  induction h with
  | nil => exact ⟨hs, .refl _, hw⟩
  | cons hstep _ ih =>
    obtain rfl := hquiet _ List.mem_cons_self
    obtain ⟨hs', ha, hw'⟩ := hstep.sending hs hw
    obtain ⟨hs'', ha', hw''⟩ := ih (fun e h => hquiet e (List.mem_cons_of_mem _ h)) hs' hw'
    exact ⟨hs'', ha.trans ha', hw''⟩

theorem Sends.transfers {m n : Machine} (h : m.Sends byte n) (htdre : m.tdre = true)
    (hw : Wired mode m.toWalker) : Transfers mode byte m n := by
  obtain ⟨es, es', m₁, m₂, hbefore, hstore, hafter, hquiet, hready⟩ := h
  obtain ⟨hv, he, ha⟩ :=
    still_runs hbefore (fun e h => hquiet e (List.mem_append_left _ h)) htdre hw
  obtain ⟨hs₂, ha₂, hw₂⟩ := hstore.stored (Walker.wired_of_view hw hv)
  obtain ⟨hs₃, ha₃, hw₃⟩ :=
    sending_runs hafter (fun e h => hquiet e (List.mem_append_right _ h)) hs₂ hw₂
  rw [he] at hs₃
  rcases hs₃ with ⟨hpending, -, -⟩ | ⟨-, htaken, hreply⟩
  · simp [hready] at hpending
  · exact ⟨hready, hw₃, htaken, hreply, (ha.trans ha₂).trans ha₃⟩

end Machine

end PokeStroller
