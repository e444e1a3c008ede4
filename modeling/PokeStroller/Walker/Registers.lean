import PokeStroller.Walker.Accel

/-!
# The registers of the accelerometer

A transaction names a register and goes on with data. What the registers hold
after any sequence of transactions, and which of them a read finds.
-/

namespace PokeStroller

-- ---------------------------------------------------------------------------
-- Transactions
-- ---------------------------------------------------------------------------

/-- The number of the register is not marked taken, so it may be taken `again`,
as data. -/
structure Transaction where
  mode : Mode
  register : Fin 29
  again : Bool
  data : List Byte
  nonempty : data ≠ []

namespace Transaction

def number (mode : Mode) (r : Fin 29) : Byte :=
  match mode with
  | .transmit => BitVec.ofNat 8 r
  | .transmitReceive => 0x80 ||| BitVec.ofNat 8 r

def rest (tx : Transaction) : List Byte :=
  List.replicate tx.again.toNat (number tx.mode tx.register) ++ tx.data

def events (tx : Transaction) : List AccelEvent :=
  (number tx.mode tx.register :: tx.rest).map (.take tx.mode)

def stores (tx : Transaction) (r : Fin 29) : List Byte :=
  if tx.mode = .transmit ∧ tx.register = r then tx.data else []

def stored (history : List Transaction) (r : Fin 29) : List Byte := history.flatMap (·.stores r)

end Transaction

def AccelEvent.relevant (log : List AccelEvent) : List AccelEvent := log.filter (· ≠ .quiet)

namespace Walker

/-- A whole transaction, from a select to a deselect. -/
def Performs (s : Walker) (tx : Transaction) (t : Walker) : Prop :=
  ∃ log j k, Runs BusMove s log t ∧ AccelEvent.relevant log =
    List.replicate j .deselect ++ (tx.events ++ List.replicate (k + 1) .deselect)

/-- A read of this register has come to the tick with its first byte. -/
def Asks (s : Walker) (r : Fin 29) (t : Walker) : Prop :=
  ∃ log j byte, Runs BusMove s log t ∧ AccelEvent.relevant log = List.replicate j .deselect ++
      [.take .transmitReceive (Transaction.number .transmitReceive r)] ∧
    t.accelEvent = .take .transmitReceive byte

/-- After every sequence of transactions, a read of this register begins with
what was stored in it last, and a transaction on it keeps the others. -/
def RegisterAgrees (s₀ : Walker) (r : Fin 29) : Prop :=
  ∀ (history : List Transaction) (s : Walker), Runs Performs s₀ history s →
    (∀ t, Asks s r t → ∃ u, t.ssuTick = .ok u ∧ u.memory SSRDR =
      (Transaction.stored history r).getLast?.getD (s₀.accel.memory r)) ∧
    ∀ (tx : Transaction) (t : Walker), tx.register = r → Performs s tx t →
      ∀ q, q ≠ r → t.accel.memory q = s.accel.memory q

end Walker

-- ---------------------------------------------------------------------------
-- The accelerometer's side
-- ---------------------------------------------------------------------------

namespace Accelerometer

def Reacts (a : Accelerometer) (e : AccelEvent) (a' : Accelerometer) : Prop := a.react e = .ok a'

theorem Reacts.relevant {a a' : Accelerometer} (h : Runs Reacts a log a') :
    Runs Reacts a (AccelEvent.relevant log) a' := by
  induction h with
  | nil a => exact .nil a
  | @cons a b c e es hstep _ ih =>
    cases e with
    | quiet =>
      cases hstep
      simpa [AccelEvent.relevant] using ih
    | deselect => exact .cons hstep ih
    | take mode byte => exact .cons hstep ih

theorem Reacts.deselects {a a' : Accelerometer} (h : Runs Reacts a (List.replicate k .deselect) a')
    (hidle : a.Idle) : a' = a := by
  induction k with
  | zero =>
    cases h
    rfl
  | succ k ih =>
    cases h with
    | cons hstep hrest =>
      cases hstep
      rw [hidle.reset] at hrest
      exact ih hrest

theorem Reacts.ends {a a' : Accelerometer}
    (h : Runs Reacts a (List.replicate (k + 1) .deselect) a') : a' = a.reset := by
  cases h with
  | cons hstep hrest =>
    cases hstep
    exact deselects hrest a.reset_idle

theorem Reacts.reads {a a' : Accelerometer} {bs : List Byte}
    (h : Runs Reacts a (bs.map (.take .transmitReceive)) a') : a'.memory = a.memory := by
  induction bs generalizing a with
  | nil =>
    cases h
    rfl
  | cons b bs ih =>
    cases h with
    | @cons _ c _ _ _ hstep hrest =>
      have hkeep : c.memory = a.memory := by
        simp only [Reacts, react, transfer] at hstep
        cases hstate : a.buffer.state with
        | gettingAddress =>
          rw [hstate] at hstep
          cases hstep
          rfl
        | gettingBytes =>
          rw [hstate] at hstep
          obtain ⟨value, -, rfl⟩ := Outcome.map_eq_ok.mp hstep
          rfl
      exact (ih hrest).trans hkeep

theorem Reacts.writes {a a' : Accelerometer} {bs : List Byte} {r : Fin 29}
    (h : Runs Reacts a (bs.map (.take .transmit)) a') (hstate : a.buffer.state = .gettingBytes)
    (haddress : a.buffer.address.toNat = r) :
    a'.memory = Function.update a.memory r (bs.getLast?.getD (a.memory r)) := by
  induction bs generalizing a with
  | nil =>
    cases h
    simp
  | cons b bs ih =>
    cases h with
    | cons hstep hrest =>
      simp only [Reacts, react, transfer, hstate, haddress, Bytes.set?_of_lt _ r.isLt,
        Outcome.ofOption_some, Outcome.map_ok] at hstep
      cases hstep
      simpa [List.getLast?_cons] using ih hrest hstate haddress

theorem number_transmit (r : Fin 29) : (Transaction.number .transmit r).toNat = r := by
  simp [Transaction.number]
  omega

theorem number_transmitReceive (r : Fin 29) :
    (Transaction.number .transmitReceive r &&& 0x0f).toNat = r % 16 := by
  revert r
  decide

theorem Reacts.events {a a' : Accelerometer} {tx : Transaction} (h : Runs Reacts a tx.events a')
    (hidle : a.Idle) (q : Fin 29) : a'.memory q = (tx.stores q).getLast?.getD (a.memory q) := by
  obtain ⟨mode, register, again, data, hdata⟩ := tx
  cases h with
  | cons hstep hrest =>
    cases (hidle.transfer mode _).symm.trans hstep
    cases mode with
    | transmitReceive =>
      rw [reads hrest]
      simp [Transaction.stores]
    | transmit =>
      -- the data come last, whether or not the number is stored before them
      have hlast (d : Byte) : (List.replicate again.toNat (Transaction.number .transmit register) ++
          data).getLast?.getD d = data.getLast?.getD d := by
        simp [List.getLast?_append, List.getLast?_eq_some_getLast hdata]
      have hmemory := writes (r := register) hrest rfl (number_transmit register)
      simp only [Transaction.rest, hlast] at hmemory
      rw [hmemory]
      by_cases hq : register = q
      · subst hq
        simp [Transaction.stores]
      · simp [Transaction.stores, hq, Ne.symm hq]

end Accelerometer

-- ---------------------------------------------------------------------------
-- Histories
-- ---------------------------------------------------------------------------

namespace Walker

theorem BusMove.reacts_run {s t : Walker} (h : Runs BusMove s log t) :
    Runs Accelerometer.Reacts s.accel log t.accel := by
  induction h with
  | nil s => exact .nil _
  | cons hmove _ ih => exact .cons hmove.react ih

theorem Performs.registers {s t : Walker} (h : Performs s tx t) (hs : s.accel.Idle) :
    t.accel.Idle ∧
      ∀ q, t.accel.memory q = (tx.stores q).getLast?.getD (s.accel.memory q) := by
  obtain ⟨log, j, k, hlog, hrelevant⟩ := h
  have hreacts := Accelerometer.Reacts.relevant (BusMove.reacts_run hlog)
  rw [hrelevant] at hreacts
  obtain ⟨a, hbefore, hreacts⟩ := hreacts.split
  obtain ⟨b, hevents, hafter⟩ := hreacts.split
  obtain rfl := Accelerometer.Reacts.deselects hbefore hs
  have hregisters := Accelerometer.Reacts.events hevents hs
  rw [Accelerometer.Reacts.ends hafter]
  exact ⟨b.reset_idle, hregisters⟩

theorem Performs.registers_run {s₀ s : Walker} (h : Runs Performs s₀ history s)
    (h₀ : s₀.accel.Idle) : s.accel.Idle ∧ ∀ q, s.accel.memory q =
      (Transaction.stored history q).getLast?.getD (s₀.accel.memory q) := by
  induction h with
  | nil s => exact ⟨h₀, fun _ => rfl⟩
  | cons htx _ ih =>
    obtain ⟨hidle, hregisters⟩ := htx.registers h₀
    obtain ⟨hidle', hregisters'⟩ := ih hidle
    refine ⟨hidle', fun q => ?_⟩
    rw [hregisters' q, hregisters q]
    simp [Transaction.stored, List.getLast?_append, Option.getD_or]

theorem accelRead_reply {s : Walker} (hstate : s.accel.buffer.state = .gettingBytes)
    (hvalue : s.accel.memory.get? (s.accel.buffer.address.toNat + s.accel.buffer.offset.toNat) =
      some value) : ∃ t, s.accelRead = .ok t ∧ t.memory SSRDR = value := by
  unfold accelRead
  simp only [hstate, hvalue]
  refine ⟨_, rfl, ?_⟩
  simp [setSSSR, setSSRDR, SSSR, SSRDR]

/-- A read begins with the register that the low half of the number names. -/
theorem Asks.reply {s t : Walker} {r : Fin 29} (h : Asks s r t) (hs : s.accel.Idle) :
    ∃ u, t.ssuTick = .ok u ∧ u.memory SSRDR = s.accel.memory ⟨r % 16, by omega⟩ := by
  obtain ⟨log, j, byte, hlog, hrelevant, hevent⟩ := h
  have hreacts := Accelerometer.Reacts.relevant (BusMove.reacts_run hlog)
  rw [hrelevant] at hreacts
  obtain ⟨a, hbefore, hnumber⟩ := hreacts.split
  obtain rfl := Accelerometer.Reacts.deselects hbefore hs
  have haccel : t.accel = { s.accel with
      buffer := ⟨Transaction.number .transmitReceive r &&& 0x0f, 0, .gettingBytes⟩ } := by
    cases hnumber with
    | cons hstep hrest =>
      cases hrest
      exact (Outcome.ok.inj ((hs.transfer _ _).symm.trans hstep)).symm
  obtain ⟨hmode, hsel, -⟩ := accelEvent_eq_take.mp hevent
  rw [ssuTick_transfer hmode, transfer, ssuTransmitReceive, if_pos hsel]
  refine accelRead_reply (by rw [haccel]) ?_
  have hindex : t.accel.buffer.address.toNat + t.accel.buffer.offset.toNat = r % 16 := by
    rw [haccel]
    exact Accelerometer.number_transmitReceive r
  rw [hindex, haccel]
  exact Bytes.get?_of_lt _ _

theorem RegisterAgrees.of_lt {s₀ : Walker} (h₀ : s₀.accel.Idle) {r : Fin 29} (hr : r.val < 16) :
    s₀.RegisterAgrees r := by
  intro history s hhistory
  obtain ⟨hidle, hregisters⟩ := Performs.registers_run hhistory h₀
  constructor
  · rintro t hasks
    obtain ⟨u, hu, hreply⟩ := hasks.reply hidle
    refine ⟨u, hu, ?_⟩
    rw [hreply, ← hregisters r]
    congr
    exact Nat.mod_eq_of_lt hr
  · rintro tx t rfl htx q hq
    rw [(htx.registers hidle).2 q]
    simp [Transaction.stores, Ne.symm hq]

-- ---------------------------------------------------------------------------
-- Transactions that a program can perform
-- ---------------------------------------------------------------------------

def presented (mode : Mode) (byte : Byte) : Memory := fun a =>
  if a = PORT1 then EEPROM_PIN ||| LCD_PIN
  else if a = SSER then (match mode with | .transmit => TE | .transmitReceive => TE ||| RE)
  else if a = SSTDR then byte
  else 0

def present (s : Walker) (mode : Mode) (byte : Byte) : Walker :=
  ssuCleanup { s with memory := presented mode byte }

section
variable (s : Walker) (mode : Mode) (byte : Byte)

theorem presented_port1 : presented mode byte PORT1 = EEPROM_PIN ||| LCD_PIN := by
  simp [presented]

theorem presented_port9 : presented mode byte PORT9 = 0 := by
  simp [presented, PORT1, PORT9, SSER, SSTDR]

theorem presented_sssr : presented mode byte SSSR = 0 := by
  simp [presented, PORT1, SSSR, SSER, SSTDR]

theorem presented_sstdr : presented mode byte SSTDR = byte := by
  simp [presented, PORT1, SSER, SSTDR]

theorem presented_sser : presented mode byte SSER =
    match mode with | .transmit => TE | .transmitReceive => TE ||| RE := by
  simp [presented, PORT1, SSER]

theorem present_memory : (s.present mode byte).memory = presented mode byte :=
  congrArg Cpu.memory (ssuCleanup_toCpu _)

theorem present_accelSelected : (s.present mode byte).accelSelected = true := by
  rw [accelSelected, present_memory, presented_port9]
  decide

theorem present_accel : (s.present mode byte).accel = s.accel := by
  have hsel := present_accelSelected s mode byte
  rw [accelSelected, present_memory] at hsel
  exact (ssuCleanup_accel _).trans (if_pos hsel)

theorem present_move : BusMove s .quiet (s.present mode byte) := by
  have hmove : BusMove s (if (s.present mode byte).accelSelected then .quiet else .deselect)
      (s.present mode byte) := .instruction (presented mode byte) (.refl _)
  rwa [present_accelSelected, if_pos rfl] at hmove

theorem present_event : (s.present mode byte).accelEvent = .take mode byte := by
  refine accelEvent_eq_take.mpr ⟨?_, present_accelSelected s mode byte, ?_⟩
  · rw [transferMode_eq_some, present_memory, presented_sssr, presented_sser]
    cases mode <;> decide
  · rw [present_memory, presented_sstdr]

theorem present_stepping : (s.present mode byte).stepping = [.accel] := by
  have hmode := (accelEvent_eq_take.mp (present_event s mode byte)).1
  have hport := (congrFun (present_memory s mode byte) PORT1).trans (presented_port1 mode byte)
  have heeprom : (s.present mode byte).eepromSelected = false := by
    rw [eepromSelected, hport]
    decide
  have hlcd : (s.present mode byte).lcdSelected = false := by
    rw [lcdSelected, hport]
    decide
  have hpin : (s.present mode byte).lcdDataPin = false := by
    rw [lcdDataPin, hport]
    decide
  cases mode <;> simp [stepping, hmode, present_accelSelected, heeprom, hlcd, hpin]

end

/-- The accelerometer can be made to take any byte it has a reaction to. -/
theorem take_moves (s : Walker) {mode : Mode} {byte : Byte}
    (h : s.accel.transfer mode byte = .ok a) :
    ∃ t, Runs BusMove s [.quiet, .take mode byte] t ∧ t.accel = a := by
  have hevent := present_event s mode byte
  obtain ⟨hmode, -, hbyte⟩ := accelEvent_eq_take.mp hevent
  have hdevices := (s.present mode byte).ssuTick_devices
  rw [hmode, present_stepping, hbyte] at hdevices
  dsimp only at hdevices
  rw [Devices.steps_single, Devices.step, devices, present_accel, h] at hdevices
  obtain ⟨t, ht, haccel⟩ := Outcome.map_eq_ok.mp hdevices
  have htick := BusMove.tick (Outcome.leaves_of_ok ht)
  rw [hevent] at htick
  exact ⟨t, .cons (present_move s mode byte) (.single htick), congrArg Devices.accel haccel⟩

theorem deselect_move (s : Walker) : ∃ t, BusMove s .deselect t := by
  let t := ssuCleanup { s with memory := fun _ => ACCEL_PIN }
  have hsel : t.accelSelected = false := by
    rw [accelSelected, ssuCleanup_toCpu]
    change (!ACCEL_PIN.has ACCEL_PIN) = false
    decide
  have hmove : BusMove s (if t.accelSelected then .quiet else .deselect) t :=
    .instruction (fun _ => ACCEL_PIN) (.refl _)
  rw [hsel, if_neg Bool.false_ne_true] at hmove
  exact ⟨t, hmove⟩

theorem asks_exists {s : Walker} (hs : s.accel.Idle) (r : Fin 29) : ∃ t, Asks s r t := by
  let number := Transaction.number .transmitReceive r
  obtain ⟨t, hlog, -⟩ := s.take_moves (hs.transfer .transmitReceive number)
  exact ⟨t.present .transmitReceive number, _, 0, number,
    hlog.append (.single (t.present_move _ _)), rfl, t.present_event _ _⟩

theorem performs_exists {s : Walker} (hs : s.accel.Idle) (r : Fin 29) (value : Byte) :
    ∃ t, Performs s ⟨.transmit, r, false, [value], nofun⟩ t := by
  obtain ⟨t, hnumber, ht⟩ :=
    s.take_moves (hs.transfer .transmit (Transaction.number .transmit r))
  have hstore : t.accel.transfer .transmit value =
      .ok { t.accel with memory := Function.update s.accel.memory r value } := by
    rw [ht]
    simp [Accelerometer.transfer, Accelerometer.firstRegister, Accelerometer.number_transmit,
      Bytes.set?_of_lt _ r.isLt]
  obtain ⟨u, hvalue, -⟩ := t.take_moves hstore
  obtain ⟨v, hdeselect⟩ := u.deselect_move
  exact ⟨v, _, 0, 0, (hnumber.append hvalue).append (.single hdeselect), rfl⟩

theorem RegisterAgrees.lt {s₀ : Walker} (h₀ : s₀.accel.Idle) {r : Fin 29}
    (h : s₀.RegisterAgrees r) : r.val < 16 := by
  by_contra hr
  let other : Fin 29 := ⟨r % 16, by omega⟩
  have hother : other ≠ r := by
    rintro h
    have hval : r.val % 16 = r.val := congrArg Fin.val h
    omega
  -- a value that differs from what the other register holds
  have hdiffers : ∀ b : Byte, ~~~b ≠ b := by decide
  obtain ⟨s, hperforms⟩ := performs_exists h₀ r (~~~ s₀.accel.memory other)
  obtain ⟨hidle, hregisters⟩ := hperforms.registers h₀
  obtain ⟨t, hasks⟩ := asks_exists hidle r
  obtain ⟨u, hu, hreply⟩ := (h _ s (.single hperforms)).1 t hasks
  obtain ⟨u', hu', hreply'⟩ := hasks.reply hidle
  cases hu.symm.trans hu'
  have hkept : s.accel.memory other = s₀.accel.memory other := by
    rw [hregisters]
    simp [Transaction.stores, Ne.symm hother]
  refine hdiffers (s₀.accel.memory other) ?_
  calc ~~~ s₀.accel.memory other = u.memory SSRDR := by
        rw [hreply]
        simp [Transaction.stored, Transaction.stores]
    _ = s.accel.memory other := hreply'
    _ = s₀.accel.memory other := hkept

/-- The registers that agree are the first sixteen. -/
theorem register_agrees_iff {s₀ : Walker} (h₀ : s₀.accel.Idle) (r : Fin 29) :
    s₀.RegisterAgrees r ↔ r.val < 16 :=
  ⟨fun h => h.lt h₀, fun hr => .of_lt h₀ hr⟩

/-- After booting, register 0 is read as the chip id. -/
theorem register_agrees_iff_boot : ∃ t u : Walker, Asks (Machine.boot []).toWalker 0 t ∧
    t.ssuTick = .ok u ∧ u.memory SSRDR = 0x2 := by
  have hidle : (Machine.boot []).accel.Idle := (Machine.loaded_images _ _).idle
  have hagrees := (register_agrees_iff hidle 0).mpr (by decide)
  obtain ⟨t, hasks⟩ := asks_exists hidle 0
  obtain ⟨u, hu, hreply⟩ := (hagrees [] _ (.nil _)).1 t hasks
  exact ⟨t, u, hasks, hu, hreply⟩

/-- Register 16 is read as register 0. -/
theorem register_sixteen :
    ¬ ∀ (m₀ : Machine) (r : Fin 29), m₀.Loaded → m₀.toWalker.RegisterAgrees r := by
  intro claim
  have hagrees := claim (Machine.boot []) 16 (Machine.loaded_images _ _)
  have hlt := hagrees.lt (Machine.loaded_images _ _).idle
  revert hlt
  decide

end Walker

end PokeStroller
