import PokeStroller.Soc.Display

/-!
# Accesses outside an array

Whatever the firmware does, two accesses can miss their array: one of the processor to the
address after `io_low`, which the bus takes for its last, and a reply of the
accelerometer from behind its registers.
-/

namespace PokeStroller.Soc

open Exec

-- ---------------------------------------------------------------------------
-- The bus
-- ---------------------------------------------------------------------------

/-- The address after `io_low`. -/
def GAP : BitVec 16 := 0xF100

theorem eq_gap {address : BitVec 16} (hend : address.toNat ≤ IO_LOW_END)
    (hsize : IO_LOW_SIZE ≤ address.toNat - IO_LOW_START) : address = GAP := by
  simp only [IO_LOW_START, IO_LOW_END, IO_LOW_SIZE] at hend hsize
  refine BitVec.eq_of_toNat_eq (Nat.le_antisymm ?_ ?_)
  · exact hend
  · change 0xF100 ≤ _
    omega

theorem gap_find? : IoRegister.find? GAP = none := by decide

theorem checked_error {x : Option α} {s : H838606} (h : checked array x s = .error fault t) :
    x = none ∧ fault = .undefined array ∧ t = s := by
  cases x with
  | some a => cases h
  | none =>
    cases h
    exact ⟨rfl, rfl, rfl⟩

theorem get?_eq_none {m : Bytes n} (h : m.get? i = none) : n ≤ i := by
  by_contra hlt
  rw [m.get?_of_lt (Nat.lt_of_not_le hlt)] at h
  cases h

theorem set?_eq_none {m : Bytes n} {v : Byte} (h : m.set? i v = none) : n ≤ i := by
  by_contra hlt
  rw [m.set?_of_lt (Nat.lt_of_not_le hlt)] at h
  cases h

theorem ioRead_error {address : BitVec 16} {s : H838606} :
    ioRead address s = .error fault t ↔
      address = GAP ∧ fault = .undefined .io_low ∧ t = s := by
  unfold ioRead
  rw [bind_ok (get_apply s)]
  constructor
  · rintro h
    cases hfind : IoRegister.find? address with
    | some r =>
      rw [hfind] at h
      cases h
    | none =>
      rw [hfind] at h
      dsimp only at h
      split at h
      · rename_i hlow
        obtain ⟨hnone, rfl, rfl⟩ := checked_error h
        exact ⟨eq_gap hlow.2 (get?_eq_none hnone), rfl, rfl⟩
      split at h
      · rename_i hhigh
        obtain ⟨hnone, -, -⟩ := checked_error h
        have hsize := get?_eq_none hnone
        simp only [IO_HIGH_START, IO_HIGH_END, IO_HIGH_SIZE] at hhigh hsize
        omega
      · cases h
  · rintro ⟨rfl, rfl, rfl⟩
    rw [gap_find?]
    dsimp only
    rw [Exec.ite_pos (by decide), Bytes.get?_of_le _ (by decide)]
    rfl

theorem Read8_error {address : BitVec 16} {s : H838606} :
    Read8 address s = .error fault t ↔
      address = GAP ∧ fault = .undefined .io_low ∧ t = s := by
  unfold Read8
  rw [bind_ok (get_apply s)]
  constructor
  · rintro h
    split at h
    · rename_i hrom
      obtain ⟨hnone, -, -⟩ := checked_error h
      have hsize := get?_eq_none hnone
      simp only [ROM_END, ROM_SIZE] at hrom hsize
      omega
    split at h
    · rename_i hram
      obtain ⟨hnone, -, -⟩ := checked_error h
      have hsize := get?_eq_none hnone
      simp only [RAM_START, RAM_END, RAM_SIZE] at hram hsize
      omega
    split at h
    · exact ioRead_error.mp h
    · cases h
  · rintro h
    obtain ⟨rfl, -, -⟩ := id h
    rw [Exec.ite_neg (by decide), Exec.ite_neg (by decide), Exec.ite_pos (by decide)]
    exact ioRead_error.mpr h

theorem ioWrite_error {address : BitVec 16} {value : Byte} {s : H838606} :
    ioWrite address value s = .error fault t ↔
      address = GAP ∧ fault = .undefined .io_low ∧ t = s := by
  unfold ioWrite
  rw [bind_ok (get_apply s)]
  constructor
  · rintro h
    cases hfind : IoRegister.find? address with
    | some r =>
      rw [hfind] at h
      cases h
    | none =>
      rw [hfind] at h
      dsimp only at h
      split at h
      · rename_i hlow
        rcases bind_eq_error.mp h with h | ⟨_, _, _, h⟩
        · obtain ⟨hnone, rfl, rfl⟩ := checked_error h
          exact ⟨eq_gap hlow.2 (set?_eq_none hnone), rfl, rfl⟩
        · cases h
      split at h
      · rename_i hhigh
        rcases bind_eq_error.mp h with h | ⟨_, _, _, h⟩
        · obtain ⟨hnone, -, -⟩ := checked_error h
          have hsize := set?_eq_none hnone
          simp only [IO_HIGH_START, IO_HIGH_END, IO_HIGH_SIZE] at hhigh hsize
          omega
        · cases h
      · cases h
  · rintro ⟨rfl, rfl, rfl⟩
    rw [gap_find?]
    dsimp only
    rw [Exec.ite_pos (by decide), Bytes.set?_of_le _ (by decide)]
    rfl

theorem Write8_error {address : BitVec 16} {value : Byte} {s : H838606} :
    Write8 address value s = .error fault t ↔
      address = GAP ∧ fault = .undefined .io_low ∧ t = s := by
  unfold Write8
  rw [bind_ok (get_apply s)]
  constructor
  · rintro h
    split at h
    · cases h
    split at h
    · rename_i hram
      rcases bind_eq_error.mp h with h | ⟨_, _, _, h⟩
      · obtain ⟨hnone, -, -⟩ := checked_error h
        have hsize := set?_eq_none hnone
        simp only [RAM_START, RAM_END, RAM_SIZE] at hram hsize
        omega
      · cases h
    split at h
    · exact ioWrite_error.mp h
    · cases h
  · rintro h
    obtain ⟨rfl, -, -⟩ := id h
    rw [Exec.ite_neg (by decide), Exec.ite_neg (by decide), Exec.ite_pos (by decide)]
    exact ioWrite_error.mpr h

-- ---------------------------------------------------------------------------
-- The serial bus
-- ---------------------------------------------------------------------------

abbrev Total (x : Exec α) : Prop := Throws (fun _ => False) x

theorem Read8_total {address : BitVec 16} (h : address ≠ GAP) : Total (Read8 address) :=
  fun _ _ _ herror => h (Read8_error.mp herror).1

theorem Write8_total {address : BitVec 16} (h : address ≠ GAP) (value : Byte) :
    Total (Write8 address value) := fun _ _ _ herror => h (Write8_error.mp herror).1

theorem onOutputPin_total (value : Bool) : Total (SSU.onOutputPin value) :=
  (Read8_total (by decide)).bind fun _ => Write8_total (by decide) _

theorem cyclePeripherals_total (cycles : Byte) : Total (SSU.cyclePeripherals cycles) := by
  have hcycle : Total (SSU.cycleAccelerometer cycles) :=
    Throws.get.bind fun _ => (Throws.set _).bind fun _ => .pure _
  exact hcycle.bind fun _ =>
    .ite ((onOutputPin_total true).bind fun _ => onOutputPin_total false) (.pure _)

theorem inputPins_total (p : Peripheral) : Total (SSU.inputPins p) :=
  .ite ((Read8_total (by decide)).bind fun _ => .modify _) (.pure _)

theorem selectAmong_total (ps : List Peripheral) : Total (SSU.selectAmong ps) := by
  induction ps with
  | nil => exact .pure _
  | cons p ps ih =>
    have hport : p.port_addr ≠ GAP := by cases p <;> decide
    exact (Read8_total hport).bind fun port =>
      .ite ((Throws.modify _).bind fun _ => ih) ((inputPins_total p).bind fun _ => .pure _)

/-- The data of the peripherals have a place for what comes from the bus. -/
structure Sound (s : H838606) : Prop where
  lcd : s.lcd.Valid
  register_index : s.accelerometer.register_index.toNat < 0x80

theorem Sound.Receive {s : H838606} (h : Sound s) (p : Peripheral) (data : Byte) :
    ∃ t, p.Receive data s = some t := by
  cases p with
  | accelerometer =>
    have hreceive : ∃ a, s.accelerometer.Receive data = some a := by
      unfold BMA150.Receive
      split
      · exact ⟨_, rfl⟩
      split
      · exact ⟨_, rfl⟩
      · rw [Bytes.set?_of_lt _ h.register_index]
        exact ⟨_, rfl⟩
    obtain ⟨a, ha⟩ := hreceive
    exact ⟨_, congrArg (Option.map _) ha⟩
  | eeprom => exact ⟨_, rfl⟩
  | lcd =>
    obtain ⟨lcd, hlcd, -⟩ := h.lcd.Receive data
    exact ⟨_, congrArg (Option.map _) hlcd⟩

/-- The accelerometer is read behind its registers. -/
def Overrun (s : H838606) : Prop :=
  s.accelerometer.is_reading = true ∧
    0x80 ≤ s.accelerometer.register_index.toNat + s.accelerometer.offset.toNat

theorem answer_error {p : Peripheral} {s : H838606} (h : SSU.answer p s = .error fault t) :
    fault = .undefined .mem ∧ Overrun t := by
  unfold SSU.answer at h
  rw [bind_ok (get_apply s)] at h
  rcases bind_eq_error.mp h with h | ⟨_, _, _, h⟩
  · obtain ⟨hnone, rfl, rfl⟩ := checked_error h
    cases p with
    | accelerometer =>
      have hreply := Option.map_eq_none_iff.mp hnone
      unfold BMA150.Transmit at hreply
      split at hreply
      · rename_i hreading
        exact ⟨rfl, hreading, get?_eq_none (Option.map_eq_none_iff.mp hreply)⟩
      · cases hreply
    | eeprom => cases hnone
    | lcd => cases hnone
  · cases h

theorem Sound.transmitByte {s : H838606} (h : Sound s) (p : Peripheral) :
    SSU.transmitByte p s ≠ .error fault t := by
  rintro herror
  unfold SSU.transmitByte at herror
  rw [bind_ok (get_apply s)] at herror
  obtain ⟨t, ht⟩ := h.Receive p s.ssu.SSTDR
  have hreceive : checked p.array (p.Receive s.ssu.SSTDR s) s = .ok t s := by
    rw [ht]
    rfl
  split at herror
  · split at herror
    · cases herror
    · rw [bind_ok hreceive] at herror
      cases herror
  · cases herror

theorem receiveByte_error {p : Peripheral} {s : H838606}
    (h : SSU.receiveByte p s = .error fault t) : fault = .undefined .mem ∧ Overrun t := by
  unfold SSU.receiveByte at h
  rw [bind_ok (get_apply s)] at h
  split at h
  · obtain ⟨u, hsample, -⟩ := sample_ssu p s
    rw [bind_ok hsample] at h
    exact answer_error h
  · cases h

theorem BMA150.register_index_lt {a a' : BMA150} (h : a.register_index.toNat < 0x80)
    (hreceive : a.Receive data = some a') : a'.register_index.toNat < 0x80 := by
  unfold BMA150.Receive at hreceive
  split at hreceive
  · cases hreceive
    exact Nat.lt_of_le_of_lt (BitVec.toNat_and .. ▸ Nat.and_le_right) (by decide)
  split at hreceive
  · cases hreceive
    exact h
  · obtain ⟨mem, -, rfl⟩ := Option.map_eq_some_iff.mp hreceive
    exact h

/-- What a move does to the register that the accelerometer has selected. -/
theorem Move.register_index {s t : H838606} (h : Move s t) :
    t.accelerometer.register_index = s.accelerometer.register_index ∨
      ∃ data, s.accelerometer.Receive data = some t.accelerometer := by
  cases h with
  | early h =>
    cases h with
    | ssu h =>
      cases h with
      | bus h => exact .inl (congrArg _ h.board.accelerometer)
      | accelerometerTime cycles _ =>
        refine .inl ?_
        unfold BMA150.Cycle
        dsimp only
        split
        · rfl
        split <;> rfl
      | sample hsample =>
        unfold BMA150.setSample at hsample
        obtain ⟨_, -, hsample⟩ := Option.bind_eq_some_iff.mp hsample
        obtain ⟨_, -, hsample⟩ := Option.bind_eq_some_iff.mp hsample
        obtain ⟨_, -, hsample⟩ := Option.bind_eq_some_iff.mp hsample
        cases hsample
        exact .inl rfl
      | reset p _ => cases p <;> exact .inl rfl
      | @receive p _ t _ _ h =>
        cases p with
        | accelerometer =>
          obtain ⟨a, ha, rfl⟩ := Option.map_eq_some_iff.mp h
          exact .inr ⟨_, ha⟩
        | eeprom =>
          cases h
          exact .inl rfl
        | lcd =>
          obtain ⟨lcd, -, rfl⟩ := Option.map_eq_some_iff.mp h
          exact .inl rfl
      | @transmit data p _ t _ _ h =>
        cases p with
        | accelerometer =>
          obtain ⟨⟨data', a⟩, ha, heq⟩ := Option.map_eq_some_iff.mp h
          cases heq
          unfold BMA150.Transmit at ha
          split at ha
          · obtain ⟨_, -, heq⟩ := Option.map_eq_some_iff.mp ha
            cases heq
            exact .inl rfl
          · cases ha
            exact .inl rfl
        | eeprom =>
          cases h
          exact .inl rfl
        | lcd =>
          cases h
          exact .inl rfl
      | _ => exact .inl rfl
    | _ => exact .inl rfl
  | timerB1 cycles _ => exact .inl (congrArg _ (TimerB1_frame cycles s).board.accelerometer)
  | timerW cycles _ => exact .inl (congrArg _ (TimerW_frame cycles s).board.accelerometer)
  | rtc now cycles _ => exact .inl (congrArg _ (RTC_frame now cycles s).board.accelerometer)
  | adc _ => exact .inl (congrArg _ (ADC_frame s).board.accelerometer)
  | _ => exact .inl rfl

theorem Sound.move {s t : H838606} (h : Sound s) (hmove : Move s t) : Sound t := by
  refine ⟨hmove.lcd_valid h.lcd, ?_⟩
  rcases hmove.register_index with hsame | ⟨data, hreceive⟩
  · rw [hsame]
    exact h.register_index
  · exact BMA150.register_index_lt h.register_index hreceive

theorem Sound.moves {s t : H838606} (h : Sound s) (hmoves : Moves s t) : Sound t := by
  induction hmoves with
  | refl => exact h
  | tail _ hmove ih => exact ih.move hmove

theorem Sound.tick {s : H838606} (h : Sound s) (herror : SSU.tick s = .error fault t) :
    fault = .undefined .mem ∧ Overrun t := by
  unfold SSU.tick at herror
  rcases bind_eq_error.mp herror with herror | ⟨p, u, hactive, herror⟩
  · exact (selectAmong_total _ _ _ _ herror).elim
  have hu : Sound u := h.moves ((selectAmong_onSsu _).early.byMoves.along.of_ok hactive)
  cases p with
  | none => cases herror
  | some p =>
    rcases bind_eq_error.mp herror with herror | ⟨_, _, _, herror⟩
    · exact (hu.transmitByte p herror).elim
    · exact receiveByte_error herror

/-- The serial bus has no other exception. -/
theorem Sound.ssuCycle {s : H838606} (h : Sound s)
    (herror : H838606.ssuCycle cycles s = .error fault t) :
    fault = .undefined .mem ∧ Overrun t := by
  unfold H838606.ssuCycle at herror
  rw [bind_ok (get_apply s)] at herror
  split at herror
  · unfold SSU.Cycle at herror
    rcases bind_eq_error.mp herror with herror | ⟨_, u, hperipherals, herror⟩
    · exact (cyclePeripherals_total _ _ _ _ herror).elim
    have hu : Sound u :=
      h.moves ((cyclePeripherals_onSsu _).early.byMoves.along.of_ok hperipherals)
    rw [bind_ok (get_apply u)] at herror
    dsimp only at herror
    split at herror
    · cases herror
    · rw [bind_ok (set_apply _ u)] at herror
      refine Sound.tick ?_ herror
      exact ⟨hu.lcd, hu.register_index⟩
  · cases herror

-- ---------------------------------------------------------------------------
-- Runs
-- ---------------------------------------------------------------------------

/-- The interface for infrared throws exceptions only. -/
theorem sci3Cycle_exception (cycles : Byte) :
    Throws (fun fault => ∃ what, fault = .exception what) (H838606.sci3Cycle cycles) := by
  have htransmit : Throws (fun fault => ∃ what, fault = .exception what) SCI3.transmitByte :=
    Throws.get.bind fun _ => .ite (.ite ((Throws.set _).bind fun _ => .pure _)
      (.ite ((Throws.set _).bind fun _ => .pure _) (.throw ⟨_, rfl⟩))) (.pure _)
  have hreceive : Throws (fun fault => ∃ what, fault = .exception what) SCI3.receiveByte := by
    refine Throws.get.bind fun _ => .ite ?_ (.pure _)
    split
    · exact .pure _
    · exact .ite (.set _) (.throw ⟨_, rfl⟩)
  exact Throws.get.bind fun _ => .ite (Throws.get.bind fun _ => .ite ((Throws.set _).bind fun _ =>
    htransmit.bind fun _ => hreceive.bind fun _ => .pure _) ((Throws.set _).bind fun _ => .pure _))
      (.pure _)

/-- In every run since `pw_create`: a cycle makes no access outside an array, unless the
processor reads or writes the address after `io_low` or the firmware has the accelerometer
answer from behind its 128 registers. -/
theorem cycle_in_bounds {localtime : BitVec 64 → Tm}
    {synthesize : BuzzerInformation → τ → τ × BitVec 16} {pw : Adapter H838606 τ}
    (h : Runs (Emulates localtime synthesize)
      (Adapter.created (H838606.reset rom data) sound origin) calls pw) (now : Tm) :
    (∀ array t, H838606.Cycle now pw.soc = .error (.undefined array) t →
      array = .io_low ∨ array = .mem ∧ Overrun t) ∧
    ∀ address value s fault t,
      (Read8 address s = .error fault t ↔
        address = GAP ∧ fault = .undefined .io_low ∧ t = s) ∧
      (Write8 address value s = .error fault t ↔
        address = GAP ∧ fault = .undefined .io_low ∧ t = s) := by
  have hsound : Sound pw.soc := by
    refine h.invariant (I := fun pw => Sound pw.soc)
      (fun _ _ _ hstep hs => hs.moves (Follows.step hstep).moves) ⟨SSD1854.valid_init, ?_⟩
    exact (by decide : (0 : Byte).toNat < 0x80)
  refine ⟨fun array t herror => ?_, fun _ _ _ _ _ => ⟨Read8_error, Write8_error⟩⟩
  rcases bind_eq_error.mp herror with herror | ⟨cycles, s₁, hcpu, herror⟩
  · exact .inl ((CPU.Cycle_onBus.throws _ _ _ herror).2 array rfl)
  have h₁ := hsound.moves (CPU.Cycle_onBus.onSsu.early.byMoves.along.of_ok hcpu)
  rcases bind_eq_error.mp herror with herror | ⟨_, s₂, hinterrupt, herror⟩
  · exact .inl ((Interrupts.Cycle_onBus.throws _ _ _ herror).2 array rfl)
  have h₂ := h₁.moves (Interrupts.Cycle_onBus.onSsu.early.byMoves.along.of_ok hinterrupt)
  rcases bind_eq_error.mp herror with herror | ⟨_, s₃, hserial, herror⟩
  · obtain ⟨hfault, hoverrun⟩ := h₂.ssuCycle herror
    exact .inr ⟨Fault.undefined.inj hfault, hoverrun⟩
  rcases bind_eq_error.mp herror with herror | ⟨_, s₄, -, herror⟩
  · obtain ⟨what, hfault⟩ := sci3Cycle_exception _ _ _ _ herror
    cases hfault
  · cases herror

/-- A run of a firmware of zeros. -/
theorem cycle_in_bounds_blank : ∃ pw,
    Runs (Emulates (fun _ => {}) (fun _ _ => ((), 0))) blank [.host (.run 100)] pw ∧
    ∀ array t, H838606.Cycle {} pw.soc = .error (.undefined array) t →
      array = .io_low ∨ array = .mem ∧ Overrun t := by
  obtain ⟨pw, hruns, -⟩ := blank_slice
  exact ⟨pw, hruns, (cycle_in_bounds hruns {}).1⟩

end PokeStroller.Soc
