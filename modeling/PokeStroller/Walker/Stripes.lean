import PokeStroller.Walker.Isolation
import PokeStroller.Walker.Screen

/-!
# The stripes of the screen

A page of the LCD is a stripe of its memory. Page and byte stay in their ranges
and keep every access inside the memory; the column does not, and takes the
cursor into the stripes after its own.
-/

namespace PokeStroller

-- ---------------------------------------------------------------------------
-- The cursor
-- ---------------------------------------------------------------------------

namespace Lcd

structure Bounded (lcd : Lcd) : Prop where
  page : lcd.currentPage.toNat < 16
  byte : lcd.currentByte.toNat < 2

theorem Bounded.memIndex_lt {lcd : Lcd} (h : lcd.Bounded) : lcd.memIndex < LCD_MEM_SIZE := by
  have hcolumn := lcd.currentColumn.isLt
  obtain ⟨hpage, hbyte⟩ := h
  simp only [memIndex, LCD_WIDTH, LCD_BYTES_PER_STRIPE, LCD_MEM_SIZE]
  omega

theorem Bounded.command {lcd : Lcd} (h : lcd.Bounded) (byte : Byte) :
    (lcd.command byte).Bounded := by
  have hpage : (byte &&& 0xf).toNat < 16 := by
    revert byte
    decide
  have hzero : (0 : Byte).toNat < 2 := by decide
  unfold Lcd.command
  dsimp only
  split
  · split
    · exact ⟨h.page, hzero⟩
    split
    · exact ⟨h.page, hzero⟩
    split
    · exact ⟨hpage, h.byte⟩
    split
    · exact ⟨h.page, h.byte⟩
    · exact h
  · exact ⟨h.page, h.byte⟩

theorem Bounded.data {lcd : Lcd} (h : lcd.Bounded) (byte : Byte) :
    ∃ lcd', lcd.data byte = .ok lcd' ∧ lcd'.Bounded ∧
      lcd.memory.set? lcd.memIndex byte = some lcd'.memory := by
  have hset := lcd.memory.set?_of_lt h.memIndex_lt byte
  have hbyte : ∀ b : Byte, ((b + 1) % 2).toNat < 2 := by decide
  unfold Lcd.data
  rw [hset]
  exact ⟨_, rfl, ⟨h.page, hbyte _⟩, rfl⟩

theorem Bounded.transfer {lcd : Lcd} (h : lcd.Bounded) (dataPin : Bool) (byte : Byte) :
    ∃ lcd', lcd.transfer dataPin byte = .ok lcd' ∧ lcd'.Bounded := by
  cases dataPin with
  | true =>
    obtain ⟨lcd', hdata, hbounded, -⟩ := h.data byte
    exact ⟨lcd', hdata, hbounded⟩
  | false => exact ⟨_, rfl, h.command byte⟩

end Lcd

-- ---------------------------------------------------------------------------
-- What a call keeps
-- ---------------------------------------------------------------------------

theorem Devices.step_bounded {devices : Devices} (h : devices.lcd.Bounded) (mode : Mode)
    (dataPin : Bool) (byte : Byte) (d : Device) :
    (devices.step mode dataPin byte d).Avoids .lcdAssertion fun devices => devices.lcd.Bounded := by
  have other (d : Device) (hd : .lcd ≠ d) (hfault : .lcdAssertion ≠ d.fault) :
      (devices.step mode dataPin byte d).Avoids .lcdAssertion fun t => t.lcd.Bounded := by
    have hsame := devices.step_sameAt mode dataPin byte hd
    refine (hsame.avoids (devices.step_stops mode dataPin byte d) hfault).mono fun t ht => ?_
    rw [show t.lcd = devices.lcd from ht]
    exact h
  cases d with
  | accel => exact other .accel nofun nofun
  | eeprom => exact other .eeprom nofun nofun
  | lcd =>
    obtain ⟨lcd, hlcd, hbounded⟩ := h.transfer dataPin byte
    rw [Devices.step, hlcd]
    exact hbounded

theorem Devices.steps_bounded {devices : Devices} (h : devices.lcd.Bounded) (mode : Mode)
    (dataPin : Bool) (byte : Byte) (ds : List Device) :
    (devices.steps mode dataPin byte ds).Avoids .lcdAssertion
      fun devices => devices.lcd.Bounded := by
  induction ds generalizing devices with
  | nil => exact h
  | cons d ds ih =>
    exact (Devices.step_bounded h mode dataPin byte d).andThen (fun _ h => h) fun _ h => ih h

namespace Walker

theorem ssuTick_bounded {s : Walker} (h : s.lcd.Bounded) :
    s.ssuTick.Avoids .lcdAssertion fun t => t.lcd.Bounded := by
  have hdevices : (s.ssuTick.map devices).Avoids .lcdAssertion fun d => d.lcd.Bounded := by
    rw [ssuTick_devices]
    split
    · exact Devices.steps_bounded h _ _ _ _
    · split
      · exact h
      · exact h
  exact (Outcome.avoids_map (g := devices)).mp hdevices

theorem opcodeSwitch_avoids (s : Walker) (i : Instr) :
    (s.opcodeSwitch i).Avoids .lcdAssertion fun t => t.lcd = s.lcd := by
  have hstops := execute_stops s.interruptSavedAddress s.interruptSavedFlags s.toCpu i
  unfold opcodeSwitch
  cases hexec : execute s.interruptSavedAddress s.interruptSavedFlags s.toCpu i with
  | ok cpu => rfl
  | error cpu => rfl
  | fault e =>
    rw [hexec] at hstops
    rintro rfl
    simp at hstops

theorem instructionPhase_avoids (s : Walker) :
    s.instructionPhase.Avoids .lcdAssertion fun t => t.lcd = s.lcd := by
  obtain ⟨queue, memory, hhooks, -⟩ := s.hooks_eq
  have hswitch := s.keyHook.wattsHook.opcodeSwitch_avoids s.keyHook.fetch
  have hlcd : s.keyHook.wattsHook.lcd = s.lcd := by rw [hhooks]
  rw [hlcd] at hswitch
  refine hswitch.andThen (fun _ h => h) fun t ht => ?_
  obtain ⟨buffer, hclean⟩ := t.ssuCleanup_eq
  change t.ssuCleanup.lcd = s.lcd
  rw [hclean]
  exact ht

end Walker

namespace Machine

theorem clockCycle_bounded {m : Machine} (h : m.lcd.Bounded) :
    m.clockCycle.Avoids .lcdAssertion fun t => t.lcd.Bounded := by
  unfold clockCycle
  dsimp only
  refine Outcome.Avoids.andThen (P := fun t => t.lcd.Bounded) ?_ (fun _ h => h) fun t ht => ?_
  · split
    · exact Outcome.avoids_map.mpr (Walker.ssuTick_bounded h)
    · exact h
  · split
    · have hbus := Walker.runSubClock_sameBus
        { t.toWalker with subClockCyclesEllapsed := t.subClockCyclesEllapsed + 1 }
      change (Walker.runSubClock _).lcd.Bounded
      rw [hbus.lcd]
      exact ht
    · exact ht

/-- No call ends in the assertion, and every one keeps the cursor in range. -/
theorem runNextInstruction_bounded {m : Machine} (h : m.lcd.Bounded) :
    m.runNextInstruction.Avoids .lcdAssertion fun t => t.lcd.Bounded := by
  have hfinish {m : Machine} (h : m.lcd.Bounded) :
      m.finishCall.Avoids .lcdAssertion fun t => t.lcd.Bounded := by
    have hbus := m.toWalker.interruptHandling_sameBus
    have hlcd : m.toWalker.interruptHandling.lcd.Bounded := by
      rw [hbus.lcd]
      exact h
    exact (clockCycle_bounded hlcd).andThen (fun _ h => h) fun _ h => clockCycle_bounded h
  unfold runNextInstruction
  split
  · exact hfinish h
  · split
    · rename_i hskip
      have hbus := Walker.skipHook_sameBus hskip
      change Lcd.Bounded _
      rw [hbus.lcd]
      exact h
    · refine Outcome.Avoids.andThen (P := fun t => t.lcd.Bounded) ?_ (fun _ h => h)
        fun _ h => hfinish h
      refine Outcome.avoids_map.mpr (m.toWalker.instructionPhase_avoids.mono fun t ht => ?_)
      change t.lcd.Bounded
      rw [ht]
      exact h

-- ---------------------------------------------------------------------------
-- Runs with a screen
-- ---------------------------------------------------------------------------

inductive ScreenStep : Machine → Option Event → Machine → Prop
  | step {m t : Machine} {e : Event} : Step m e t → ScreenStep m (some e) t
  | fillVideoBuffer (m : Machine) (videoBuffer : Nat → BitVec 32) :
      ScreenStep m none { m with lcd := (m.lcd.fillVideoBuffer videoBuffer).2 }

theorem ScreenStep.bounded {m t : Machine} (h : ScreenStep m e t) (hm : m.lcd.Bounded) :
    t.lcd.Bounded := by
  cases h with
  | step h =>
    cases h with
    | call h => exact (runNextInstruction_bounded hm).leaves h
    | setKeys input =>
      change (m.toWalker.setKeys input).lcd.Bounded
      rw [(m.toWalker.setKeys_sameBus input).lcd]
      exact hm
    | quarterRTCInterrupt =>
      change m.toWalker.quarterRTCInterrupt.lcd.Bounded
      rw [m.toWalker.quarterRTCInterrupt_sameBus.lcd]
      exact hm
  | fillVideoBuffer => exact ⟨hm.page, hm.byte⟩

theorem Loaded.bounded {m : Machine} (h : m.Loaded) : m.lcd.Bounded := by
  obtain ⟨s, rom, image, hm⟩ := h.images
  rw [hm]
  have hzero : (0 : Byte).toNat = 0 := rfl
  exact ⟨hzero ▸ (by decide : 0 < 16), hzero ▸ (by decide : 0 < 2)⟩

theorem runs_bounded {m₀ m : Machine} (h₀ : m₀.Loaded) (h : Runs ScreenStep m₀ es m) :
    m.lcd.Bounded :=
  h.invariant (I := fun m => m.lcd.Bounded) (fun _ _ _ hstep => hstep.bounded) h₀.bounded

theorem runs_of_calls {m t : Machine} (h : m.calls n = .ok t) :
    ∃ es, Runs ScreenStep m es t := by
  induction n generalizing m with
  | zero =>
    cases h
    exact ⟨[], .nil _⟩
  | succ n ih =>
    obtain ⟨u, hu, h⟩ := Outcome.andThen_eq_ok.mp h
    obtain ⟨es, hes⟩ := ih h
    exact ⟨_, .cons (.step (.call (Outcome.leaves_of_ok hu))) hes⟩

/-- In every run no data byte is stored outside the memory of the LCD, and no
pixel of either buffer is read from outside it. -/
theorem lcd_in_bounds {m₀ m : Machine} (h₀ : m₀.Loaded) (h : Runs ScreenStep m₀ es m) :
    m.lcd.memIndex < LCD_MEM_SIZE ∧ m.runNextInstruction ≠ .fault .lcdAssertion ∧
      ∀ (currentBuffer : Bool) (x y : Nat), x < LCD_WIDTH → y < LCD_HEIGHT →
        { m.lcd with currentBuffer := currentBuffer }.videoIndex x y + 1 < LCD_MEM_SIZE := by
  have hbounded := runs_bounded h₀ h
  exact ⟨hbounded.memIndex_lt, (runNextInstruction_bounded hbounded).ne_fault,
    fun _ _ _ hx hy => Lcd.videoIndex_lt _ hx hy⟩

/-- `fillVideoBuffer` right after booting. -/
theorem lcd_in_bounds_boot :
    ({ boot [] with lcd := ((boot []).lcd.fillVideoBuffer fun _ => 0).2 } : Machine).lcd.memIndex <
      LCD_MEM_SIZE :=
  (lcd_in_bounds (loaded_images _ _) (.single (.fillVideoBuffer (boot []) fun _ => 0))).1

end Machine

-- ---------------------------------------------------------------------------
-- Stripes
-- ---------------------------------------------------------------------------

def InStripe (page i : Nat) : Prop := page * 192 ≤ i ∧ i < (page + 1) * 192

theorem Lcd.Bounded.inStripe_iff {lcd : Lcd} (h : lcd.Bounded) :
    InStripe lcd.currentPage.toNat lcd.memIndex ↔ lcd.currentColumn.toNat < LCD_WIDTH := by
  have hbyte := h.byte
  simp only [InStripe, Lcd.memIndex, LCD_WIDTH, LCD_BYTES_PER_STRIPE]
  omega

namespace Walker

/-- This data byte changes nothing but, at most, one byte of the current page. -/
def Contained (s : Walker) (byte : Byte) : Prop :=
  ∃ t, s.sendLcd (.data byte) = .ok t ∧ ∃ i, InStripe s.lcd.currentPage.toNat i ∧
    ∀ j, j ≠ i → t.lcd.memory.get? j = s.lcd.memory.get? j

theorem Configured.sendLcd_data {s : Walker} (hc : s.Configured .lcd) (h : s.lcd.Bounded)
    (byte : Byte) :
    ∃ t, s.sendLcd (.data byte) = .ok t ∧
      s.lcd.memory.set? s.lcd.memIndex byte = some t.lcd.memory := by
  obtain ⟨lcd, hdata, -, hset⟩ := h.data byte
  have hreceive : s.lcd.receive (.data byte) = .ok lcd := hdata
  obtain ⟨t, ht, rfl, -⟩ := hc.sendLcd hreceive
  exact ⟨t, ht, hset⟩

theorem Configured.contained_iff {s : Walker} (hc : s.Configured .lcd) (h : s.lcd.Bounded) :
    (∀ byte, s.Contained byte) ↔ s.lcd.currentColumn.toNat < LCD_WIDTH := by
  rw [← h.inStripe_iff]
  constructor
  · intro hcontained
    -- a byte that differs from the one that is there
    let stored := s.lcd.memory ⟨s.lcd.memIndex, h.memIndex_lt⟩
    have hdiffers : ∀ b : Byte, ~~~b ≠ b := by decide
    obtain ⟨t, ht, i, hi, hother⟩ := hcontained (~~~stored)
    obtain ⟨t', ht', hset⟩ := hc.sendLcd_data h (~~~stored)
    cases ht.symm.trans ht'
    by_cases hplace : s.lcd.memIndex = i
    · rw [hplace]
      exact hi
    · have hkept := hother s.lcd.memIndex hplace
      rw [Bytes.get?_set?_self hset, s.lcd.memory.get?_of_lt h.memIndex_lt] at hkept
      exact absurd (Option.some.inj hkept) (hdiffers stored)
  · intro hin byte
    obtain ⟨t, ht, hset⟩ := hc.sendLcd_data h byte
    exact ⟨t, ht, s.lcd.memIndex, hin, fun j hj => Bytes.get?_set?_ne hset hj⟩

theorem Configured.sendLcdAll_bounded {s : Walker} (hc : s.Configured .lcd) (h : s.lcd.Bounded)
    (bytes : List LcdByte) :
    ∃ t, s.sendLcdAll bytes = .ok t ∧ t.Configured .lcd ∧ t.lcd.Bounded ∧
      s.lcd.receiveAll bytes = .ok t.lcd := by
  induction bytes generalizing s with
  | nil => exact ⟨s, rfl, hc, h, rfl⟩
  | cons byte bytes ih =>
    obtain ⟨lcd, hreceive, hbounded⟩ : ∃ lcd, s.lcd.receive byte = .ok lcd ∧ lcd.Bounded := by
      cases byte with
      | command byte => exact h.transfer false byte
      | data byte => exact h.transfer true byte
    obtain ⟨u, hu, rfl, hcu⟩ := hc.sendLcd hreceive
    obtain ⟨t, ht, hct, hbt, hrest⟩ := ih hcu hbounded
    refine ⟨t, ?_, hct, hbt, ?_⟩
    · rw [Walker.sendLcdAll, hu, Outcome.andThen_ok, ht]
    · rw [Lcd.receiveAll, hreceive, Outcome.andThen_ok, hrest]

end Walker

namespace Machine

/-- After any run and any bytes sent to the LCD, the next data byte stays in the
stripe of the current page exactly if the column is a visible one. -/
theorem stripe_iff {m₀ m : Machine} (h₀ : m₀.Loaded) (h : Runs ScreenStep m₀ es m)
    (hc : m.toWalker.Configured .lcd) (bytes : List LcdByte) :
    ∃ s, m.toWalker.sendLcdAll bytes = .ok s ∧
      ((∀ byte, s.Contained byte) ↔ s.lcd.currentColumn.toNat < LCD_WIDTH) := by
  obtain ⟨s, hs, hcs, hbounded, -⟩ := hc.sendLcdAll_bounded (runs_bounded h₀ h) bytes
  exact ⟨s, hs, hcs.contained_iff hbounded⟩

theorem lcdProgram_configured : ∃ m es, Runs ScreenStep (boot lcdProgram) es m ∧
    m.toWalker.Configured .lcd ∧ m.lcd.state = .empty := by
  have run : ((boot lcdProgram).calls 6).okWith (fun m =>
      decide (m.toWalker.Configured .lcd ∧ m.lcd.state = .empty)) = true := by
    decide +kernel
  obtain ⟨m, hm, h⟩ := Outcome.okWith_iff.mp run
  obtain ⟨es, hes⟩ := runs_of_calls hm
  exact ⟨m, es, hes, of_decide_eq_true h⟩

/-- At the first column of a page. -/
theorem stripe_iff_first : ∃ s : Walker, s.lcd.currentColumn.toNat = 0 ∧
    ∀ byte, s.Contained byte := by
  obtain ⟨m, es, hes, hc, hidle⟩ := lcdProgram_configured
  obtain ⟨s, hs, hcontained⟩ := stripe_iff (loaded_images _ _) hes hc (pageCommands false 0)
  obtain ⟨lcd, hlcd, hat, -⟩ := Lcd.receiveAll_pageCommands hidle false 0
  obtain ⟨t, ht, rfl⟩ := hc.sendLcdAll hlcd
  cases hs.symm.trans ht
  have hcolumn : s.lcd.currentColumn.toNat = 0 := hat.column
  exact ⟨s, hcolumn, hcontained.mpr (by rw [hcolumn]; decide)⟩

/-- The column commands take the cursor to column 96, in the stripe of the next
page. -/
theorem stripe_overrun : ¬ ∀ (m₀ m : Machine) (es : List (Option Event)), m₀.Loaded →
    Runs ScreenStep m₀ es m → m.toWalker.Configured .lcd → ∀ (bytes : List LcdByte) (s : Walker),
      m.toWalker.sendLcdAll bytes = .ok s → ∀ byte, s.Contained byte := by
  intro claim
  obtain ⟨m, es, hes, hc, hidle⟩ := lcdProgram_configured
  obtain ⟨s, hs, hcs, hbounded, hreceive⟩ := hc.sendLcdAll_bounded
    (runs_bounded (loaded_images _ _) hes) [.command 0x16, .command 0x00]
  have hcolumn : s.lcd.currentColumn = 0x60 := by
    have hset : ∀ column : Byte, (0x60 ||| column &&& 0xf) &&& 0xf0 = 0x60 := by decide
    have hcommands : m.lcd.receiveAll [.command 0x16, .command 0x00] =
        .ok ((m.lcd.command 0x16).command 0x00) := rfl
    have hlcd := Outcome.ok.inj (hcommands.symm.trans hreceive)
    rw [← hlcd]
    simpa [Lcd.command, hidle] using hset m.lcd.currentColumn
  have hvisible := (hcs.contained_iff hbounded).mp (claim _ _ _ (loaded_images _ _) hes hc _ s hs)
  rw [hcolumn] at hvisible
  exact absurd hvisible (by decide)

end Machine

end PokeStroller
