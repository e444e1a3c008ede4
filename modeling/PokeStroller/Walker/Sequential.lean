import PokeStroller.Walker.RoundTrip
import PokeStroller.Walker.Transmit

/-!
# Sequential access to the EEPROM

A transaction of any length. The offset of a READ is 16 bits wide and that of a
WRITE stays in a page, but neither sum with the address is reduced, so a
transaction runs into the end of the EEPROM instead of around it.
-/

namespace PokeStroller

-- ---------------------------------------------------------------------------
-- Transactions
-- ---------------------------------------------------------------------------

namespace Walker

def exchange : List Byte → List Byte × Walker → Outcome Fault (List Byte × Walker)
  | [], result => .ok result
  | byte :: bytes, (replies, s) =>
    ((s.send byte).map fun t => (replies ++ [t.memory SSRDR], t)).andThen (exchange bytes)

def transact (mode : Mode) (a : BitVec 16) (bytes : List Byte) (s : Walker) :
    Outcome Fault (List Byte × Walker) :=
  exchange ([Eeprom.dataCommand mode, addressHi a, addressLo a] ++ bytes) ([], s)

/-- The EEPROM is the device on the bus, in this mode. -/
structure Serving (mode : Mode) (s : Walker) : Prop where
  configured : s.Configured .eeprom
  marks : s.MarksTaken .eeprom
  inMode : s.ssuMode = mode

theorem SsuFrame.serving {s t : Walker} (h : SsuFrame s t) (hs : Serving mode s) :
    Serving mode t := by
  have hser : t.memory SSER = s.memory SSER := h.memory _ (by decide) (by decide)
  have hport : t.memory PORT1 = s.memory PORT1 := h.memory _ (by decide) (by decide)
  refine ⟨h.configured hs.configured, ⟨nofun, fun hd hRE => ?_⟩, ?_⟩
  · rw [hser] at hRE
    have hpin : t.lcdDataPin = s.lcdDataPin := by simp only [lcdDataPin, hport]
    exact hpin.trans (hs.marks.dataPin hd hRE)
  · rw [← hs.inMode]
    simp only [ssuMode, hser]

theorem Serving.fill {s : Walker} (hs : Serving mode s) (byte : Byte) :
    Serving mode (s.fill byte) :=
  ⟨hs.configured.fill, hs.marks.fill, (s.fill_ssuMode byte).trans hs.inMode⟩

theorem Serving.send_ok {s : Walker} (hs : Serving mode s) {e : Eeprom}
    (h : s.eeprom.transfer mode byte = .ok e) :
    ∃ t, s.send byte = .ok t ∧ t.eeprom = e ∧ Serving mode t ∧
      (mode = .transmitReceive → s.eeprom.buffer.state = .gettingBytes →
        s.eeprom.memory.get? s.eeprom.buffer.index = some (t.memory SSRDR)) := by
  have hdevices := hs.configured.send_devices hs.marks byte
  have htransfer : s.devices.eeprom.transfer mode byte = .ok e := h
  rw [hs.inMode, Devices.step, htransfer] at hdevices
  obtain ⟨t, ht, hdev⟩ := Outcome.map_eq_ok.mp hdevices
  obtain ⟨-, hframe⟩ := hs.configured.send_frame hs.marks ht
  refine ⟨t, ht, congrArg Devices.eeprom hdev, hframe.serving (hs.fill byte), fun hmode hstate => ?_⟩
  exact hs.configured.send_reply hs.marks (hs.inMode.trans hmode) hstate ht

theorem Serving.send_fault {s : Walker} (hs : Serving mode s)
    (h : s.eeprom.transfer mode byte = .fault f) : s.send byte = .fault f := by
  have hdevices := hs.configured.send_devices hs.marks byte
  have htransfer : s.devices.eeprom.transfer mode byte = .fault f := h
  rw [hs.inMode, Devices.step, htransfer, Outcome.map_fault] at hdevices
  cases hsend : s.send byte with
  | fault g =>
    rw [hsend] at hdevices
    cases hdevices
    rfl
  | _ =>
    rw [hsend] at hdevices
    cases hdevices

end Walker

-- ---------------------------------------------------------------------------
-- Data bytes
-- ---------------------------------------------------------------------------

namespace Eeprom

def period : Mode → Nat
  | .transmit => EEPROM_PAGE_SIZE
  | .transmitReceive => 65536

theorem At.next {e e' : Eeprom} {m : Bytes WALKER_EEPROM_SIZE} {n : BitVec 16}
    (hat : e.At a (k % period mode))
    (he : e' = { e with memory := m, buffer := { e.buffer with offset := n } })
    (hn : n.toNat = (e.buffer.offset.toNat + 1) % period mode) :
    e'.At a ((k + 1) % period mode) := by
  subst he
  refine ⟨hat.state, hat.address, ?_⟩
  change n.toNat = (k + 1) % period mode
  rw [hn, hat.offset, Nat.mod_add_mod]

/-- A data byte is taken if it is inside the EEPROM, and is a fault otherwise. -/
theorem At.step {e : Eeprom} (hat : e.At a (k % period mode)) (byte : Byte) :
    (a.toNat + k % period mode < 65536 ∧
      ∃ e', e.transfer mode byte = .ok e' ∧ e'.At a ((k + 1) % period mode) ∧
        (mode = .transmitReceive → e'.memory = e.memory)) ∨
    (65536 ≤ a.toNat + k % period mode ∧ e.transfer mode byte = .fault .eepromIndex) := by
  have hindex := hat.index
  rw [← hindex]
  by_cases hin : e.buffer.index < 65536
  · refine .inl ⟨hin, ?_⟩
    cases mode with
    | transmit =>
      have htransfer := transfer_data_write hat.state byte
      rw [e.memory.set?_of_lt hin] at htransfer
      refine ⟨_, htransfer, hat.next rfl ?_, nofun⟩
      simp only [BitVec.toNat_ofNat, period, EEPROM_PAGE_SIZE]
      omega
    | transmitReceive =>
      have htransfer := transfer_data_read hat.state byte
      rw [e.memory.get?_of_lt hin] at htransfer
      exact ⟨_, htransfer, hat.next rfl (BitVec.toNat_add _ _), fun _ => rfl⟩
  · have hout := Nat.not_lt.mp hin
    refine .inr ⟨hout, ?_⟩
    cases mode with
    | transmit =>
      rw [transfer_data_write hat.state, e.memory.set?_of_le hout, Outcome.ofOption_none,
        Outcome.map_fault]
    | transmitReceive =>
      rw [transfer_data_read hat.state, e.memory.get?_of_le hout, Outcome.ofOption_none,
        Outcome.map_fault]

theorem transfer_header {e : Eeprom} (hc : e.Clean) (mode : Mode) (a : BitVec 16) :
    ∃ e₁ e₂ e₃, e.transfer mode (dataCommand mode) = .ok e₁ ∧
      e₁.transfer mode (addressHi a) = .ok e₂ ∧ e₂.transfer mode (addressLo a) = .ok e₃ ∧
      e₃.At a (0 % period mode) ∧ e₃.memory = e.memory := by
  have hcommand := transfer_dataCommand hc mode
  obtain ⟨hat, hmemory⟩ := transfer_address hc hcommand rfl rfl
  exact ⟨_, _, _, hcommand, rfl, rfl, (Nat.zero_mod _).symm ▸ hat, hmemory⟩

end Eeprom

namespace Walker

theorem exchange_cons_ok {s t : Walker} (h : s.send byte = .ok t) :
    exchange (byte :: bytes) (replies, s) = exchange bytes (replies ++ [t.memory SSRDR], t) := by
  simp only [exchange, h, Outcome.map_ok, Outcome.andThen_ok]

theorem exchange_cons_fault {s : Walker} (h : s.send byte = .fault f) :
    exchange (byte :: bytes) (replies, s) = .fault f := by
  simp only [exchange, h, Outcome.map_fault, Outcome.andThen_fault]

/-- Data bytes, from some place in a transaction: all are inside the EEPROM
and taken, or one is not and the exchange ends in the fault. -/
theorem exchange_data {s : Walker} (hs : Serving mode s)
    (hat : s.eeprom.At a (k % Eeprom.period mode)) (bytes replies : List Byte) :
    ((∀ i < bytes.length, a.toNat + (k + i) % Eeprom.period mode < 65536) ∧
      ∃ more t, exchange bytes (replies, s) = .ok (replies ++ more, t) ∧
        (mode = .transmitReceive → ∀ i < bytes.length,
          more[i]? = s.eeprom.memory.get? (a.toNat + (k + i) % 65536))) ∨
    ((∃ i < bytes.length, 65536 ≤ a.toNat + (k + i) % Eeprom.period mode) ∧
      exchange bytes (replies, s) = .fault .eepromIndex) := by
  induction bytes generalizing s k replies with
  | nil => exact .inl ⟨by simp, [], s, by simp [exchange], by simp⟩
  | cons byte bytes ih =>
    rcases hat.step byte with ⟨hin, e, htransfer, hnext, hkept⟩ | ⟨hout, hfault⟩
    · obtain ⟨t, hsend, rfl, hserving, hreply⟩ := hs.send_ok htransfer
      rw [exchange_cons_ok hsend]
      rcases ih hserving hnext (replies ++ [t.memory SSRDR]) with
        ⟨hins, more, u, hrest, hmore⟩ | ⟨⟨i, hi, hout⟩, hfault⟩
      · refine .inl ⟨fun i hi => ?_, t.memory SSRDR :: more, u, ?_, fun hmode i hi => ?_⟩
        · cases i with
          | zero => exact hin
          | succ i =>
            have hshift := hins i (Nat.lt_of_succ_lt_succ hi)
            rwa [Nat.add_right_comm] at hshift
        · rw [hrest, List.append_assoc]
          rfl
        · cases i with
          | zero =>
            have hfirst := hreply hmode hat.state
            rw [hat.index, hmode] at hfirst
            exact hfirst.symm
          | succ i =>
            have hshift := hmore hmode i (Nat.lt_of_succ_lt_succ hi)
            rw [hkept hmode, Nat.add_right_comm] at hshift
            exact hshift
      · refine .inr ⟨⟨i + 1, Nat.succ_lt_succ hi, ?_⟩, hfault⟩
        rwa [Nat.add_right_comm] at hout
    · exact .inr ⟨⟨0, Nat.zero_lt_succ _, hout⟩, exchange_cons_fault (hs.send_fault hfault)⟩

/-- A transaction from deselection: the sums of the address and the offsets
decide how it ends. -/
theorem transact_cases {s : Walker} (hs : Serving mode s) (hc : s.eeprom.Clean) (a : BitVec 16)
    (bytes : List Byte) :
    ((∀ i < bytes.length, a.toNat + i % Eeprom.period mode < 65536) ∧
      ∃ replies t, s.transact mode a bytes = .ok (replies, t) ∧
        (mode = .transmitReceive → ∀ i < bytes.length,
          replies[3 + i]? = s.eeprom.memory.get? (a.toNat + i % 65536))) ∨
    ((∃ i < bytes.length, 65536 ≤ a.toNat + i % Eeprom.period mode) ∧
      s.transact mode a bytes = .fault .eepromIndex) := by
  obtain ⟨e₁, e₂, e₃, hcommand, hhi, hlo, hat, hmemory⟩ := Eeprom.transfer_header hc mode a
  obtain ⟨t₁, hsend₁, rfl, hs₁, -⟩ := hs.send_ok hcommand
  obtain ⟨t₂, hsend₂, rfl, hs₂, -⟩ := hs₁.send_ok hhi
  obtain ⟨t₃, hsend₃, rfl, hs₃, -⟩ := hs₂.send_ok hlo
  have htransact : s.transact mode a bytes =
      exchange bytes ([t₁.memory SSRDR, t₂.memory SSRDR, t₃.memory SSRDR], t₃) :=
    (exchange_cons_ok hsend₁).trans ((exchange_cons_ok hsend₂).trans (exchange_cons_ok hsend₃))
  rw [htransact]
  have hdata := exchange_data hs₃ hat bytes [t₁.memory SSRDR, t₂.memory SSRDR, t₃.memory SSRDR]
  simp only [Nat.zero_add, hmemory] at hdata
  rcases hdata with ⟨hin, more, u, hok, hmore⟩ | hfault
  · refine .inl ⟨hin, _, u, hok, fun hmode i hi => ?_⟩
    rw [← hmore hmode i hi, Nat.add_comm]
    rfl
  · exact .inr hfault

-- ---------------------------------------------------------------------------
-- Where the sums stay inside the EEPROM
-- ---------------------------------------------------------------------------

/-- A WRITE takes at most the 128 bytes from its address, and a READ 65536. -/
def Inside (mode : Mode) (a : BitVec 16) (n : Nat) : Prop :=
  a.toNat + min n (Eeprom.period mode) ≤ 65536

instance : Decidable (Inside mode a n) := inferInstanceAs (Decidable (_ ≤ _))

theorem inside_iff : Inside mode a n ↔ ∀ i < n, a.toNat + i % Eeprom.period mode < 65536 := by
  have hperiod : 0 < Eeprom.period mode := by cases mode <;> decide
  constructor
  · intro h i hi
    have hmod := Nat.mod_lt i hperiod
    have hle := Nat.mod_le i (Eeprom.period mode)
    unfold Inside at h
    omega
  · intro h
    have ha := a.isLt
    unfold Inside
    by_cases hn : n = 0
    · omega
    · have hlast := h (min n (Eeprom.period mode) - 1) (by omega)
      rw [Nat.mod_eq_of_lt (by omega)] at hlast
      omega

/-- From deselection, a transaction of any length stays inside the EEPROM, and
a READ delivers its bytes, exactly if the addresses do not pass 0xFFFF. -/
theorem sequential_iff {s : Walker} (hs : Serving mode s) (hc : s.eeprom.Clean) (a : BitVec 16)
    (bytes : List Byte) :
    (∃ replies t, s.transact mode a bytes = .ok (replies, t) ∧
      (mode = .transmitReceive → ∀ i < bytes.length,
        replies[3 + i]? = s.eeprom.memory.get? ((a.toNat + i) % 65536))) ↔
    Inside mode a bytes.length := by
  rw [inside_iff]
  rcases transact_cases hs hc a bytes with ⟨hin, replies, t, hok, hreplies⟩ | ⟨⟨i, hi, hout⟩, hfault⟩
  · refine iff_of_true ⟨replies, t, hok, fun hmode i hi => ?_⟩ hin
    have hlt : a.toNat + i % 65536 < 65536 := by
      subst hmode
      exact hin i hi
    have hindex : (a.toNat + i) % 65536 = a.toNat + i % 65536 := by
      rw [← Nat.add_mod_mod, Nat.mod_eq_of_lt hlt]
    rw [hreplies hmode i hi, hindex]
  · refine iff_of_false ?_ fun hin => absurd (hin i hi) (Nat.not_lt.mpr hout)
    rintro ⟨replies, t, hok, -⟩
    rw [hfault] at hok
    cases hok

def serving (mode : Mode) : Walker := { memory := fun a =>
  if a = PORT1 then LCD_PIN else if a = PORT9 then ACCEL_PIN
  else if a = SSER then (if mode = .transmit then TE else TE ||| RE) else 0 }

theorem serving_serving (mode : Mode) : Serving mode (serving mode) := by
  cases mode <;> exact ⟨by decide, ⟨by decide, by decide⟩, by decide⟩

/-- A READ of the last two bytes. -/
theorem sequential_last :
    ∃ replies t, (serving .transmitReceive).transact .transmitReceive 0xfffe [0xff, 0xff] =
        .ok (replies, t) ∧ replies[4]? = (serving .transmitReceive).eeprom.memory.get? 0xffff := by
  obtain ⟨replies, t, hok, hreplies⟩ := (sequential_iff (serving_serving .transmitReceive)
    ⟨rfl, rfl⟩ 0xfffe [0xff, 0xff]).mpr (by decide)
  exact ⟨replies, t, hok, hreplies rfl 1 (by decide)⟩

/-- The second byte of a transaction at 0xFFFF is past the end. -/
theorem sequential_past_end :
    (serving .transmitReceive).transact .transmitReceive 0xffff [0xff, 0xff] =
        .fault .eepromIndex ∧
      (serving .transmit).transact .transmit 0xffff [0x12, 0x34] = .fault .eepromIndex := by
  have hfault (mode : Mode) (x y : Byte) :
      (serving mode).transact mode 0xffff [x, y] = .fault .eepromIndex := by
    rcases transact_cases (serving_serving mode) ⟨rfl, rfl⟩ 0xffff [x, y] with
      ⟨hin, -⟩ | ⟨-, hfault⟩
    · have hsecond : 0xffff + 1 % Eeprom.period mode < 65536 := hin 1 (Nat.lt_succ_self 1)
      cases mode <;> exact absurd hsecond (by decide)
    · exact hfault
  exact ⟨hfault .transmitReceive 0xff 0xff, hfault .transmit 0x12 0x34⟩

end Walker

end PokeStroller
