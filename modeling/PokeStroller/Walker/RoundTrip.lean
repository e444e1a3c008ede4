import PokeStroller.Walker.Bus

/-!
# The EEPROM round trip

What a WRITE transaction stores, a READ transaction returns. A transaction is
a run of real calls, cut into the segments of the bus.
-/

namespace PokeStroller

-- ---------------------------------------------------------------------------
-- Transactions of the EEPROM
-- ---------------------------------------------------------------------------

def addressHi (a : BitVec 16) : Byte := a.extractLsb' 8 8
def addressLo (a : BitVec 16) : Byte := a.extractLsb' 0 8

/-- WREN, and in a transaction of its own WRITE with the data. -/
def writeTransaction (a : BitVec 16) (bytes : List Byte) : List Segment :=
  [.configure .transmit, .send 0x06, .configure .transmit, .send 0x02, .send (addressHi a),
    .send (addressLo a)] ++ bytes.map .send

/-- READ up to the address; the data bytes follow. -/
def readHeader (a : BitVec 16) : List Segment :=
  [.configure .transmitReceive, .send 0x03, .send (addressHi a), .send (addressLo a)]

namespace Eeprom

/-- The EEPROM is at a data byte, this far into the page that begins at `a`. -/
structure At (a : BitVec 16) (offset : Nat) (e : Eeprom) : Prop where
  state : e.buffer.state = .gettingBytes
  address : e.buffer.hiAddress ++ e.buffer.loAddress = a
  offset : e.buffer.offset.toNat = offset

theorem At.index (h : At a j e) : e.buffer.index = a.toNat + j := by
  rw [EepromBuffer.index, h.address, h.offset]

theorem transfer_wren (hc : e.Clean) (h : transfer e .transmit 0x06 = .ok e') :
    e'.memory = e.memory := by
  unfold transfer at h
  simp only [hc.1] at h
  cases h
  rfl

def dataCommand : Mode → Byte
  | .transmit => 0x02
  | .transmitReceive => 0x03

theorem transfer_dataCommand {e : Eeprom} (hc : e.Clean) (mode : Mode) :
    e.transfer mode (dataCommand mode) =
      .ok { e with buffer := { e.buffer with state := .gettingAddressHi } } := by
  unfold transfer
  simp only [hc.1]
  cases mode <;> rfl

theorem transfer_data_write {e : Eeprom} (h : e.buffer.state = .gettingBytes) (byte : Byte) :
    e.transfer .transmit byte =
      (Outcome.ofOption .eepromIndex (e.memory.set? e.buffer.index byte)).map fun memory =>
        let offset := BitVec.ofNat 16 ((e.buffer.offset.toNat + 1) % EEPROM_PAGE_SIZE)
        { e with memory := memory, buffer := { e.buffer with offset := offset } } := by
  unfold transfer
  simp only [h]

theorem transfer_data_read {e : Eeprom} (h : e.buffer.state = .gettingBytes) (byte : Byte) :
    e.transfer .transmitReceive byte =
      (Outcome.ofOption .eepromIndex (e.memory.get? e.buffer.index)).map fun _ =>
        { e with buffer := { e.buffer with offset := e.buffer.offset + 1 } } := by
  unfold transfer
  simp only [h]

theorem addressHi_append_addressLo (a : BitVec 16) : addressHi a ++ addressLo a = a := by
  apply BitVec.eq_of_getLsbD_eq
  intro i hi
  simp only [addressHi, addressLo, BitVec.getLsbD_append, BitVec.getLsbD_extractLsb']
  grind

theorem transfer_address (hc : e.Clean) (h₁ : transfer e mode (dataCommand mode) = .ok e₁)
    (h₂ : e₁.transfer mode (addressHi a) = .ok e₂) (h₃ : e₂.transfer mode (addressLo a) = .ok e₃) :
    e₃.At a 0 ∧ e₃.memory = e.memory := by
  rw [transfer_dataCommand hc] at h₁
  cases h₁
  unfold transfer at h₂
  cases h₂
  unfold transfer at h₃
  cases h₃
  exact ⟨⟨rfl, addressHi_append_addressLo a, congrArg BitVec.toNat hc.2⟩, rfl⟩

/-- A data byte in a WRITE. The offset wraps at the end of a page. -/
theorem At.transfer_write (hat : At a (k % 128) e) (hk : k < 128)
    (h : e.transfer .transmit byte = .ok e') :
    e.memory.set? (a.toNat + k) byte = some e'.memory ∧ e'.At a ((k + 1) % 128) := by
  rw [transfer_data_write hat.state] at h
  obtain ⟨memory, hmemory, rfl⟩ := Outcome.map_eq_ok.mp h
  rw [Outcome.ofOption_eq_ok, hat.index, Nat.mod_eq_of_lt hk] at hmemory
  refine ⟨hmemory, hat.state, hat.address, ?_⟩
  simp only [BitVec.toNat_ofNat, hat.offset, EEPROM_PAGE_SIZE]
  omega

theorem At.transfer_read (hat : At a j e) (hj : j + 1 < 65536)
    (h : e.transfer .transmitReceive byte = .ok e') :
    e'.memory = e.memory ∧ e'.At a (j + 1) := by
  rw [transfer_data_read hat.state] at h
  obtain ⟨value, -, rfl⟩ := Outcome.map_eq_ok.mp h
  refine ⟨rfl, hat.state, hat.address, ?_⟩
  rw [← hat.offset] at hj ⊢
  simp only [BitVec.toNat_add]
  exact Nat.mod_eq_of_lt hj

end Eeprom

-- ---------------------------------------------------------------------------
-- Performing them
-- ---------------------------------------------------------------------------

namespace Machine

theorem performs_cons {m n : Machine} {segment : Segment} {segments : List Segment}
    (h : Runs Performs m ws n) (hws : ws.map Prod.fst = segment :: segments) :
    ∃ reply ws' t, ws = (segment, reply) :: ws' ∧ m.Performs (segment, reply) t ∧
      Runs Performs t ws' n ∧ ws'.map Prod.fst = segments := by
  obtain ⟨⟨_, reply⟩, ws', rfl, rfl, hws'⟩ := List.map_eq_cons_iff.mp hws
  cases h with
  | cons hfirst hrest => exact ⟨reply, ws', _, rfl, hfirst, hrest, hws'⟩

/-- A transaction from its configuration to the address, in either mode. -/
theorem performs_address (mode : Mode) {m n : Machine} (h : Runs Performs m ws n)
    (hws : ws.map Prod.fst = [.configure mode, .send (Eeprom.dataCommand mode),
      .send (addressHi a), .send (addressLo a)] ++ segments) (htdre : m.tdre = true) :
    ∃ us ws' t, ws = us ++ ws' ∧ us.length = 4 ∧ Runs Performs t ws' n ∧
      ws'.map Prod.fst = segments ∧ t.tdre = true ∧ Wired mode t.toWalker ∧
      t.eeprom.At a 0 ∧ t.eeprom.memory = m.eeprom.memory ∧ m.toWalker.Aside t.toWalker := by
  obtain ⟨_, _, _, rfl, ⟨hconf, -⟩, h, hws⟩ := performs_cons h hws
  obtain ⟨hkeeps, hclean, hw⟩ := hconf.keeps htdre
  obtain ⟨_, _, _, rfl, ⟨hcommand, -⟩, h, hws⟩ := performs_cons h hws
  have t₁ := hcommand.transfers hkeeps.tdre hw
  obtain ⟨_, _, _, rfl, ⟨hhi, -⟩, h, hws⟩ := performs_cons h hws
  have t₂ := hhi.transfers t₁.tdre t₁.wired
  obtain ⟨_, _, _, rfl, ⟨hlo, -⟩, h, hws⟩ := performs_cons h hws
  have t₃ := hlo.transfers t₂.tdre t₂.wired
  obtain ⟨hat, hmemory⟩ := Eeprom.transfer_address hclean t₁.eeprom t₂.eeprom t₃.eeprom
  refine ⟨[_, _, _, _], _, _, rfl, rfl, h, hws, t₃.tdre, t₃.wired, hat,
    hmemory.trans hkeeps.memory, ?_⟩
  exact ((hkeeps.aside.trans t₁.aside).trans t₂.aside).trans t₃.aside

theorem performs_write {m n : Machine} {bytes : List Byte} (h : Runs Performs m ws n)
    (hws : ws.map Prod.fst = bytes.map .send) (hk : k + bytes.length ≤ 128)
    (hat : m.eeprom.At a (k % 128)) (htdre : m.tdre = true)
    (hw : Wired .transmit m.toWalker) :
    n.tdre = true ∧ m.eeprom.memory.setAll? (a.toNat + k) bytes = some n.eeprom.memory ∧
      m.toWalker.Aside n.toWalker := by
  induction bytes generalizing m ws k with
  | nil =>
    obtain rfl := List.map_eq_nil_iff.mp hws
    cases h
    exact ⟨htdre, rfl, .refl _⟩
  | cons byte bytes ih =>
    obtain ⟨_, ws', t, rfl, ⟨hsend, -⟩, hrest, hws'⟩ := performs_cons h hws
    simp only [List.length_cons] at hk
    have ht := hsend.transfers htdre hw
    obtain ⟨hset, hat'⟩ := hat.transfer_write (by omega) ht.eeprom
    obtain ⟨htdre', hall, haside⟩ := ih hrest hws' (by omega) hat' ht.tdre ht.wired
    refine ⟨htdre', ?_, ht.aside.trans haside⟩
    rw [Bytes.setAll?, hset, Option.bind_some]
    exact hall

theorem performs_read {m n : Machine} {dummies : List Byte} (h : Runs Performs m vs n)
    (hvs : vs.map Prod.fst = dummies.map .send) (hj : j + dummies.length ≤ 128)
    (hat : m.eeprom.At a j) (htdre : m.tdre = true)
    (hw : Wired .transmitReceive m.toWalker) :
    m.eeprom.memory.getAll? (a.toNat + j) dummies.length = some (vs.map Prod.snd) ∧
      n.eeprom.memory = m.eeprom.memory ∧ m.toWalker.Aside n.toWalker := by
  induction dummies generalizing m vs j with
  | nil =>
    obtain rfl := List.map_eq_nil_iff.mp hvs
    cases h
    exact ⟨rfl, rfl, .refl _⟩
  | cons dummy dummies ih =>
    obtain ⟨reply, vs', t, rfl, ⟨hsend, hreply⟩, hrest, hvs'⟩ := performs_cons h hvs
    simp only [List.length_cons] at hj
    have ht := hsend.transfers htdre hw
    have hget := ht.reply rfl hat.state
    rw [hat.index, hreply] at hget
    obtain ⟨hmemory, hat'⟩ := hat.transfer_read (by omega) ht.eeprom
    obtain ⟨hall, hkept, haside⟩ := ih hrest hvs' (by omega) hat' ht.tdre ht.wired
    rw [hmemory] at hall hkept
    refine ⟨?_, hkept, ht.aside.trans haside⟩
    rw [List.length_cons, Bytes.getAll?, hget, Option.bind_some, Nat.add_assoc, hall]
    rfl

theorem performs_writeTransaction {m n : Machine} {bytes : List Byte}
    (h : Runs Performs m ws n) (hws : ws.map Prod.fst = writeTransaction a bytes)
    (hpage : bytes.length ≤ 128) (htdre : m.tdre = true) :
    n.tdre = true ∧ m.eeprom.memory.setAll? a.toNat bytes = some n.eeprom.memory ∧
      m.toWalker.Aside n.toWalker := by
  obtain ⟨_, _, _, rfl, ⟨hconf, -⟩, h, hws⟩ := performs_cons h hws
  obtain ⟨hkeeps, hclean, hw⟩ := hconf.keeps htdre
  obtain ⟨_, _, t, rfl, ⟨hwren, -⟩, h, hws⟩ := performs_cons h hws
  have hwren := hwren.transfers hkeeps.tdre hw
  have hfirst : t.eeprom.memory = m.eeprom.memory :=
    (Eeprom.transfer_wren hclean hwren.eeprom).trans hkeeps.memory
  obtain ⟨_, _, _, rfl, -, h, hws, htdre, hw, hat, hmemory, haside⟩ :=
    performs_address .transmit h hws hwren.tdre
  obtain ⟨htdre, hset, hwritten⟩ :=
    performs_write h hws (k := 0) (by omega) hat htdre hw
  refine ⟨htdre, ?_, ((hkeeps.aside.trans hwren.aside).trans haside).trans hwritten⟩
  rw [← hfirst, ← hmemory]
  exact hset

/-- What a WRITE transaction puts into the EEPROM a READ transaction at the
same address returns in SSRDR, whatever the dummy bytes. Outside of it the
EEPROM is unchanged, and the other devices keep their memories. -/
theorem eeprom_round_trip {m n p : Machine} (a : BitVec 16) (bytes dummies : List Byte)
    (hpage : bytes.length ≤ 128) (hready : m.tdre = true)
    (hwrite : Runs Performs m ws n) (hws : ws.map Prod.fst = writeTransaction a bytes)
    (hread : Runs Performs n (rs ++ vs) p) (hrs : rs.map Prod.fst = readHeader a)
    (hvs : vs.map Prod.fst = dummies.map .send) (hdummies : dummies.length = bytes.length) :
    vs.map Prod.snd = bytes ∧
      (∀ i, i < a.toNat ∨ a.toNat + bytes.length ≤ i →
        n.eeprom.memory.get? i = m.eeprom.memory.get? i ∧
        p.eeprom.memory.get? i = m.eeprom.memory.get? i) ∧
      (n.lcd.memory = m.lcd.memory ∧ p.lcd.memory = m.lcd.memory) ∧
      (n.accel.memory = m.accel.memory ∧ p.accel.memory = m.accel.memory) := by
  obtain ⟨htdre, hset, hwritten⟩ := performs_writeTransaction hwrite hws hpage hready
  have hall : (rs ++ vs).map Prod.fst = readHeader a ++ dummies.map .send := by
    rw [List.map_append, hrs, hvs]
  obtain ⟨us, vs', t, hsplit, hlength, h, hvs', htdre, hw, hat, hmemory, haside⟩ :=
    performs_address .transmitReceive hread hall htdre
  obtain ⟨rfl, rfl⟩ : rs = us ∧ vs = vs' := by
    refine List.append_inj hsplit ?_
    rw [hlength, ← List.length_map Prod.fst, hrs]
    rfl
  obtain ⟨hget, hkept, haside'⟩ :=
    performs_read h hvs (j := 0) (by omega) hat htdre hw
  have hreading := haside.trans haside'
  rw [hmemory] at hget hkept
  refine ⟨?_, fun i hi => ?_, ⟨?_, ?_⟩, hwritten.accel, hreading.accel.trans hwritten.accel⟩
  · rw [hdummies, Nat.add_zero, Bytes.getAll?_setAll? hset] at hget
    exact (Option.some.inj hget).symm
  · rw [hkept]
    exact ⟨Bytes.get?_setAll?_outside hset hi, Bytes.get?_setAll?_outside hset hi⟩
  · rw [hwritten.lcd]
  · rw [hreading.lcd, hwritten.lcd]

end Machine

-- ---------------------------------------------------------------------------
-- Running transactions
-- ---------------------------------------------------------------------------

def BusView.written (before after : BusView) : Option BusWrite :=
  [.quiet, .port1 after.port1, .port9 after.port9, .sser after.sser, .store after.sstdr].find?
    fun e => e.apply before = after

theorem BusView.apply_of_written {before after : BusView} (h : before.written after = some e) :
    after = e.apply before := by
  have heffect := List.find?_some h
  exact (of_decide_eq_true heffect).symm

def BusWrite.isStore : BusWrite → Bool
  | .store _ => true
  | _ => false

namespace Machine

def busCall (m : Machine) : Option (BusWrite × Walker × Machine) :=
  if m.sleep ∨ m.toWalker.skipHook.isSome then none
  else match m.toWalker.instructionPhase with
    | .ok s => match (m.dispatched s).clockHandling with
      | .ok t => (m.busView.written s.busView).map fun e => (e, s, t)
      | _ => none
    | _ => none

def busCalls : Nat → Machine → Option (List BusWrite × Machine)
  | 0, m => some ([], m)
  | k + 1, m => m.busCall.bind fun (e, _, t) => (busCalls k t).map fun (es, n) => (e :: es, n)

instance (mode : Mode) (s : Walker) : Decidable (Wired mode s) :=
  decidable_of_iff (s.Configured .eeprom ∧ (s.memory SSER).has RE = (mode == .transmitReceive) ∧
      s.lcdDataPin = false)
    ⟨fun ⟨h₁, h₂, h₃⟩ => ⟨h₁, h₂, h₃⟩, fun h => ⟨h.configured, h.receive, h.dataPin⟩⟩

end Machine

/-- Instructions that perform a segment: the stores to PORT9, PORT1 and SSER
of a configuration, or the store of a byte and the wait for it. -/
def Segment.code : Segment → List Byte
  | .configure mode =>
    [0xf8, 0x01, 0x6a, 0x88, 0xff, 0xdc, 0xf8, 0x05, 0x6a, 0x88, 0xff, 0xd4,
     0xf8, 0x01, 0x6a, 0x88, 0xff, 0xd4,
     0xf8, if mode = .transmit then 0x80 else 0xc0, 0x6a, 0x88, 0xf0, 0xe3]
  | .send byte => [0xf8, byte, 0x6a, 0x88, 0xf0, 0xeb] ++ List.replicate 24 0

namespace Machine

def performing (m : Machine) : Segment → Option Machine
  | .configure mode =>
    (busCalls 3 m).bind fun (es, m₁) => m₁.busCall.bind fun (e, s, m₂) =>
    (busCalls 4 m₂).bind fun (es', n) =>
    if s.eepromSelected = false ∧ (∀ e' ∈ es ++ e :: es', e'.isStore = false) ∧
        Wired mode n.toWalker then some n else none
  | .send byte =>
    (busCalls 1 m).bind fun (es, m₁) => m₁.busCall.bind fun (e, _, m₂) =>
    (busCalls 12 m₂).bind fun (es', n) =>
    if (∀ e' ∈ es ++ es', e' = .quiet) ∧ e = .store byte ∧ n.tdre = true then some n else none

def performingAll : List Segment → Machine → Option (List (Segment × Byte) × Machine)
  | [], m => some ([], m)
  | segment :: segments, m =>
    (m.performing segment).bind fun t =>
    (performingAll segments t).map fun (ws, n) => ((segment, t.memory SSRDR) :: ws, n)

theorem busCall_eq {m t : Machine} (h : m.busCall = some (e, s, t)) :
    m.sleep = false ∧ m.Dispatches s ∧ m.runNextInstruction = .ok t ∧
      s.busView = e.apply m.busView := by
  unfold busCall at h
  split at h
  · cases h
  rename_i hn
  split at h
  case h_2 => cases h
  rename_i hi
  split at h
  case h_2 => cases h
  rename_i hclocks
  obtain ⟨e, hwritten, heq⟩ := Option.map_eq_some_iff.mp h
  cases heq
  obtain ⟨hawake, hd⟩ := Dispatches.of_guard hn hi
  exact ⟨hawake, hd, hd.run_clocks.trans hclocks, BusView.apply_of_written hwritten⟩

theorem busCall_step {m t : Machine} (h : m.busCall = some (e, s, t)) : BusStep m e t := by
  obtain ⟨-, hd, hrun, hview⟩ := busCall_eq h
  exact .call hd hrun hview

theorem busCalls_runs {m n : Machine} (h : busCalls k m = some (es, n)) : Runs BusStep m es n := by
  induction k generalizing m es with
  | zero => cases h; exact .nil _
  | succ k ih =>
    obtain ⟨⟨e, s, t⟩, hcall, h⟩ := Option.bind_eq_some_iff.mp h
    obtain ⟨⟨es', n'⟩, hrest, heq⟩ := Option.map_eq_some_iff.mp h
    cases heq
    exact .cons (busCall_step hcall) (ih hrest)

theorem performing_performs {m n : Machine} {segment : Segment} (h : m.performing segment = some n) :
    m.Performs (segment, n.memory SSRDR) n := by
  cases segment with
  | configure mode =>
    obtain ⟨⟨es, m₁⟩, hbefore, h⟩ := Option.bind_eq_some_iff.mp h
    obtain ⟨⟨e, s, m₂⟩, hcall, h⟩ := Option.bind_eq_some_iff.mp h
    obtain ⟨⟨es', n'⟩, hafter, h⟩ := Option.bind_eq_some_iff.mp h
    obtain ⟨⟨hsel, hstore, hw⟩, heq⟩ := Option.ite_none_right_eq_some.mp h
    cases heq
    obtain ⟨hsleep, hd, hrun, hview⟩ := busCall_eq hcall
    refine ⟨⟨es, e, es', m₁, m₂, busCalls_runs hbefore, ⟨hsleep, hrun, s, hd, hview, hsel⟩,
      busCalls_runs hafter, fun b hb => ?_, hw⟩, rfl⟩
    cases hstore _ hb
  | send byte =>
    obtain ⟨⟨es, m₁⟩, hbefore, h⟩ := Option.bind_eq_some_iff.mp h
    obtain ⟨⟨e, s, m₂⟩, hcall, h⟩ := Option.bind_eq_some_iff.mp h
    obtain ⟨⟨es', n'⟩, hafter, h⟩ := Option.bind_eq_some_iff.mp h
    obtain ⟨⟨hquiet, rfl, hready⟩, heq⟩ := Option.ite_none_right_eq_some.mp h
    cases heq
    exact ⟨⟨es, es', m₁, m₂, busCalls_runs hbefore, busCall_step hcall, busCalls_runs hafter,
      hquiet, hready⟩, rfl⟩

theorem performingAll_runs {m n : Machine} {segments : List Segment}
    (h : performingAll segments m = some (ws, n)) :
    Runs Performs m ws n ∧ ws.map Prod.fst = segments := by
  induction segments generalizing m ws with
  | nil => cases h; exact ⟨.nil _, rfl⟩
  | cons segment segments ih =>
    obtain ⟨t, hfirst, h⟩ := Option.bind_eq_some_iff.mp h
    obtain ⟨⟨ws', n'⟩, hrest, heq⟩ := Option.map_eq_some_iff.mp h
    cases heq
    obtain ⟨hruns, hsegments⟩ := ih hrest
    exact ⟨.cons (performing_performs hfirst) hruns, congrArg (segment :: ·) hsegments⟩

end Machine

def roundTripProgram : List (Nat × List Byte) :=
  (0x2c4, [0x5a, 0x00, 0x0f, 0xfe]) ::
    [0x1000, 0x1018, 0x1036, 0x104e, 0x106c, 0x108a, 0x10a8, 0x10c6, 0x10de, 0x10fc, 0x111a,
      0x1138].zip ((writeTransaction 0x1234 [0x5a] ++ readHeader 0x1234 ++
        [Segment.send 0xff]).map Segment.code)

theorem eeprom_round_trip_byte :
    ∃ (m n p : Machine) (ws rs vs : List (Segment × Byte)), m.Reachable ∧
      Runs Machine.Performs m ws n ∧ ws.map Prod.fst = writeTransaction 0x1234 [0x5a] ∧
      Runs Machine.Performs n (rs ++ vs) p ∧ rs.map Prod.fst = readHeader 0x1234 ∧
      vs.map Prod.fst = [.send 0xff] ∧ vs.map Prod.snd = [0x5a] := by
  have run : ((Machine.boot roundTripProgram).calls 2).okWith (fun m => m.tdre &&
      (Machine.performingAll (writeTransaction 0x1234 [0x5a]) m).any fun (_, n) =>
        (Machine.performingAll (readHeader 0x1234) n).any fun (_, q) =>
          (Machine.performingAll [.send 0xff] q).isSome) = true := by
    decide +kernel
  obtain ⟨m, hm, h⟩ := Outcome.okWith_iff.mp run
  obtain ⟨hready, h⟩ := Bool.and_eq_true_iff.mp h
  obtain ⟨⟨ws, n⟩, hwrite, h⟩ := (Option.any_eq_true _ _).mp h
  obtain ⟨⟨rs, q⟩, hheader, h⟩ := (Option.any_eq_true _ _).mp h
  obtain ⟨⟨vs, p⟩, hdata⟩ := Option.isSome_iff_exists.mp h
  obtain ⟨hwrite, hws⟩ := Machine.performingAll_runs hwrite
  obtain ⟨hheader, hrs⟩ := Machine.performingAll_runs hheader
  obtain ⟨hdata, hvs⟩ := Machine.performingAll_runs hdata
  have hread := hheader.append hdata
  exact ⟨m, n, p, ws, rs, vs, (Machine.reachable_boot _).calls hm, hwrite, hws, hread, hrs, hvs,
    (Machine.eeprom_round_trip 0x1234 [0x5a] [0xff] (by decide) hready hwrite hws hread hrs hvs
      rfl).1⟩

end PokeStroller
