import PokeStroller.Lib.Trace
import PokeStroller.Soc.Emulator
import PokeStroller.Soc.Frames

/-!
# The EEPROM on its bus

What the EEPROM does is what the history tells of it, whatever else is on the bus.
A write stores its bytes from its address on, the later ones of more than 128 over
the earlier ones, and a read returns what is stored.
-/

namespace PokeStroller.Soc

-- ---------------------------------------------------------------------------
-- History
-- ---------------------------------------------------------------------------

inductive EepromEvent
  | receive (data : Byte)
  | transmit (data : Byte)
  | reset
  deriving DecidableEq, Repr

def Event.eeprom : Event → Option EepromEvent
  | receive .eeprom data => some (.receive data)
  | transmit .eeprom data => some (.transmit data)
  | reset .eeprom => some .reset
  | _ => none

inductive M95512.Step : M95512 → EepromEvent → M95512 → Prop
  | receive (data : Byte) (m : M95512) : Step m (.receive data) (m.Receive data)
  | transmit (m : M95512) : Step m (.transmit m.Transmit.1) m.Transmit.2
  | reset (m : M95512) : Step m .reset m.Reset

abbrev EepromTraced : H838606 → H838606 → Prop :=
  Traced H838606.log H838606.eeprom Event.eeprom M95512.Step

theorem onRead_eeprom (r : IoRegister) (s : H838606) : EepromTraced s (r.read s) :=
  .other (by simp [IoRegister.read]; rfl) rfl (onRead_board r s).eeprom

theorem onWrite_eeprom (r : IoRegister) (value : Byte) (s : H838606) :
    EepromTraced s (r.write value s) := by
  have hboard := (onWrite_board r value (record (.write r value) s)).eeprom
  have hfirst : EepromTraced s (record (.write r value) s) := .other rfl rfl rfl
  refine hfirst.trans ?_
  rcases onWrite_log r value (record (.write r value) s) with hlog | hlog
  · exact .quiet hlog hboard
  · exact .other hlog rfl hboard

theorem Act.eeprom {s t : H838606} (h : Act s t) : EepromTraced s t := by
  cases h with
  | read r _ => exact onRead_eeprom r s
  | write r value _ => exact onWrite_eeprom r value s
  | reset p _ =>
    cases p with
    | eeprom => exact .event rfl rfl (.reset s.eeprom)
    | _ => exact .other rfl rfl rfl
  | @receive p _ t _ h =>
    have hlog := Peripheral.Receive_log h
    cases p with
    | eeprom =>
      cases h
      exact .event rfl rfl (.receive _ s.eeprom)
    | accelerometer =>
      obtain ⟨a, -, rfl⟩ := Option.map_eq_some_iff.mp h
      exact .other rfl rfl rfl
    | lcd =>
      obtain ⟨lcd, -, rfl⟩ := Option.map_eq_some_iff.mp h
      exact .other rfl rfl rfl
  | @transmit data p _ t _ h =>
    cases p with
    | eeprom =>
      cases h
      exact .event rfl rfl (.transmit s.eeprom)
    | accelerometer =>
      obtain ⟨a, -, heq⟩ := Option.map_eq_some_iff.mp h
      cases heq
      exact .other rfl rfl rfl
    | lcd =>
      cases h
      exact .other rfl rfl rfl
  | _ => exact .other rfl rfl rfl

theorem Moves.eeprom {s t : H838606} (h : Moves s t) : EepromTraced s t := by
  refine Traced.moves (fun s t hmove => ?_) h
  rcases hmove.act_or_quiet with hact | hquiet
  · exact hact.eeprom
  · exact .quiet hquiet.log (congrArg Lines.eeprom hquiet.lines)

-- ---------------------------------------------------------------------------
-- Contents
-- ---------------------------------------------------------------------------

def M95512_PAGE_SIZE : Nat := 128

/-- The last of the bytes that is stored this far from the start. -/
def latest (data : List Byte) (k : Nat) : Option Byte :=
  if k < M95512_PAGE_SIZE ∧ k < data.length then
    data[k + M95512_PAGE_SIZE * ((data.length - 1 - k) / M95512_PAGE_SIZE)]?
  else none

def written (contents : BitVec 16 → Byte) (address : BitVec 16) (data : List Byte)
    (b : BitVec 16) : Byte :=
  (latest data (b - address).toNat).getD (contents b)

theorem latest_concat (data : List Byte) (byte : Byte) (k : Nat) :
    latest (data ++ [byte]) k =
      if k = data.length % M95512_PAGE_SIZE then some byte else latest data k := by
  unfold latest M95512_PAGE_SIZE
  rw [List.length_append, List.length_singleton]
  by_cases hk : k = data.length % 128
  · have hplace : k + 128 * ((data.length + 1 - 1 - k) / 128) = data.length := by omega
    rw [if_pos hk, if_pos (by omega), hplace, List.getElem?_concat_length]
  · rw [if_neg hk]
    by_cases hstored : k < 128 ∧ k < data.length
    · have hsame : (data.length + 1 - 1 - k) / 128 = (data.length - 1 - k) / 128 := by omega
      rw [if_pos hstored, if_pos (by omega), hsame, List.getElem?_append_left (by omega)]
    · rw [if_neg hstored, if_neg (by omega)]

theorem written_nil (contents : BitVec 16 → Byte) (address : BitVec 16) :
    written contents address [] = contents := by
  funext b
  simp [written, latest]

theorem written_concat (contents : BitVec 16 → Byte) (address : BitVec 16) (data : List Byte)
    (byte : Byte) : written contents address (data ++ [byte]) =
      Function.update (written contents address data)
        (address + BitVec.ofNat 16 (data.length % M95512_PAGE_SIZE)) byte := by
  funext b
  unfold written
  rw [latest_concat]
  have hlt : data.length % M95512_PAGE_SIZE < 128 := Nat.mod_lt _ (by decide)
  generalize data.length % M95512_PAGE_SIZE = k at hlt
  by_cases hb : b = address + BitVec.ofNat 16 k
  · have hk : (b - address).toNat = k := by bv_omega
    rw [hb, Function.update_self, ← hb, if_pos hk]
    rfl
  · have hk : (b - address).toNat ≠ k := by bv_omega
    rw [Function.update_of_ne hb, if_neg hk]

-- ---------------------------------------------------------------------------
-- Sessions
-- ---------------------------------------------------------------------------

def received : List EepromEvent → List Byte
  | [] => []
  | .receive data :: es => data :: received es
  | _ :: es => received es

def replies : List EepromEvent → List Byte
  | [] => []
  | .transmit data :: es => data :: replies es
  | _ :: es => replies es

/-- What happens after the next byte has come. -/
def afterNext : List EepromEvent → List EepromEvent
  | [] => []
  | .receive _ :: es => es
  | _ :: es => afterNext es

/-- The part of a history between two deselections. -/
def Selected (es : List EepromEvent) : Prop := .reset ∉ es

theorem Selected.tail (h : Selected (e :: es)) : Selected es := fun hmem => h (.tail _ hmem)

theorem Selected.head (h : Selected (e :: es)) : e ≠ .reset := fun heq => h (heq ▸ .head _)

namespace M95512

variable {m m' : M95512}

theorem next_received (h : Runs Step m es m') (hsame : m.Transmit.2 = m) (hes : Selected es)
    (hreceived : received es = d :: ds) :
    Runs Step (m.Receive d) (afterNext es) m' ∧ received (afterNext es) = ds ∧
      Selected (afterNext es) := by
  induction h with
  | nil => cases hreceived
  | cons hstep hrest ih =>
    cases hstep with
    | receive data _ =>
      cases hreceived
      exact ⟨hrest, rfl, hes.tail⟩
    | transmit _ =>
      rw [hsame] at ih
      exact ih hsame hes.tail hreceived
    | reset _ => exact absurd rfl hes.head

theorem Transmit_same (h : m.state ≠ .STATUS) (hreading : m.state = .MEMORY → m.is_reading = false) :
    m.Transmit.2 = m := by
  unfold Transmit
  split
  · rename_i hstate
    rw [if_neg (by simp [hreading hstate])]
  · contradiction
  · rfl

theorem addressed (h : Runs Step m es m') (hidle : m.state = .IDLE) (hes : Selected es)
    (hcommand : command = M95512_CMD_WRITE_MEMORY ∨ command = M95512_CMD_READ_MEMORY)
    (hreceived : received es = command :: high :: low :: data) :
    Runs Step { m with
        is_reading := command == M95512_CMD_READ_MEMORY, state := .MEMORY, high_addr := high
        low_addr := low } (afterNext (afterNext (afterNext es))) m' ∧
      received (afterNext (afterNext (afterNext es))) = data ∧
      Selected (afterNext (afterNext (afterNext es))) := by
  obtain ⟨h₁, hreceived₁, hes₁⟩ := next_received h
    (Transmit_same (by simp [hidle]) (by simp [hidle])) hes hreceived
  have hfirst : m.Receive command =
      { m with is_reading := command == M95512_CMD_READ_MEMORY, state := .ADDR_HIGH } := by
    unfold Receive
    rw [hidle]
    rcases hcommand with rfl | rfl <;> rfl
  rw [hfirst] at h₁
  obtain ⟨h₂, hreceived₂, hes₂⟩ := next_received h₁ (Transmit_same nofun nofun) hes₁ hreceived₁
  exact next_received h₂ (Transmit_same nofun nofun) hes₂ hreceived₂

def start (m : M95512) : BitVec 16 := m.high_addr ++ m.low_addr

theorem offset_next (n : Nat) :
    (BitVec.ofNat 16 (n % M95512_PAGE_SIZE) + 1) % 128 =
      BitVec.ofNat 16 ((n + 1) % M95512_PAGE_SIZE) := by
  apply BitVec.eq_of_toNat_eq
  have hone : (1 : BitVec 16).toNat = 1 := rfl
  have hsize : (128 : BitVec 16).toNat = 128 := rfl
  simp only [BitVec.toNat_umod, BitVec.toNat_add, BitVec.toNat_ofNat, M95512_PAGE_SIZE, hone, hsize]
  omega

theorem writing (h : Runs Step m es m') (hstate : m.state = .MEMORY)
    (hreading : m.is_reading = false) (hes : Selected es) (before : List Byte)
    (hoffset : m.offset = BitVec.ofNat 16 (before.length % M95512_PAGE_SIZE))
    (hcontents : m.eeprom = written contents m.start before) :
    m'.eeprom = written contents m.start (before ++ received es) := by
  induction h generalizing before with
  | nil => rw [hcontents, received, List.append_nil]
  | @cons m _ _ e es hstep hrest ih =>
    cases hstep with
    | receive data _ =>
      have hreceive : m.Receive data = { m with
          eeprom := Function.update m.eeprom m.address data, offset := (m.offset + 1) % 128 } := by
        unfold Receive
        rw [hstate, hreading]
        rfl
      rw [hreceive] at ih
      rw [received, List.append_cons]
      refine ih hstate hreading hes.tail (before ++ [data]) ?_ ?_
      · rw [hoffset, List.length_append, List.length_singleton]
        exact offset_next before.length
      · change Function.update m.eeprom (m.start + m.offset) data = written contents m.start _
        rw [hoffset, hcontents, written_concat]
    | transmit _ =>
      rw [Transmit_same (by simp [hstate]) (fun _ => hreading)] at ih
      exact ih hstate hreading hes.tail before hoffset hcontents
    | reset _ => exact absurd rfl hes.head

theorem reading (h : Runs Step m es m') (hstate : m.state = .MEMORY) (hreading : m.is_reading = true)
    (hes : Selected es) :
    m'.eeprom = m.eeprom ∧ ∀ i data, (replies es)[i]? = some data →
      data = m.eeprom (m.start + (m.offset + BitVec.ofNat 16 i)) := by
  induction h with
  | nil => exact ⟨rfl, nofun⟩
  | @cons m _ _ e es hstep hrest ih =>
    cases hstep with
    | receive data _ =>
      have hsame : m.Receive data = m := by
        unfold Receive
        rw [hstate, hreading]
        rfl
      rw [hsame] at ih
      exact ih hstate hreading hes.tail
    | transmit _ =>
      have htransmit : m.Transmit = (m.eeprom m.address, { m with offset := m.offset + 1 }) := by
        unfold Transmit
        rw [hstate, hreading]
        rfl
      rw [htransmit] at ih ⊢
      obtain ⟨hsame, hreplies⟩ := ih hstate hreading hes.tail
      refine ⟨hsame, fun i data hdata => ?_⟩
      cases i with
      | zero =>
        cases hdata
        rw [BitVec.add_zero]
        rfl
      | succ i =>
        have hnext : (1 : BitVec 16) + BitVec.ofNat 16 i = BitVec.ofNat 16 (i + 1) := by
          rw [Nat.add_comm, BitVec.ofNat_add]
          rfl
        refine (hreplies i data hdata).trans ?_
        change m.eeprom (m.start + (m.offset + 1 + BitVec.ofNat 16 i)) = _
        rw [BitVec.add_assoc, hnext]
    | reset _ => exact absurd rfl hes.head

/-- A read: its bytes are what is stored from its address on. -/
theorem read_session (h : Runs Step m es m') (hidle : m.state = .IDLE) (hoffset : m.offset = 0)
    (hes : Selected es) (hreceived : received es = M95512_CMD_READ_MEMORY :: high :: low :: rest) :
    m'.eeprom = m.eeprom ∧
      ∀ i data, (replies (afterNext (afterNext (afterNext es))))[i]? = some data →
        data = m.eeprom ((high ++ low) + BitVec.ofNat 16 i) := by
  obtain ⟨hrest, -, hselected⟩ := addressed h hidle hes (.inr rfl) hreceived
  obtain ⟨hsame, hreplies⟩ := reading hrest rfl rfl hselected
  refine ⟨hsame, fun i data hdata => ?_⟩
  have hzero : (0 : BitVec 16) + BitVec.ofNat 16 i = BitVec.ofNat 16 i := BitVec.zero_add _
  rw [hreplies i data hdata, hoffset, hzero]
  rfl

theorem write_session (h : Runs Step m es m') (hidle : m.state = .IDLE) (hoffset : m.offset = 0)
    (hes : Selected es) (hreceived : received es = M95512_CMD_WRITE_MEMORY :: high :: low :: data) :
    m'.eeprom = written m.eeprom (high ++ low) data := by
  obtain ⟨hrest, hdata, hselected⟩ := addressed h hidle hes (.inl rfl) hreceived
  have hwritten := writing hrest rfl rfl hselected [] hoffset (written_nil _ _).symm
  rw [hdata] at hwritten
  exact hwritten

/-- What the next byte of a session is: a command, nothing before the status has been
sent, or part of an access to the memory. -/
inductive Mode
  | command
  | status
  | access
  deriving DecidableEq, Repr

def Mode.next : Mode → EepromEvent → Mode
  | command, .receive data =>
    if data = M95512_CMD_WRITE_MEMORY ∨ data = M95512_CMD_READ_MEMORY then access
    else if data = M95512_CMD_READ_STATUS then status
    else command
  | status, .transmit _ => command
  | mode, _ => mode

/-- No command of these events is a write. -/
def Mode.unwritten : Mode → List EepromEvent → Bool
  | _, [] => true
  | mode, e :: es =>
    (mode ≠ command || e ≠ .receive M95512_CMD_WRITE_MEMORY) && (mode.next e).unwritten es

/-- Any session that never begins a write. -/
def Harmless (es : List EepromEvent) : Prop := Selected es ∧ Mode.command.unwritten es = true

/-- The mode that an EEPROM is in, unless it is being written. -/
def Mode.Of (m : M95512) : Mode → Prop
  | command => m.state = .IDLE
  | status => m.state = .STATUS
  | access => m.is_reading = true ∧ m.state ≠ .IDLE ∧ m.state ≠ .STATUS

theorem receive_command (hidle : m.state = .IDLE) (hdata : data ≠ M95512_CMD_WRITE_MEMORY) :
    (Mode.command.next (.receive data)).Of (m.Receive data) ∧
      (m.Receive data).eeprom = m.eeprom := by
  unfold Mode.next Receive
  rw [hidle]
  dsimp only
  rw [if_neg hdata]
  by_cases hread : data = M95512_CMD_READ_MEMORY
  · rw [if_pos hread, if_pos (Or.inr hread)]
    exact ⟨⟨rfl, nofun, nofun⟩, rfl⟩
  rw [if_neg (not_or.mpr ⟨hdata, hread⟩), if_neg hread]
  split
  · exact ⟨rfl, rfl⟩
  · split
    · exact ⟨rfl, rfl⟩
    · exact ⟨hidle, rfl⟩

theorem receive_access (h : Mode.access.Of m) :
    Mode.access.Of (m.Receive data) ∧ (m.Receive data).eeprom = m.eeprom := by
  obtain ⟨hreading, hidle, hstatus⟩ := h
  unfold Receive
  split
  · contradiction
  · contradiction
  · exact ⟨⟨hreading, nofun, nofun⟩, rfl⟩
  · exact ⟨⟨hreading, nofun, nofun⟩, rfl⟩
  · rw [if_pos hreading]
    exact ⟨⟨hreading, hidle, hstatus⟩, rfl⟩

theorem transmit_access (h : Mode.access.Of m) :
    Mode.access.Of m.Transmit.2 ∧ m.Transmit.2.eeprom = m.eeprom := by
  unfold Transmit
  split
  · split <;> exact ⟨h, rfl⟩
  · rename_i hstatus
    exact absurd hstatus h.2.2
  · exact ⟨h, rfl⟩

/-- What is not a write keeps the contents. -/
theorem Step.harmless {mode : Mode} (h : Step m e n) (hmode : mode.Of m) (he : e ≠ .reset)
    (hwrite : mode = .command → e ≠ .receive M95512_CMD_WRITE_MEMORY) :
    (mode.next e).Of n ∧ n.eeprom = m.eeprom := by
  cases h with
  | receive data _ =>
    cases mode with
    | command => exact receive_command hmode fun hdata => hwrite rfl (hdata ▸ rfl)
    | status =>
      have hsame : m.Receive data = m := by
        unfold Receive
        rw [show m.state = .STATUS from hmode]
      rw [hsame]
      exact ⟨hmode, rfl⟩
    | access => exact receive_access hmode
  | transmit _ =>
    cases mode with
    | command =>
      have hidle : m.state = .IDLE := hmode
      rw [Transmit_same (by simp [hidle]) (by simp [hidle])]
      exact ⟨hidle, rfl⟩
    | status =>
      have hanswer : m.Transmit.2 = { m with state := .IDLE } := by
        unfold Transmit
        rw [show m.state = .STATUS from hmode]
      rw [hanswer]
      exact ⟨rfl, rfl⟩
    | access => exact transmit_access hmode
  | reset _ => exact absurd rfl he

theorem harmless_run {mode : Mode} (h : Runs Step m es m') (hmode : mode.Of m) (hes : Selected es)
    (hunwritten : mode.unwritten es = true) : m'.eeprom = m.eeprom := by
  induction h generalizing mode with
  | nil => rfl
  | cons hstep _ ih =>
    simp only [Mode.unwritten, Bool.and_eq_true, Bool.or_eq_true, decide_eq_true_eq] at hunwritten
    obtain ⟨hfirst, hrest⟩ := hunwritten
    obtain ⟨hmode', hsame⟩ := hstep.harmless hmode hes.head (fun hcommand =>
      hfirst.resolve_left fun hne => hne hcommand)
    exact (ih hmode' hes.tail hrest).trans hsame

theorem harmless_session (h : Runs Step m es m') (hidle : m.state = .IDLE) (hes : Harmless es) :
    m'.eeprom = m.eeprom := by
  have hmode : Mode.command.Of m := hidle
  exact harmless_run h hmode hes.1 hes.2

end M95512

-- ---------------------------------------------------------------------------
-- Round trip
-- ---------------------------------------------------------------------------

namespace M95512

theorem after_reset (h : Runs Step m (.reset :: es) m') :
    ∃ n, Runs Step n es m' ∧ n.state = .IDLE ∧ n.offset = 0 ∧ n.eeprom = m.eeprom := by
  cases h with
  | cons hstep hrest =>
    cases hstep
    exact ⟨_, hrest, rfl, rfl, rfl⟩

theorem harmless_sessions {mid : List (List EepromEvent)} (hidle : m.state = .IDLE)
    (hoffset : m.offset = 0) (hmid : ∀ es ∈ mid, Harmless es)
    (h : Runs Step m (mid.flatMap (· ++ [.reset]) ++ es) m') :
    ∃ n, Runs Step n es m' ∧ n.state = .IDLE ∧ n.offset = 0 ∧ n.eeprom = m.eeprom := by
  induction mid generalizing m with
  | nil => exact ⟨m, h, hidle, hoffset, rfl⟩
  | cons session mid ih =>
    rw [List.flatMap_cons, List.append_assoc, List.append_assoc, List.singleton_append] at h
    obtain ⟨n, hsession, hrest⟩ := h.split
    obtain ⟨n', hrest, hidle', hoffset', hkept⟩ := after_reset hrest
    obtain ⟨n'', hes, hidle'', hoffset'', hkept'⟩ := ih hidle' hoffset'
      (fun es hes => hmid es (.tail _ hes)) hrest
    refine ⟨n'', hes, hidle'', hoffset'', hkept'.trans (hkept.trans ?_)⟩
    exact harmless_session hsession hidle (hmid session (.head _))

end M95512

/-- In every run in which the EEPROM is selected for a write, then any number of times for
anything that never begins one, then for a read, the bytes read are the ones that the write
stored and, beside them, what was there before; whatever else the processor, the other devices
and the host do in between. -/
theorem eeprom_write_read {s t : H838606} {mid : List (List EepromEvent)} (h : Moves s t)
    (hlog : t.log = s.log ++ es)
    (hes : es.filterMap Event.eeprom = .reset :: (writes ++ .reset ::
      (mid.flatMap (· ++ [.reset]) ++ reads)))
    (hwrites : Selected writes)
    (hwrite : received writes = M95512_CMD_WRITE_MEMORY :: high :: low :: data)
    (hmid : ∀ session ∈ mid, M95512.Harmless session) (hreads : Selected reads)
    (hread : received reads = M95512_CMD_READ_MEMORY :: high' :: low' :: rest) :
    t.eeprom.eeprom = written s.eeprom.eeprom (high ++ low) data ∧
      ∀ i byte, (replies (afterNext (afterNext (afterNext reads))))[i]? = some byte →
        byte = written s.eeprom.eeprom (high ++ low) data
          ((high' ++ low') + BitVec.ofNat 16 i) := by
  have hruns := h.eeprom.runs hlog
  rw [hes] at hruns
  obtain ⟨m, hruns, hidle, hoffset, hkept⟩ := M95512.after_reset hruns
  obtain ⟨m', hsession, hruns⟩ := hruns.split
  have hwritten := M95512.write_session hsession hidle hoffset hwrites hwrite
  obtain ⟨n, hruns, hidle, hoffset, hkept'⟩ := M95512.after_reset hruns
  obtain ⟨n', hruns, hidle, hoffset, hkept''⟩ := M95512.harmless_sessions hidle hoffset hmid hruns
  obtain ⟨hsame, hreplies⟩ := M95512.read_session hruns hidle hoffset hreads hread
  rw [hkept'', hkept', hwritten, hkept] at hsame hreplies
  exact ⟨hsame, hreplies⟩

/-- A history of the EEPROM from `s` to `t` that leaves the serial bus on. -/
structure Possible (s t : H838606) (events : List EepromEvent) : Prop where
  moves : Moves s t
  history : ∃ es, t.log = s.log ++ es ∧ es.filterMap Event.eeprom = events
  enabled : t.ssu.SSER = s.ssu.SSER

theorem Possible.trans {s t u : H838606} {xs ys : List EepromEvent} (h : Possible s t xs)
    (h' : Possible t u ys) : Possible s u (xs ++ ys) := by
  obtain ⟨es, hlog, hes⟩ := h.history
  obtain ⟨es', hlog', hes'⟩ := h'.history
  refine ⟨h.moves.trans h'.moves, ⟨es ++ es', ?_, ?_⟩, h'.enabled.trans h.enabled⟩
  · rw [hlog', hlog, List.append_assoc]
  · rw [List.filterMap_append, hes, hes']

theorem possible_reset (s : H838606) : ∃ t, Possible s t [.reset] :=
  ⟨_, .single (.early (.ssu (.reset .eeprom s))), ⟨[.reset .eeprom], rfl, rfl⟩, rfl⟩

theorem possible_receive (bytes : List Byte) (s : H838606)
    (hTE : s.ssu.SSER.getLsbD SSER_t.TE = true) : ∃ t, Possible s t (bytes.map .receive) := by
  induction bytes generalizing s with
  | nil => exact ⟨s, .refl, ⟨[], (List.append_nil _).symm, rfl⟩, rfl⟩
  | cons byte bytes ih =>
    have hwrite : Move s (IoRegister.SSTDR.write byte s) := .early (.ssu (.bus (.write _ _ _)))
    have hTDRE : (IoRegister.SSTDR.write byte s).ssu.SSSR.getLsbD SSSR_t.TDRE = false := by
      change (withBit (withBit s.ssu.SSSR SSSR_t.TDRE false) SSSR_t.TEND false).getLsbD _ = _
      rw [getLsbD_withBit_ne _ _ (by decide), getLsbD_withBit_self _ (by decide)]
    have hreceive : Move (IoRegister.SSTDR.write byte s) _ :=
      .early (.ssu (@SsuMove.receive .eeprom _ _ hTE hTDRE rfl))
    obtain ⟨u, hone⟩ : ∃ u, Possible s u [.receive byte] :=
      ⟨_, .tail (.single hwrite) hreceive, ⟨[.write .SSTDR byte, .receive .eeprom byte],
        List.append_assoc _ _ _, rfl⟩, rfl⟩
    obtain ⟨t, hrest⟩ := ih u (hone.enabled ▸ hTE)
    exact ⟨t, hone.trans hrest⟩

theorem possible_transmit (s : H838606) (hRE : s.ssu.SSER.getLsbD SSER_t.RE = true) :
    ∃ t data, Possible s t [.transmit data] := by
  have hread : Move s (IoRegister.SSRDR.read s) := .early (.ssu (.bus (.read _ _)))
  have hRDRF : (IoRegister.SSRDR.read s).ssu.SSSR.getLsbD SSSR_t.RDRF = false :=
    getLsbD_withBit_self _ (by decide) _
  have htransmit : Move (IoRegister.SSRDR.read s) _ :=
    .early (.ssu (@SsuMove.transmit _ .eeprom _ _ hRE hRDRF rfl))
  exact ⟨_, _, .tail (.single hread) htransmit,
    ⟨[.read .SSRDR s.ssu.SSRDR, .transmit .eeprom _], List.append_assoc _ _ _, rfl⟩, rfl⟩

/-- One byte is written and read back, after the status has been read with a byte more. -/
theorem eeprom_write_read_byte : ∃ (s t : H838606) (data : Byte), Moves s t ∧
    t.eeprom.eeprom 0x1234 = 0xAB ∧ .transmit .eeprom data ∈ t.log ∧ data = 0xAB := by
  let s : H838606 := { H838606.reset (fun _ => 0) (fun _ => 0xFF) with ssu.SSER := 0xC0 }
  have hTE : s.ssu.SSER.getLsbD SSER_t.TE = true := by decide
  have hRE : s.ssu.SSER.getLsbD SSER_t.RE = true := by decide
  obtain ⟨s₁, h₁⟩ := possible_reset s
  obtain ⟨s₂, h₂⟩ := possible_receive [0x2, 0x12, 0x34, 0xAB] s₁ (h₁.enabled ▸ hTE)
  have h₂ := h₁.trans h₂
  obtain ⟨s₃, h₃⟩ := possible_reset s₂
  have h₃ := h₂.trans h₃
  obtain ⟨s₄, h₄⟩ := possible_receive [0x5] s₃ (h₃.enabled ▸ hTE)
  have h₄ := h₃.trans h₄
  obtain ⟨s₅, status, h₅⟩ := possible_transmit s₄ (h₄.enabled ▸ hRE)
  have h₅ := h₄.trans h₅
  obtain ⟨s₆, h₆⟩ := possible_receive [0xFF] s₅ (h₅.enabled ▸ hTE)
  have h₆ := h₅.trans h₆
  obtain ⟨s₇, h₇⟩ := possible_reset s₆
  have h₇ := h₆.trans h₇
  obtain ⟨s₈, h₈⟩ := possible_receive [0x3, 0x12, 0x34] s₇ (h₇.enabled ▸ hTE)
  have h₈ := h₇.trans h₈
  obtain ⟨t, data, h₉⟩ := possible_transmit s₈ (h₈.enabled ▸ hRE)
  have h₉ := h₈.trans h₉
  obtain ⟨es, hlog, hes⟩ := h₉.history
  have hshape : es.filterMap Event.eeprom = .reset ::
      ([.receive 0x2, .receive 0x12, .receive 0x34, .receive 0xAB] ++ .reset ::
        ([[.receive 0x5, .transmit status, .receive 0xFF]].flatMap (· ++ [.reset]) ++
          [.receive 0x3, .receive 0x12, .receive 0x34, .transmit data])) := hes
  have hmid : ∀ session ∈ [[.receive 0x5, .transmit status, .receive 0xFF]],
      M95512.Harmless session := by
    simp only [List.forall_mem_singleton]
    exact ⟨by simp [Selected], rfl⟩
  obtain ⟨hcontents, hreplies⟩ := eeprom_write_read h₉.moves hlog hshape (by simp [Selected]) rfl
    hmid (by simp [Selected]) rfl
  have hmem : EepromEvent.transmit data ∈ es.filterMap Event.eeprom := by simp [hshape]
  obtain ⟨e, he, hevent⟩ := List.mem_filterMap.mp hmem
  refine ⟨s, t, data, h₉.moves, ?_, ?_, hreplies 0 data rfl⟩
  · rw [hcontents]
    rfl
  · rw [hlog]
    refine List.mem_append_right _ ?_
    cases e with
    | transmit p byte =>
      cases p with
      | eeprom =>
        cases hevent
        exact he
      | _ => cases hevent
    | receive p byte => cases p <;> cases hevent
    | reset p => cases p <;> cases hevent
    | _ => cases hevent

end PokeStroller.Soc
