import PokeStroller.Link.Stream
import PokeStroller.Soc.Delivery

/-!
# From the emulator to the link and back

`pumpIR` of the macOS window: it takes what the emulator sends to the link and what
has come over the link to the emulator. As long as the link stays connected, no byte is
repeated or comes out of order on the way.
-/

namespace PokeStroller.Soc

open Exec

-- ---------------------------------------------------------------------------
-- The window
-- ---------------------------------------------------------------------------

/-- What `pumpIR` works on. -/
structure Station (τ : Type) where
  emulator : Adapter H838606 τ
  link : Endpoint
  lastLinkState : Int

namespace Station

def CHUNK : Nat := 4096

/-- The loop over `pw_ir_transmit`, with its passes left; `none` if there are more. -/
def transmitLoop (state : Int) : Nat → Station τ → Option (Station τ)
  | 0, _ => none
  | passes + 1, s =>
    match s.emulator.pw_ir_transmit CHUNK with
    | (emulator, []) => some { s with emulator := emulator }
    | (emulator, bytes) =>
      transmitLoop state passes { s with
        emulator := emulator
        link := if state = 2 then (s.link.pw_link_send bytes).1 else s.link }

def receiveLoop : Nat → Station τ → Option (Station τ)
  | 0, _ => none
  | passes + 1, s =>
    match s.link.pw_link_read CHUNK with
    | (link, []) => some { s with link := link }
    | (link, bytes) =>
      receiveLoop passes { s with
        link := link, emulator := (pw_ir_receive bytes s.emulator).1 }

def poll (strerror : Errno → String) (calls : PollCalls) (s : Station τ) : Station τ :=
  let link := s.link.pw_link_poll strerror calls
  { emulator := if link.state ≠ s.lastLinkState then pw_ir_clear s.emulator else s.emulator
    link := link
    lastLinkState := link.state }

def pumpIR (strerror : Errno → String) (calls : PollCalls) (passes : Nat) (s : Station τ) :
    Option (Station τ) :=
  let s := s.poll strerror calls
  (transmitLoop s.link.state passes s).bind (receiveLoop passes)

-- ---------------------------------------------------------------------------
-- The loops end
-- ---------------------------------------------------------------------------

theorem transmit_eq {pw pw' : Adapter H838606 τ} {n : Nat}
    (h : pw.pw_ir_transmit n = (pw', bytes)) :
    pw.ir = bytes ++ pw'.ir ∧ pw' = { pw with ir := pw'.ir, log := pw.log ++ [.returned bytes] } := by
  unfold Adapter.pw_ir_transmit at h
  split at h
  · cases h
    exact ⟨rfl, rfl⟩
  · cases h
    exact ⟨(List.take_append_drop _ _).symm, rfl⟩

theorem transmitLoop_returns {state : Int} {s : Station τ}
    (hpasses : s.emulator.ir.length < passes) : (transmitLoop state passes s).isSome := by
  induction passes generalizing s with
  | zero => cases hpasses
  | succ passes ih =>
    unfold transmitLoop
    rcases htransmit : s.emulator.pw_ir_transmit CHUNK with ⟨emulator, bytes⟩
    have hkept := (transmit_eq htransmit).1
    cases bytes with
    | nil => rfl
    | cons byte bytes =>
      refine ih ?_
      rw [hkept] at hpasses
      simp only [List.cons_append, List.length_cons, List.length_append] at hpasses
      dsimp only
      omega

theorem receiveLoop_returns {s : Station τ} (hpasses : s.link.rx.length < passes) :
    (receiveLoop passes s).isSome := by
  induction passes generalizing s with
  | zero => cases hpasses
  | succ passes ih =>
    unfold receiveLoop
    rcases hread : s.link.pw_link_read CHUNK with ⟨link, bytes⟩
    have hkept : s.link.rx = bytes ++ link.rx := by
      cases hread
      exact (List.take_append_drop _ _).symm
    cases bytes with
    | nil => rfl
    | cons byte bytes =>
      refine ih ?_
      rw [hkept] at hpasses
      simp only [List.cons_append, List.length_cons, List.length_append] at hpasses
      dsimp only
      omega

theorem pw_link_send_rx (bytes : List Byte) (p : Endpoint) :
    (p.pw_link_send bytes).1.rx.length ≤ p.rx.length := by
  unfold Endpoint.pw_link_send
  split
  · exact Nat.le_refl _
  split
  · exact Nat.zero_le _
  · exact Nat.le_refl _

theorem transmitLoop_rx {state : Int} {s s' : Station τ}
    (h : transmitLoop state passes s = some s') : s'.link.rx.length ≤ s.link.rx.length := by
  induction passes generalizing s with
  | zero => cases h
  | succ passes ih =>
    unfold transmitLoop at h
    split at h
    · cases h
      exact Nat.le_refl _
    · have hrest := ih h
      dsimp only at hrest
      split at hrest
      · exact hrest.trans (pw_link_send_rx _ _)
      · exact hrest

/-- With enough passes a pump returns. -/
theorem pumpIR_returns (strerror : Errno → String) (calls : PollCalls) (s : Station τ) :
    ∃ passes, ∀ more, passes ≤ more → (s.pumpIR strerror calls more).isSome := by
  refine ⟨(s.poll strerror calls).emulator.ir.length +
    (s.poll strerror calls).link.rx.length + 1, fun more hmore => ?_⟩
  unfold pumpIR
  obtain ⟨s', hs'⟩ := Option.isSome_iff_exists.mp <| @transmitLoop_returns _ more
    (s.poll strerror calls).link.state (s.poll strerror calls) (by omega)
  have hrx := transmitLoop_rx hs'
  dsimp only
  rw [hs', Option.bind_some]
  exact receiveLoop_returns (by omega)

end Station

-- ---------------------------------------------------------------------------
-- The emulator between two pumps
-- ---------------------------------------------------------------------------

/-- The bytes that came into the receive queue of the infrared interface. -/
def fed (log : List Event) : List Byte := log.filterMap Event.toQueue

theorem BusMove.fed {s t : H838606} (h : BusMove s t) : fed t.log = fed s.log := by
  cases h with
  | read r _ => simp [IoRegister.read, Soc.fed, Event.toQueue]
  | write r value _ =>
    rcases onWrite_log r value (record (.write r value) s) with h | h
    · simp [IoRegister.write, h, Soc.fed, Event.toQueue]
    · simp [IoRegister.write, h, Soc.fed, Event.toQueue]
  | _ => rfl

theorem SsuMove.fed {s t : H838606} (h : SsuMove s t) : fed t.log = fed s.log := by
  cases h with
  | bus h => exact h.fed
  | reset p _ => simp [Peripheral.Reset_log, Soc.fed, Event.toQueue]
  | receive _ _ h => simp [SSU.transmitted, Peripheral.Receive_log h, Soc.fed, Event.toQueue]
  | transmit _ _ h => simp [SSU.received, Peripheral.reply_log h, Soc.fed, Event.toQueue]
  | _ => rfl

theorem EarlyMoves.fed {s t : H838606} (h : EarlyMoves s t) : fed t.log = fed s.log := by
  induction h with
  | refl => rfl
  | tail _ hmove ih =>
    refine Eq.trans ?_ ih
    cases hmove with
    | ssu h => exact h.fed
    | transmitIR _ _ _ => simp [SCI3.transmitted, Soc.fed, Event.toQueue]
    | takeIR _ _ _ _ => simp [SCI3.received, Soc.fed, Event.toQueue]
    | _ => rfl

def Call.isLocal : Call → Bool
  | .host (.transmit _) => false
  | .receive _ => false
  | .clear => false
  | _ => true

/-- What an emulator does by itself: it takes in no byte, and the bytes it sends come
into its queue. -/
structure Alone (pw pw' : Adapter H838606 τ) : Prop where
  follows : Follows pw pw'
  fed : fed pw'.soc.log = fed pw.soc.log
  queue : ∃ fs, pw'.log = pw.log ++ fs ∧ pw'.ir = pw.ir ++ accepted fs
  error : pw'.error = "" → pw.error = ""

namespace Alone

theorem refl (pw : Adapter H838606 τ) : Alone pw pw where
  follows := .refl pw
  fed := rfl
  queue := ⟨[], by simp [accepted]⟩
  error := id

theorem trans {pw'' : Adapter H838606 τ} (h : Alone pw pw') (h' : Alone pw' pw'') :
    Alone pw pw'' where
  follows := h.follows.trans h'.follows
  fed := h'.fed.trans h.fed
  queue := by
    obtain ⟨fs, hlog, hir⟩ := h.queue
    obtain ⟨fs', hlog', hir'⟩ := h'.queue
    refine ⟨fs ++ fs', by rw [hlog', hlog, List.append_assoc], ?_⟩
    rw [hir', hir, List.append_assoc, accepted, accepted, accepted, List.filterMap_append]
  error := h.error ∘ h'.error

theorem transmitIR_queue (calls : List (Byte × σ)) (pw : Adapter σ τ) :
    (pw.transmitIR calls).1.error = pw.error ∧
      ∃ fs, (pw.transmitIR calls).1.log = pw.log ++ fs ∧
        (pw.transmitIR calls).1.ir = pw.ir ++ accepted fs := by
  induction calls generalizing pw with
  | nil => exact ⟨rfl, [], by simp [Adapter.transmitIR, accepted]⟩
  | cons call calls ih =>
    obtain ⟨byte, soc⟩ := call
    unfold Adapter.transmitIR Adapter.onTransmitIR
    by_cases hfull : pw.ir.length = IR_QUEUE_SIZE
    · simp only [hfull, ↓reduceIte]
      exact ⟨trivial, [.overflow byte], rfl, by simp [accepted]⟩
    · simp only [hfull, ↓reduceIte]
      obtain ⟨herror, fs, hlog, hir⟩ := ih
        { pw with
          soc := soc, ir := pw.ir ++ [byte], last_ir_cycle := pw.cycles
          log := pw.log ++ [.emitted byte] }
      refine ⟨herror, .emitted byte :: fs, ?_, ?_⟩
      · rw [hlog, List.append_assoc]
        rfl
      · rw [hir, List.append_assoc]
        rfl

theorem Cycle_fed {s t : H838606} (h : H838606.Cycle now s = .ok (cycles, calls) t) :
    Soc.fed t.log = Soc.fed s.log := by
  obtain ⟨-, u, hearly, rfl⟩ := Cycle_ok h
  rw [lateDevices_log]
  exact hearly.fed

/-- The callback finds the SoC on its way. -/
theorem calls_fed {bytes : List (Byte × H838606)} (hcalls : Called pw.soc bytes after)
    (h : Adapter.transmitIR bytes pw = (q, some text)) :
    Soc.fed q.soc.log = Soc.fed pw.soc.log := by
  cases hcalls with
  | none => cases h
  | one hu _ =>
    simp only [Adapter.transmitIR, Adapter.onTransmitIR] at h
    by_cases hfull : pw.ir.length = IR_QUEUE_SIZE
    · simp only [hfull, ↓reduceIte] at h
      cases h
      exact hu.fed
    · simp only [hfull, ↓reduceIte] at h
      cases h

theorem pass (localtime : BitVec 64 → Tm) (synthesize : BuzzerInformation → τ → τ × BitVec 16)
    (wall : BitVec 64) (pw : Adapter H838606 τ) :
    Alone pw (pw.Cycle (core localtime synthesize) wall).1 := by
  have hfollows := Follows.pass localtime synthesize wall pw
  unfold Adapter.Cycle at *
  rcases hcore : (core localtime synthesize).Cycle (pw.Now wall) pw.soc with ⟨calls, result, t⟩
  rw [hcore] at hfollows
  dsimp only at *
  cases result with
  | error error =>
    obtain ⟨fault, hcycle, rfl, rfl⟩ := core_error hcore
    exact ⟨hfollows, (Soc.Cycle_error hcycle).1.fed, ⟨[], by simp [Adapter.transmitIR, accepted]⟩,
      id⟩
  | ok elapsed =>
    have hcycle := core_ok hcore
    obtain ⟨herror, fs, hlog, hir⟩ := transmitIR_queue calls pw
    rcases hcalls : Adapter.transmitIR calls pw with ⟨q, _ | error⟩
    · rw [hcalls] at hfollows herror hlog hir
      obtain ⟨buzzer_cycles, sound, audio, heq⟩ := Adapter.buzzerCycle_eq
        (core localtime synthesize) elapsed
        { q with soc := t, cycles := q.cycles + elapsed.setWidth 64
                 log := q.log ++ [.elapsed elapsed] }
      dsimp only at *
      rw [heq] at hfollows ⊢
      refine ⟨hfollows, Cycle_fed hcycle, ⟨fs ++ [.elapsed elapsed], ?_, ?_⟩, herror.symm.trans⟩
      · rw [hlog, List.append_assoc]
      · simpa [accepted] using hir
    · rw [hcalls] at hfollows herror hlog hir
      exact ⟨hfollows, calls_fed (Cycle_calls hcycle) hcalls, ⟨fs, hlog, hir⟩, herror.symm.trans⟩

theorem runLoop {walls : List (BitVec 64)}
    (h : pw.runLoop (core localtime synthesize) walls = some (pw', ok)) : Alone pw pw' := by
  induction walls generalizing pw with
  | nil =>
    unfold Adapter.runLoop at h
    split at h
    · cases h
    · cases h
      exact refl _
  | cons wall walls ih =>
    have hpass := pass localtime synthesize wall pw
    unfold Adapter.runLoop at h
    split at h
    · split at h
      · rename_i error hcycle
        have hmessage := (Cycle_message localtime synthesize wall pw).2
        rw [hcycle] at hpass hmessage
        cases h
        exact ⟨⟨hpass.follows.moves, hpass.follows.sent⟩, hpass.fed, hpass.queue,
          fun hempty => absurd (congrArg some hempty) hmessage⟩
      · rename_i hcycle
        rw [hcycle] at hpass
        exact hpass.trans (ih h)
    · cases h
      exact refl _

theorem step (h : Emulates localtime synthesize pw c pw') (hlocal : c.isLocal = true) :
    Alone pw pw' := by
  have hfollows := Follows.step h
  have hnone : ∃ fs, pw.log = pw.log ++ fs ∧ pw.ir = pw.ir ++ accepted fs :=
    ⟨[], by simp [accepted]⟩
  cases h with
  | host h =>
    cases h with
    | run hrun =>
      unfold Adapter.pw_run at hrun
      split at hrun
      · cases hrun
        exact refl pw
      · have hloop := runLoop hrun
        exact ⟨hfollows, hloop.fed, hloop.queue, hloop.error⟩
    | audio n => exact ⟨hfollows, rfl, hnone, id⟩
    | transmit n => cases hlocal
  | button h =>
    have hbus : BusMoves pw.soc _ := (pw_button_onBus _ _).along.of_ok h
    exact ⟨hfollows, hbus.onSsu.early.fed, hnone, id⟩
  | walk enabled => exact ⟨hfollows, rfl, hnone, id⟩
  | receive bytes => cases hlocal
  | clear => cases hlocal
  | clockOrigin origin => exact ⟨hfollows, rfl, hnone, id⟩

end Alone

-- ---------------------------------------------------------------------------
-- Receiving
-- ---------------------------------------------------------------------------

abbrev H838606.infrared (s : H838606) : Bool := s.sci3.IRCR.getLsbD IRCR_t.IRE

/-- The infrared function stays on unless the queue is cleared. -/
def StaysOn (s t : H838606) : Prop :=
  ∃ es, t.log = s.log ++ es ∧ (s.infrared = true → .clearIR ∉ es → t.infrared = true)

theorem StaysOn.same {e : Event} {s t : H838606} (hlog : t.log = s.log ++ [e])
    (hIRCR : t.sci3.IRCR = s.sci3.IRCR) : StaysOn s t := by
  refine ⟨[e], hlog, fun hon _ => ?_⟩
  rwa [H838606.infrared, hIRCR]

theorem StaysOn.trans {s t u : H838606} (h : StaysOn s t) (h' : StaysOn t u) : StaysOn s u := by
  obtain ⟨es, hlog, hkept⟩ := h
  obtain ⟨es', hlog', hkept'⟩ := h'
  refine ⟨es ++ es', by rw [hlog', hlog, List.append_assoc], fun hon hclear => ?_⟩
  rw [List.mem_append, not_or] at hclear
  exact hkept' (hkept hon hclear.1) hclear.2

theorem write_staysOn (r : IoRegister) (value : Byte) (s : H838606) :
    StaysOn s (r.write value s) := by
  cases r with
  | IRCR =>
    by_cases hIRE : value.getLsbD IRCR_t.IRE = true
    · rw [write_IRCR_set hIRE]
      exact ⟨[.write .IRCR value], rfl, fun _ _ => hIRE⟩
    · rw [write_IRCR_clear hIRE]
      exact ⟨[.write .IRCR value, .clearIR], List.append_assoc _ _ _, fun _ hclear =>
        absurd (List.mem_cons_of_mem _ List.mem_cons_self) hclear⟩
  | SSR =>
    by_cases hTE : s.sci3.SCR.getLsbD SCR_t.TE = true
    · rw [write_SSR_on hTE]
      exact .same rfl rfl
    · rw [write_SSR_off hTE]
      exact .same rfl rfl
  | _ => exact .same rfl rfl

theorem Act.staysOn {s t : H838606} (h : Act s t) : StaysOn s t := by
  cases h with
  | read r _ => cases r <;> exact .same rfl rfl
  | write r value _ => exact write_staysOn r value s
  | reset p _ =>
    refine .same (e := .reset p) (by simp [Peripheral.Reset_log]) ?_
    exact congrArg SCI3.IRCR (p.Reset_rest s).2
  | @receive p _ _ _ h =>
    refine .same (e := .receive p s.ssu.SSTDR)
      (by simp [SSU.transmitted, Peripheral.Receive_log h]) ?_
    exact congrArg SCI3.IRCR (Peripheral.Receive_rest h).2
  | @transmit data p _ _ _ h =>
    refine .same (e := .transmit p data) (by simp [SSU.received, Peripheral.reply_log h]) ?_
    exact congrArg SCI3.IRCR (Peripheral.reply_rest h).2
  | _ => exact .same rfl rfl

theorem Moves.staysOn {s t : H838606} (h : Moves s t) : StaysOn s t := by
  induction h with
  | refl => exact ⟨[], by simp, fun hon _ => hon⟩
  | tail _ hmove ih =>
    refine ih.trans ?_
    rcases hmove.act_or_quiet with hact | hquiet
    · exact hact.staysOn
    · have hIRCR := congrArg Lines.IRCR hquiet.lines
      simp only [H838606.lines] at hIRCR
      refine ⟨[], by rw [hquiet.log, List.append_nil], fun hon _ => ?_⟩
      rwa [H838606.infrared, hIRCR]

theorem ReceiveIR_off {s : H838606} (h : ¬s.infrared = true) (data : Byte) :
    SCI3.ReceiveIR data s = .ok ⟨⟩ s := by
  unfold SCI3.ReceiveIR
  rw [bind_ok (get_apply s), Exec.ite_neg h, pure_apply]

theorem ReceiveIR_full {s : H838606} (h : s.infrared = true)
    (hfull : IR_RECEIVE_QUEUE_SIZE ≤ s.sci3.receive_queue.length) (data : Byte) :
    SCI3.ReceiveIR data s = .error (.exception "IR receive queue overflow") s := by
  unfold SCI3.ReceiveIR
  rw [bind_ok (get_apply s), Exec.ite_pos h, Exec.ite_pos hfull, throw_apply]

theorem ReceiveIR_room {s : H838606} (h : s.infrared = true)
    (hroom : ¬IR_RECEIVE_QUEUE_SIZE ≤ s.sci3.receive_queue.length) (data : Byte) :
    SCI3.ReceiveIR data s = .ok ⟨⟩ (SCI3.queued data s) := by
  unfold SCI3.ReceiveIR
  rw [bind_ok (get_apply s), Exec.ite_pos h, Exec.ite_neg hroom, set_apply]

/-- The bytes that a call of `pw_ir_receive` puts into the queue: none if the infrared
function is off, and those that it has room for. -/
theorem receiveAll_fed (bytes : List Byte) (s : H838606) :
    ∃ got, fed (left (receiveAll bytes s)).log = fed s.log ++ got ∧ got.Sublist bytes ∧
      (s.infrared = true → ∀ t, receiveAll bytes s = .ok ⟨⟩ t → got = bytes) := by
  induction bytes generalizing s with
  | nil => exact ⟨[], by simp [receiveAll], .slnil, fun _ _ _ => rfl⟩
  | cons byte bytes ih =>
    by_cases hon : s.infrared = true
    · by_cases hfull : IR_RECEIVE_QUEUE_SIZE ≤ s.sci3.receive_queue.length
      · have hreceive : receiveAll (byte :: bytes) s = .error _ s :=
          bind_error (ReceiveIR_full hon hfull byte)
        rw [hreceive]
        exact ⟨[], by simp, List.nil_sublist _, by simp⟩
      · have hreceive : receiveAll (byte :: bytes) s = receiveAll bytes (SCI3.queued byte s) :=
          bind_ok (ReceiveIR_room hon hfull byte)
        obtain ⟨got, hfed, hsub, hall⟩ := ih (SCI3.queued byte s)
        rw [hreceive]
        refine ⟨byte :: got, ?_, hsub.cons_cons byte, fun hon t hok => ?_⟩
        · rw [hfed]
          simp [SCI3.queued, fed, Event.toQueue]
        · rw [hall hon t hok]
    · have hreceive : receiveAll (byte :: bytes) s = receiveAll bytes s :=
        bind_ok (ReceiveIR_off hon byte)
      obtain ⟨got, hfed, hsub, -⟩ := ih s
      rw [hreceive]
      exact ⟨got, hfed, hsub.cons byte, fun h => absurd h hon⟩

-- ---------------------------------------------------------------------------
-- A poll
-- ---------------------------------------------------------------------------

/-- The link has taken nothing from the window and given nothing to it. -/
def Transfers (p q : Endpoint) : Prop :=
  ∃ es, q.log = p.log ++ es ∧ acceptedBytes es = [] ∧ deliveredBytes es = []

namespace Transfers

theorem same {p q : Endpoint} (h : q.log = p.log) : Transfers p q :=
  ⟨[], by rw [h, List.append_nil], rfl, rfl⟩

theorem one {p q : Endpoint} {e : LinkEvent} (h : q.log = p.log ++ [e])
    (haccepted : acceptedBytes [e] = []) (hdelivered : deliveredBytes [e] = []) : Transfers p q :=
  ⟨[e], h, haccepted, hdelivered⟩

theorem fail (p : Endpoint) (error : String) : Transfers p (p.fail error) := .one rfl rfl rfl

theorem trans {p q r : Endpoint} (h : Transfers p q) (h' : Transfers q r) : Transfers p r := by
  obtain ⟨es, hlog, haccepted, hdelivered⟩ := h
  obtain ⟨es', hlog', haccepted', hdelivered'⟩ := h'
  refine ⟨es ++ es', by rw [hlog', hlog, List.append_assoc], ?_, ?_⟩
  · exact List.flatMap_append.trans (by rw [← acceptedBytes, ← acceptedBytes, haccepted,
      haccepted', List.nil_append])
  · rw [deliveredBytes_append, hdelivered, hdelivered', List.nil_append]

variable (strerror : Errno → String)

theorem acceptPeer (calls : PollCalls) (p : Endpoint) :
    Transfers p (p.acceptPeer strerror calls).1 := by
  unfold Endpoint.acceptPeer
  split
  · split
    · split
      · exact .same rfl
      · exact .fail _ _
    · exact .same rfl
  · exact .same rfl

theorem finishConnect (calls : PollCalls) (p : Endpoint) :
    Transfers p (p.finishConnect strerror calls).1 := by
  unfold Endpoint.finishConnect
  split
  · split
    · split
      · exact .fail _ _
      · exact .fail _ _
      · exact .same rfl
    · exact .same rfl
  · exact .same rfl

theorem sendLoop (outcomes : List (Except Errno Nat)) (p : Endpoint) :
    Transfers p (p.sendLoop strerror outcomes) := by
  induction outcomes generalizing p with
  | nil => exact .same rfl
  | cons outcome rest ih =>
    unfold Endpoint.sendLoop
    split
    · exact .same rfl
    split
    · split
      · exact ih p
      split
      · exact .same rfl
      · exact .fail _ _
    · dsimp only
      split
      · exact .same rfl
      · exact Transfers.trans (.one rfl rfl rfl) (ih _)

theorem recvLoop (passes : Nat) (outcomes : List (Except Errno (List Byte))) (p : Endpoint) :
    Transfers p (p.recvLoop strerror passes outcomes) := by
  induction passes generalizing p outcomes with
  | zero => exact .same rfl
  | succ passes ih =>
    cases outcomes with
    | nil => exact .same rfl
    | cons outcome rest =>
      unfold Endpoint.recvLoop
      split
      · split
        · exact ih rest p
        split
        · exact .same rfl
        · exact .fail _ _
      · dsimp only
        split
        · exact .fail _ _
        split
        · exact .fail _ _
        · exact Transfers.trans (.one rfl rfl rfl) (ih rest _)

theorem pw_link_poll (calls : PollCalls) (p : Endpoint) :
    Transfers p (p.pw_link_poll strerror calls) := by
  unfold Endpoint.pw_link_poll
  split
  · exact .same rfl
  have haccept := acceptPeer strerror calls p
  split
  · rename_i h
    rwa [h] at haccept
  · rename_i q h
    rw [h] at haccept
    have hfinish := finishConnect strerror calls q
    split
    · rename_i h
      rw [h] at hfinish
      exact haccept.trans hfinish
    · rename_i h
      rw [h] at hfinish
      dsimp only
      have hsent := (haccept.trans hfinish).trans (sendLoop strerror calls.send _)
      split
      · exact hsent
      · exact hsent.trans (recvLoop strerror 16 calls.recv _)

end Transfers

-- ---------------------------------------------------------------------------
-- A connected window
-- ---------------------------------------------------------------------------

theorem fed_append (log es : List Event) : fed (log ++ es) = fed log ++ fed es :=
  List.filterMap_append

theorem accepted_append (log es : List IrEvent) : accepted (log ++ es) = accepted log ++ accepted es :=
  List.filterMap_append

/-- A window whose link stays connected, with what the link, the emulator and the SoC
have done. -/
structure Online (p : Station τ) (es : List LinkEvent) (fs : List IrEvent) (ev : List Event)
    (q : Station τ) : Prop where
  link : p.link.Extends es q.link
  seen : q.lastLinkState = 2
  follows : Follows p.emulator q.emulator
  log : q.emulator.log = p.emulator.log ++ fs
  history : q.emulator.soc.log = p.emulator.soc.log ++ ev
  out : acceptedBytes es ++ q.emulator.ir = p.emulator.ir ++ accepted fs
  into : (fed ev).Sublist (deliveredBytes es)
  kept : p.emulator.soc.infrared = true → .clearIR ∉ ev → q.emulator.error = "" →
    fed ev = deliveredBytes es
  error : q.emulator.error = "" → p.emulator.error = ""

namespace Online

variable {p q r : Station τ}

theorem refl (hstate : p.link.state = 2) (hseen : p.lastLinkState = 2) : Online p [] [] [] p where
  link := .refl hstate
  seen := hseen
  follows := .refl _
  log := by simp
  history := by simp
  out := by simp [acceptedBytes, accepted]
  into := .slnil
  kept := fun _ _ _ => rfl
  error := id

theorem trans (h : Online p es fs ev q) (h' : Online q es' fs' ev' r) :
    Online p (es ++ es') (fs ++ fs') (ev ++ ev') r where
  link := h.link.trans h'.link
  seen := h'.seen
  follows := h.follows.trans h'.follows
  log := by rw [h'.log, h.log, List.append_assoc]
  history := by rw [h'.history, h.history, List.append_assoc]
  out := by
    have haccepted : acceptedBytes (es ++ es') = acceptedBytes es ++ acceptedBytes es' :=
      List.flatMap_append
    rw [haccepted, accepted_append, List.append_assoc, h'.out, ← List.append_assoc, h.out,
      List.append_assoc]
  into := by
    rw [fed_append, deliveredBytes_append]
    exact h.into.append h'.into
  kept := by
    rintro hon hclear herror
    rw [List.mem_append, not_or] at hclear
    obtain ⟨ev₁, hlog, hstays⟩ := h.follows.moves.staysOn
    obtain rfl := List.append_cancel_left (h.history.symm.trans hlog)
    rw [fed_append, deliveredBytes_append, h.kept hon hclear.1 (h'.error herror),
      h'.kept (hstays hon hclear.1) hclear.2 herror]
  error := h.error ∘ h'.error

theorem call {emulator : Adapter H838606 τ} (hstate : p.link.state = 2)
    (hseen : p.lastLinkState = 2) (h : Alone p.emulator emulator) :
    ∃ fs ev, Online p [] fs ev { p with emulator := emulator } := by
  obtain ⟨fs, hlog, hir⟩ := h.queue
  obtain ⟨ev, hhistory, -⟩ := h.follows.moves.queued
  have hfed : fed ev = [] := by
    have hfed := h.fed
    rw [hhistory, fed_append] at hfed
    exact List.append_cancel_left (hfed.trans (List.append_nil _).symm)
  refine ⟨fs, ev, .refl hstate, hseen, h.follows, hlog, hhistory, hir, ?_, fun _ _ _ => hfed, h.error⟩
  rw [hfed]
  exact List.nil_sublist _

theorem send {emulator : Adapter H838606 τ} {link : Endpoint} (hseen : p.lastLinkState = 2)
    (h : p.emulator.pw_ir_transmit n = (emulator, bytes)) (hlink : p.link.Extends es link)
    (haccepted : acceptedBytes es = bytes) (hdelivered : deliveredBytes es = []) :
    Online p es [.returned bytes] [] { p with emulator := emulator, link := link } := by
  obtain ⟨hir, heq⟩ := Station.transmit_eq h
  have hsoc : emulator.soc = p.emulator.soc := by rw [heq]
  have hlog : emulator.log = p.emulator.log ++ [.returned bytes] := by rw [heq]
  have herror : emulator.error = p.emulator.error := by rw [heq]
  refine ⟨hlink, hseen, ⟨hsoc ▸ .refl, fun hsent => ?_⟩, hlog, by simp [hsoc], ?_, ?_, ?_,
    herror.symm.trans⟩
  · rw [hsoc, hsent, hlog, accepted_append]
    exact (List.append_nil _).symm
  · rw [haccepted, hir]
    exact (List.append_nil _).symm
  · exact List.nil_sublist _
  · rintro - - -
    exact hdelivered.symm

theorem receive {link : Endpoint} (hstate : p.link.state = 2) (hseen : p.lastLinkState = 2)
    (h : p.link.pw_link_read n = (link, bytes)) :
    ∃ ev, Online p [.delivered bytes] [] ev { p with
      link := link, emulator := (pw_ir_receive bytes p.emulator).1 } := by
  have hlink : p.link.Extends [.delivered bytes] link := by
    cases h
    exact .delivered hstate n
  have hdelivered : deliveredBytes [.delivered bytes] = bytes := List.append_nil _
  have hfollows := Follows.receive bytes p.emulator
  obtain ⟨ev, hhistory, -⟩ := hfollows.moves.queued
  obtain ⟨got, hfed, hsub, hall⟩ := receiveAll_fed bytes p.emulator.soc
  have hgot : fed ev = got := by
    refine (List.append_right_inj (fed p.emulator.soc.log)).mp ?_
    rw [← fed_append, ← hhistory, ← hfed]
    unfold pw_ir_receive
    split <;> rename_i h <;> rw [h] <;> rfl
  have hrest : (pw_ir_receive bytes p.emulator).1.log = p.emulator.log ∧
      (pw_ir_receive bytes p.emulator).1.ir = p.emulator.ir := by
    unfold pw_ir_receive
    split <;> exact ⟨rfl, rfl⟩
  refine ⟨ev, hlink, hseen, hfollows, by simp [hrest.1], hhistory, ?_, ?_, ?_, ?_⟩
  · rw [hrest.2]
    exact (List.append_nil _).symm
  · rw [hgot, hdelivered]
    exact hsub
  · rintro hon - herror
    rw [hgot, hdelivered]
    unfold pw_ir_receive at herror
    split at herror
    · rename_i h
      exact hall hon _ h
    · rename_i h
      exact absurd herror ((receiveAll_byMoves bytes).throws _ _ _ h)
  · rintro herror
    unfold pw_ir_receive at herror
    split at herror
    · exact herror
    · rename_i h
      exact absurd herror ((receiveAll_byMoves bytes).throws _ _ _ h)

theorem poll (hseen : p.lastLinkState = 2) (hlink : p.link.Extends es
    (p.link.pw_link_poll strerror calls)) : Online p es [] [] (p.poll strerror calls) := by
  obtain ⟨es', hlog, haccepted, hdelivered⟩ := Transfers.pw_link_poll strerror calls p.link
  obtain rfl := List.append_cancel_left (hlink.log.symm.trans hlog)
  have hsame : (p.poll strerror calls).emulator = p.emulator := by
    have hstate := hlink.state
    exact if_neg (by simp [hseen, hstate])
  refine ⟨hlink, hlink.state, hsame ▸ .refl _, ?_, ?_, ?_, ?_, ?_, ?_⟩
  · rw [hsame, List.append_nil]
  · rw [hsame, List.append_nil]
  · rw [hsame, haccepted]
    exact (List.append_nil _).symm
  · exact List.nil_sublist _
  · rintro - - -
    exact hdelivered.symm
  · rw [hsame]
    exact id

end Online

-- ---------------------------------------------------------------------------
-- A pump
-- ---------------------------------------------------------------------------

namespace Station

theorem pw_link_send_connected {p : Endpoint} (hstate : p.state = 2) (data : List Byte) :
    (p.pw_link_send data).1.state = -1 ∨
      p.Extends [.accepted data] (p.pw_link_send data).1 := by
  unfold Endpoint.pw_link_send
  rw [if_neg (not_not.mpr hstate)]
  split
  · exact .inl rfl
  · exact .inr (.accepted hstate data)

theorem transmitLoop_failed {state : Int} {p q : Station τ} (hstate : p.link.state = -1)
    (h : transmitLoop state passes p = some q) : q.link.state = -1 := by
  induction passes generalizing p with
  | zero => cases h
  | succ passes ih =>
    unfold transmitLoop at h
    split at h
    · cases h
      exact hstate
    · refine ih ?_ h
      dsimp only
      split
      · unfold Endpoint.pw_link_send
        rw [if_pos (by rw [hstate]; decide)]
        exact hstate
      · exact hstate

theorem transmitLoop_online {p q : Station τ} (hstate : p.link.state = 2)
    (hseen : p.lastLinkState = 2) (h : transmitLoop 2 passes p = some q) :
    q.link.state = -1 ∨ ∃ es fs ev, Online p es fs ev q := by
  induction passes generalizing p with
  | zero => cases h
  | succ passes ih =>
    unfold transmitLoop at h
    split at h
    · rename_i htransmit
      cases h
      exact .inr ⟨_, _, _, .send hseen htransmit (.refl hstate) rfl rfl⟩
    · rename_i bytes _ htransmit
      simp only [↓reduceIte] at h
      rcases pw_link_send_connected hstate bytes with hfailed | hext
      · exact .inl (transmitLoop_failed hfailed h)
      · have hsend := Online.send hseen htransmit hext (List.append_nil _) rfl
        rcases ih hsend.link.state hseen h with hfailed | ⟨es, fs, ev, hrest⟩
        · exact .inl hfailed
        · exact .inr ⟨_, _, _, hsend.trans hrest⟩

theorem receiveLoop_state {p q : Station τ} (h : receiveLoop passes p = some q) :
    q.link.state = p.link.state := by
  induction passes generalizing p with
  | zero => cases h
  | succ passes ih =>
    unfold receiveLoop at h
    split at h
    · rename_i link hread
      cases h
      obtain rfl : (p.link.pw_link_read CHUNK).1 = link := congrArg Prod.fst hread
      rfl
    · rename_i link _ _ hread
      obtain rfl : (p.link.pw_link_read CHUNK).1 = link := congrArg Prod.fst hread
      have hrest := ih h
      exact hrest

theorem receiveLoop_online {p q : Station τ} (hstate : p.link.state = 2)
    (hseen : p.lastLinkState = 2) (h : receiveLoop passes p = some q) :
    ∃ es fs ev, Online p es fs ev q := by
  induction passes generalizing p with
  | zero => cases h
  | succ passes ih =>
    unfold receiveLoop at h
    split at h
    · rename_i hread
      cases h
      obtain ⟨ev, honline⟩ := Online.receive hstate hseen hread
      exact ⟨_, _, _, honline⟩
    · rename_i hread
      obtain ⟨ev, honline⟩ := Online.receive hstate hseen hread
      obtain ⟨es, fs, ev', hrest⟩ := ih honline.link.state hseen h
      exact ⟨_, _, _, honline.trans hrest⟩

/-- A pump of a connected window: the link has failed, or everything is accounted for. -/
theorem pumpIR_online {p q : Station τ} (hstate : p.link.state = 2) (hseen : p.lastLinkState = 2)
    (h : p.pumpIR strerror calls passes = some q) :
    q.link.state = -1 ∨ ∃ es fs ev, Online p es fs ev q := by
  unfold pumpIR at h
  dsimp only at h
  obtain ⟨r, htransmit, hreceive⟩ := Option.bind_eq_some_iff.mp h
  have hend := receiveLoop_state hreceive
  rcases Endpoint.pw_link_poll_continues hstate calls with hfailed | ⟨es, hext⟩
  · exact .inl (hend.trans (transmitLoop_failed hfailed htransmit))
  · have hpoll := Online.poll hseen hext
    have hpolled : (p.poll strerror calls).link.state = 2 := hext.state
    rw [hpolled] at htransmit
    rcases transmitLoop_online hpolled hext.state htransmit with hfailed | ⟨_, _, _, htransmit⟩
    · exact .inl (hend.trans hfailed)
    · obtain ⟨_, _, _, hreceive⟩ := receiveLoop_online htransmit.link.state htransmit.seen hreceive
      exact .inr ⟨_, _, _, (hpoll.trans htransmit).trans hreceive⟩

theorem pumpIR_failed {p q : Station τ} (hstate : p.link.state = -1)
    (h : p.pumpIR strerror calls passes = some q) : q.link.state = -1 := by
  unfold pumpIR at h
  dsimp only at h
  obtain ⟨r, htransmit, hreceive⟩ := Option.bind_eq_some_iff.mp h
  rw [receiveLoop_state hreceive]
  refine transmitLoop_failed ?_ htransmit
  exact @Endpoint.apply_failed strerror p.link hstate (.poll calls) rfl

end Station

end PokeStroller.Soc
