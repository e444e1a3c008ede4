import PokeStroller.Soc.Passing
import PokeStroller.Soc.PumpIR

/-!
# Infrared between two emulators

Two windows whose links are connected, each with an emulator and a firmware of its own.
The emulators run, the windows pump and TCP delivers in any order. What one firmware
writes to `TDR` the other reads from `RDR`.
-/

namespace PokeStroller

def Side.peer : Side → Side
  | .a => .b
  | .b => .a

namespace Side

@[simp] theorem peer_peer (x : Side) : x.peer.peer = x := by cases x <;> rfl

theorem peer_ne (x : Side) : x.peer ≠ x := by cases x <;> nofun

theorem eq_or_peer (x z : Side) : z = x ∨ z = x.peer := by cases x <;> cases z <;> simp [peer]

end Side

namespace Soc

-- ---------------------------------------------------------------------------
-- Sessions
-- ---------------------------------------------------------------------------

/-- The windows, and the bytes that have left the link of a side and are not yet at the
link of its peer. -/
structure Session (τ : Type) where
  stations : Side → Station τ
  flight : Side → List Byte

inductive StationOp
  | call (c : Call)
  | pump
  deriving DecidableEq, Repr

namespace Session

/-- A call at a side, which neither waits for the other nor asks it. -/
inductive Step (localtime : BitVec 64 → Tm) (synthesize : BuzzerInformation → τ → τ × BitVec 16)
    (strerror : Errno → String) : Session τ → Side × StationOp → Session τ → Prop
  | call {s : Session τ} {x : Side} {emulator : Adapter H838606 τ} : c.isLocal = true →
      Emulates localtime synthesize (s.stations x).emulator c emulator →
      Step localtime synthesize strerror s (x, .call c)
        { s with stations := Function.update s.stations x
                   { s.stations x with emulator := emulator } }
  | pump {s : Session τ} {x : Side} {station : Station τ} (calls : PollCalls) (passes : Nat)
      (es : List LinkEvent) :
      (s.stations x).pumpIR strerror calls passes = some station →
      station.link.log = (s.stations x).link.log ++ es →
      Runs Fifo.Step (s.flight x) (es.filterMap LinkEvent.outgoing) out →
      Runs Fifo.Step (s.flight x.peer) (es.filterMap LinkEvent.incoming) inn →
      Step localtime synthesize strerror s (x, .pump)
        { stations := Function.update s.stations x station
          flight := Function.update (Function.update s.flight x out) x.peer inn }

/-- The links are connected, the windows have seen it, and the history of each emulator
is that of its SoC, as it is in every run since `pw_create`. -/
structure Connected (s : Session τ) : Prop where
  link : ∀ x, (s.stations x).link.state = 2
  seen : ∀ x, (s.stations x).lastLinkState = 2
  sent : ∀ x, sent (s.stations x).emulator.soc.log = accepted (s.stations x).emulator.log

/-- The bytes between the two emulators that a side has sent. -/
def between (s : Session τ) (x : Side) : List Byte :=
  (s.stations x.peer).link.rx ++ s.flight x ++ (s.stations x).link.tx ++ (s.stations x).emulator.ir

-- ---------------------------------------------------------------------------
-- Steps
-- ---------------------------------------------------------------------------

/-- Since `s`: a link has failed, or what each side sent is what the other received and
what is in flight. -/
def Flows (s t : Session τ) : Prop :=
  (∃ x, (t.stations x).link.state = -1) ∨ ∃ es : Side → List LinkEvent,
    (∀ x, ∃ fs ev, Online (s.stations x) (es x) fs ev (t.stations x)) ∧
      ∀ x, s.flight x ++ sentBytes (es x) = receivedBytes (es x.peer) ++ t.flight x

variable {localtime : BitVec 64 → Tm} {synthesize : BuzzerInformation → τ → τ × BitVec 16}
  {strerror : Errno → String} {s t u : Session τ}

theorem Connected.flows (h : s.Connected) : Flows s s :=
  .inr ⟨fun _ => [], fun x => ⟨[], [], .refl (h.link x) (h.seen x)⟩, fun x => by
    simp [sentBytes, receivedBytes]⟩

theorem Flows.at {x : Side} {station : Station τ} {es : Side → List LinkEvent}
    (honline : ∀ z, ∃ fs ev, Online (s.stations z) (es z) fs ev (t.stations z))
    (hstep : ∃ fs ev, Online (t.stations x) es' fs ev station) (z : Side) :
    ∃ fs ev, Online (s.stations z) (Function.update es x (es x ++ es') z) fs ev
      (Function.update t.stations x station z) := by
  by_cases hz : z = x
  · subst hz
    rw [Function.update_self, Function.update_self]
    obtain ⟨fs, ev, h⟩ := honline z
    obtain ⟨fs', ev', h'⟩ := hstep
    exact ⟨_, _, h.trans h'⟩
  · rw [Function.update_of_ne hz, Function.update_of_ne hz]
    exact honline z

theorem Step.flows (h : Flows s t) (hstep : Step localtime synthesize strerror t op u) :
    Flows s u := by
  rcases h with ⟨y, hfailed⟩ | ⟨es, honline, hflight⟩
  · refine .inl ⟨y, ?_⟩
    cases hstep with
    | @call _ _ x _ hlocal hcall =>
      by_cases hy : y = x
      · subst hy
        simpa using hfailed
      · simpa [Function.update_of_ne hy] using hfailed
    | @pump _ _ _ x station calls passes es hpump hlog hout hin =>
      by_cases hy : y = x
      · subst hy
        simpa using Station.pumpIR_failed hfailed hpump
      · simpa [Function.update_of_ne hy] using hfailed
  have hstate x : (t.stations x).link.state = 2 := by
    obtain ⟨fs, ev, h⟩ := honline x
    exact h.link.state
  have hseen x : (t.stations x).lastLinkState = 2 := by
    obtain ⟨fs, ev, h⟩ := honline x
    exact h.seen
  cases hstep with
  | @call _ _ x _ hlocal hcall =>
    have hcalled := Online.call (hstate x) (hseen x) (.step hcall hlocal)
    refine .inr ⟨_, Flows.at honline hcalled, fun z => ?_⟩
    simpa using hflight z
  | @pump _ _ _ x station calls passes es' hpump hlog hout hin =>
    rcases Station.pumpIR_online (hstate x) (hseen x) hpump with hfailed | ⟨es₁, fs, ev, hpumped⟩
    · exact .inl ⟨x, by simpa using hfailed⟩
    · obtain rfl := List.append_cancel_left (hlog.symm.trans hpumped.link.log)
      refine .inr ⟨_, Flows.at honline ⟨fs, ev, hpumped⟩, fun z => ?_⟩
      have hout := Endpoint.outgoing_runs hout
      have hin := Endpoint.incoming_runs hin
      have hne : x ≠ x.peer := x.peer_ne.symm
      dsimp only
      rcases x.eq_or_peer z with rfl | rfl
      · rw [Function.update_self, Function.update_of_ne z.peer_ne, Function.update_of_ne hne,
          Function.update_self, sentBytes_append, ← List.append_assoc, hflight, hout,
          List.append_assoc]
      · rw [Side.peer_peer, Function.update_of_ne x.peer_ne, Function.update_self,
          Function.update_self, receivedBytes_append, hflight, Side.peer_peer, hin,
          List.append_assoc]

-- ---------------------------------------------------------------------------
-- Runs
-- ---------------------------------------------------------------------------

/-- Where the bytes are that the emulator of a side has sent since `s`. -/
theorem carried {x : Side} {es : Side → List LinkEvent}
    (hflight : s.flight x ++ sentBytes (es x) = receivedBytes (es x.peer) ++ t.flight x)
    (hsent : Soc.sent (s.stations x).emulator.soc.log = accepted (s.stations x).emulator.log)
    (h : Online (s.stations x) (es x) fs ev (t.stations x))
    (hpeer : Online (s.stations x.peer) (es x.peer) fs' ev' (t.stations x.peer)) :
    deliveredBytes (es x.peer) ++ t.between x = s.between x ++ Soc.sent ev := by
  have hcalls : Soc.sent ev = accepted fs := by
    have hkept := h.follows.sent hsent
    rw [h.history, h.log, accepted_append, ← hsent] at hkept
    exact List.append_cancel_left (List.filterMap_append.symm.trans hkept)
  have hread := hpeer.link.read
  have hwritten := h.link.written
  calc deliveredBytes (es x.peer) ++ t.between x
    _ = (deliveredBytes (es x.peer) ++ (t.stations x.peer).link.rx) ++ t.flight x ++
          (t.stations x).link.tx ++ (t.stations x).emulator.ir := by simp [between]
    _ = (s.stations x.peer).link.rx ++ (receivedBytes (es x.peer) ++ t.flight x) ++
          (t.stations x).link.tx ++ (t.stations x).emulator.ir := by rw [hread]; simp
    _ = (s.stations x.peer).link.rx ++ s.flight x ++ (sentBytes (es x) ++
          (t.stations x).link.tx) ++ (t.stations x).emulator.ir := by rw [← hflight]; simp
    _ = (s.stations x.peer).link.rx ++ s.flight x ++ (s.stations x).link.tx ++
          (acceptedBytes (es x) ++ (t.stations x).emulator.ir) := by rw [hwritten]; simp
    _ = s.between x ++ Soc.sent ev := by rw [h.out, hcalls]; simp [between]

theorem runs_online (hconnected : s.Connected)
    (h : Runs (Step localtime synthesize strerror) s ops t)
    (hlink : ∀ x, (t.stations x).link.state = 2) {ev : Side → List Event}
    (hlog : ∀ x, (t.stations x).emulator.soc.log = (s.stations x).emulator.soc.log ++ ev x) :
    ∃ (es : Side → List LinkEvent) (fs : Side → List IrEvent),
      (∀ x, Online (s.stations x) (es x) (fs x) (ev x) (t.stations x)) ∧
        ∀ x, deliveredBytes (es x.peer) ++ t.between x = s.between x ++ Soc.sent (ev x) := by
  have hflows := h.invariant (I := Flows s) (fun _ _ _ hstep hs => hstep.flows hs) hconnected.flows
  rcases hflows with ⟨x, hfailed⟩ | ⟨es, honline, hflight⟩
  · have hstate := hlink x
    omega
  have hall x : ∃ fs, Online (s.stations x) (es x) fs (ev x) (t.stations x) := by
    obtain ⟨fs, ev', hside⟩ := honline x
    obtain rfl : ev' = ev x := List.append_cancel_left (hside.history.symm.trans (hlog x))
    exact ⟨fs, hside⟩
  choose fs hall using hall
  exact ⟨es, fs, hall, fun x => carried (hflight x) (hconnected.sent x) (hall x) (hall x.peer)⟩

/-- Whatever the firmwares do and TCP delays: while both links are connected, the bytes
that have come to one emulator, then those on the way, are bytes that the other has sent, in
order, and none twice. -/
theorem infrared_in_order (hconnected : s.Connected)
    (h : Runs (Step localtime synthesize strerror) s ops t)
    (hlink : ∀ x, (t.stations x).link.state = 2) (ev : Side → List Event)
    (hlog : ∀ x, (t.stations x).emulator.soc.log = (s.stations x).emulator.soc.log ++ ev x)
    (x : Side) : (fed (ev x.peer) ++ t.between x).Sublist (s.between x ++ Soc.sent (ev x)) := by
  obtain ⟨es, fs, honline, hcarried⟩ := runs_online hconnected h hlink hlog
  rw [← hcarried x]
  exact (honline x.peer).into.append_right _

/-- The bytes between the two firmwares that the one of a side has written. -/
def path (s : Session τ) (x : Side) : List Byte :=
  let sender := (s.stations x).emulator.soc.sci3
  let receiver := (s.stations x.peer).emulator.soc.sci3
  receiver.unread ++ receiver.receive_queue ++ s.between x ++ sender.unsent

/-- If moreover the sending firmware writes `TDR` in turn, the receiving one reads `RDR` in
turn and leaves the infrared function on, and its emulator has not failed, then what the
one has read and what is on the way is exactly what was on the way and what the other has
written. -/
theorem infrared_exactly_once (hconnected : s.Connected)
    (h : Runs (Step localtime synthesize strerror) s ops t)
    (hlink : ∀ x, (t.stations x).link.state = 2) (ev : Side → List Event)
    (hlog : ∀ x, (t.stations x).emulator.soc.log = (s.stations x).emulator.soc.log ++ ev x)
    (x : Side)
    (hsends : MailEvent.Polite MailEvent.sending
      ((s.stations x).emulator.soc.sci3.SSR.getLsbD SSR_t.TDRE)
      ((ev x).filterMap Event.sci3Send))
    (hon : (s.stations x.peer).emulator.soc.infrared = true)
    (hreceives : MailEvent.Polite MailEvent.receiving
      ((s.stations x.peer).emulator.soc.sci3.SSR.getLsbD SSR_t.RDRF)
      ((ev x.peer).filterMap Event.sci3Receive))
    (herror : (t.stations x.peer).emulator.error = "") :
    (ev x.peer).filterMap Event.fromRDR ++ t.path x =
      s.path x ++ (ev x).filterMap Event.toTDR := by
  obtain ⟨es, fs, honline, hcarried⟩ := runs_online hconnected h hlink hlog
  have hside := honline x
  have hpeer := honline x.peer
  have hclear : .clearIR ∉ ev x.peer := fun hmem =>
    polite_no_force hreceives (List.mem_filterMap.mpr ⟨.clearIR, hmem, rfl⟩)
  have hfed := hpeer.kept hon hclear herror
  have hcarried := hcarried x
  have hwritten := sci3_sends_once hside.follows.moves hside.history hsends
  have hread := sci3_receives_once hpeer.follows.moves hpeer.history hreceives
  rw [← fed, hfed] at hread
  dsimp only [path]
  generalize (s.stations x).emulator.soc.sci3.unsent = unsent at hwritten ⊢
  generalize (t.stations x).emulator.soc.sci3.unsent = unsent' at hwritten ⊢
  calc (ev x.peer).filterMap Event.fromRDR ++ ((t.stations x.peer).emulator.soc.sci3.unread ++
        (t.stations x.peer).emulator.soc.sci3.receive_queue ++ t.between x ++ unsent')
    _ = ((ev x.peer).filterMap Event.fromRDR ++ (t.stations x.peer).emulator.soc.sci3.unread ++
          (t.stations x.peer).emulator.soc.sci3.receive_queue) ++ t.between x ++ unsent' := by simp
    _ = (s.stations x.peer).emulator.soc.sci3.unread ++
          (s.stations x.peer).emulator.soc.sci3.receive_queue ++
          (deliveredBytes (es x.peer) ++ t.between x) ++ unsent' := by rw [← hread]; simp
    _ = (s.stations x.peer).emulator.soc.sci3.unread ++
          (s.stations x.peer).emulator.soc.sci3.receive_queue ++ s.between x ++
          (Soc.sent (ev x) ++ unsent') := by rw [hcarried]; simp
    _ = _ := by rw [← hwritten]; simp

-- ---------------------------------------------------------------------------
-- From one firmware to the other
-- ---------------------------------------------------------------------------

/-- `MOV.B R0L, @TDR` and a loop of multiplications. -/
def sendingProgram : List Byte :=
  [0x38, 0x9B] ++ (List.replicate 10 [0x52, 0x00]).flatten ++ [0x40, 0xEA]

/-- `NOP`, `MOV.B @SSR, R0L`, `MOV.B @RDR, R1L` and a loop. -/
def readingProgram : List Byte := [0x00, 0x00, 0x28, 0x9C, 0x29, 0x9D, 0x40, 0xFE]

/-- An emulator at such a program, with the infrared interface on and about to tick. -/
def atProgram (program : List Byte) (SCR SSR : Byte) : Adapter H838606 Unit where
  soc := { H838606.reset (fun i => program.getD (i.val - 0x100) 0) (fun _ => 0xFF) with
    cpu := { PC := 0x100, registers := fun _ => 0xAB }, CKSTPR1 := 0x40
    sci3 := { SCR := SCR, IRCR := 0x80, SSR := SSR, sci3_cycles := 319 } }
  sound := ()

/-- The firmware of the first side sends a byte; that of the second reads one. -/
def talking : Session Unit where
  stations
    | .a =>
      { emulator := atProgram sendingProgram 0x20 0x80
        link := { peer := 3, state := 2, port := 10000 }
        lastLinkState := 2 }
    | .b =>
      { emulator := atProgram readingProgram 0x10 0x80
        link := { server := 4, peer := 5, state := 2, port := 10000 }
        lastLinkState := 2 }
  flight _ := []

theorem talking_connected : talking.Connected where
  link := fun | .a => rfl | .b => rfl
  seen := fun | .a => rfl | .b => rfl
  sent := fun | .a => rfl | .b => rfl

def ran (x : Side) (n : BitVec 32) (s : Session Unit) : Session Unit :=
  { s with stations := Function.update s.stations x
             { s.stations x with emulator := sliced (fun _ => {}) n (s.stations x).emulator } }

def pumped (x : Side) (calls : PollCalls) (out inn : List Byte) (s : Session Unit) :
    Session Unit where
  stations := Function.update s.stations x
    (((s.stations x).pumpIR (fun _ => "error") calls 3).getD (s.stations x))
  flight := Function.update (Function.update s.flight x out) x.peer inn

abbrev SilentStep : Session Unit → Side × StationOp → Session Unit → Prop :=
  Step (fun _ => {}) (fun _ _ => ((), 0)) fun _ => "error"

theorem ran_step {s : Session Unit} {x : Side} {n : BitVec 32}
    (h : ((s.stations x).emulator.pw_run (core (fun _ => {}) fun _ _ => ((), 0))
      (List.replicate n.toNat 0) n).isSome) :
    SilentStep s (x, .call (.host (.run n))) (ran x n s) := .call rfl (sliced_emulates h)

theorem pumped_step {s : Session Unit} {x : Side} (calls : PollCalls) (es : List LinkEvent)
    {out inn : List Byte} (h : ((s.stations x).pumpIR (fun _ => "error") calls 3).isSome)
    (hlog : ((pumped x calls out inn s).stations x).link.log = (s.stations x).link.log ++ es)
    (hout : Runs Fifo.Step (s.flight x) (es.filterMap LinkEvent.outgoing) out)
    (hinn : Runs Fifo.Step (s.flight x.peer) (es.filterMap LinkEvent.incoming) inn) :
    SilentStep s (x, .pump) (pumped x calls out inn s) := by
  obtain ⟨station, hstation⟩ := Option.isSome_iff_exists.mp h
  unfold pumped at hlog ⊢
  rw [hstation, Option.getD_some] at hlog ⊢
  dsimp only at hlog
  rw [Function.update_self] at hlog
  exact .pump calls 3 es hstation hlog hout hinn

/-- The first firmware sends, both windows pump, and the second firmware reads. -/
def talked : Session Unit :=
  ran .b 10 <| pumped .b { recv := [.ok [0xAB]] } [] [] <|
    pumped .a { send := [.ok 1] } [0xAB] [] <| pumped .a {} [] [] <| ran .a 1000 talking

theorem talking_runs : Runs SilentStep talking
    [(.a, .call (.host (.run 1000))), (.a, .pump), (.a, .pump), (.b, .pump),
      (.b, .call (.host (.run 10)))] talked :=
  .cons (ran_step (by decide +kernel)) <|
    .cons (pumped_step {} [.accepted [0xAB], .delivered []] (by decide +kernel) (by decide +kernel)
      (.nil _) (.nil _)) <|
    .cons (pumped_step { send := [.ok 1] } [.sent [0xAB], .delivered []] (by decide +kernel)
      (by decide +kernel) (.single (.put [] [0xAB])) (.nil _)) <|
    .cons (pumped_step { recv := [.ok [0xAB]] } [.received [0xAB], .delivered [0xAB], .delivered []]
      (by decide +kernel) (by decide +kernel) (.nil _) (.single (.take [0xAB] []))) <|
    .single (ran_step (by decide +kernel))

def talkedEvents : Side → List Event
  | .a => [.write .TDR 0xAB, .transmitIR 0xAB]
  | .b => [.receiveIR 0xAB, .takeIR 0xAB, .read .SSR 0xC0, .read .RDR 0xAB]

theorem talked_links (x : Side) : (talked.stations x).link.state = 2 := by
  cases x <;> decide +kernel

theorem talked_log (x : Side) : (talked.stations x).emulator.soc.log =
    (talking.stations x).emulator.soc.log ++ talkedEvents x := by
  cases x <;> decide +kernel

theorem infrared_in_order_byte : ∃ t ops, Runs SilentStep talking ops t ∧
    ([0xAB] ++ t.between .a).Sublist [0xAB] :=
  ⟨talked, _, talking_runs,
    infrared_in_order talking_connected talking_runs talked_links _ talked_log .a⟩

theorem infrared_exactly_once_byte : ∃ t ops, Runs SilentStep talking ops t ∧
    .write .TDR 0xAB ∈ (t.stations .a).emulator.soc.log ∧
    .read .RDR 0xAB ∈ (t.stations .b).emulator.soc.log ∧ t.path .a = [] := by
  have honce := infrared_exactly_once talking_connected talking_runs talked_links _ talked_log .a
    (by decide +kernel) (by decide +kernel) (by decide +kernel) (by decide +kernel)
  refine ⟨talked, _, talking_runs, ?_, ?_, List.append_cancel_left honce⟩
  · rw [talked_log]
    exact List.mem_append_right _ (by simp [talkedEvents])
  · rw [talked_log]
    exact List.mem_append_right _ (by simp [talkedEvents])

end Session

end Soc

end PokeStroller
