import PokeStroller.Link.Sessions

/-!
# The byte stream between two links

Two connected links and what is in flight between them. Each direction of the
connection is a FIFO: `send` puts bytes of its choice of what it is offered
into it, `recv` takes any front part of what is in it. The calls at the two
ends come in any order.
-/

namespace PokeStroller

def LinkOp.transfers : LinkOp → Bool
  | .poll _ => true
  | .send _ => true
  | .read _ => true
  | _ => false

namespace LinkEvent

def outgoing : LinkEvent → Option (FifoEvent Byte)
  | sent bytes => some (.put bytes)
  | _ => none

def incoming : LinkEvent → Option (FifoEvent Byte)
  | received bytes => some (.take bytes)
  | _ => none

end LinkEvent

structure System where
  a : Endpoint
  b : Endpoint
  ab : List Byte := []
  ba : List Byte := []
  deriving DecidableEq, Repr

/-- A call at `p`, with the directions from and to it. -/
inductive Endpoint.Call (strerror : Errno → String) :
    Endpoint → List Byte → List Byte → LinkOp → Endpoint → List Byte → List Byte → Prop
  | mk {p : Endpoint} {op : LinkOp} (es : List LinkEvent) : op.transfers = true →
      (op.apply strerror p).log = p.log ++ es →
      Runs Fifo.Step out (es.filterMap LinkEvent.outgoing) out' →
      Runs Fifo.Step inn (es.filterMap LinkEvent.incoming) inn' →
      Call strerror p out inn op (op.apply strerror p) out' inn'

inductive Side
  | a
  | b
  deriving DecidableEq, Repr

inductive System.Step (strerror : Errno → String) : System → Side × LinkOp → System → Prop
  | atA {s : System} {a' : Endpoint} :
      Endpoint.Call strerror s.a s.ab s.ba op a' ab' ba' →
      Step strerror s (.a, op) { s with a := a', ab := ab', ba := ba' }
  | atB {s : System} {b' : Endpoint} :
      Endpoint.Call strerror s.b s.ba s.ab op b' ba' ab' →
      Step strerror s (.b, op) { s with b := b', ab := ab', ba := ba' }

/-- Both ends have just connected. -/
structure System.Fresh (s : System) : Prop where
  a : s.a.state = 2 ∧ s.a.tx = [] ∧ s.a.rx = [] ∧ linkSession s.a.log = []
  b : s.b.state = 2 ∧ s.b.tx = [] ∧ s.b.rx = [] ∧ linkSession s.b.log = []
  ab : s.ab = []
  ba : s.ba = []

-- ---------------------------------------------------------------------------
-- One call
-- ---------------------------------------------------------------------------

namespace Endpoint

/-- A connected link after more of its session. -/
structure Extends (p : Endpoint) (es : List LinkEvent) (q : Endpoint) : Prop where
  state : q.state = 2
  log : q.log = p.log ++ es
  unclosed : .closed ∉ es
  tx : Runs Fifo.Step p.tx (es.filterMap LinkEvent.tx) q.tx
  rx : Runs Fifo.Step p.rx (es.filterMap LinkEvent.rx) q.rx

/-- A connected link after calls: still connected, or failed. -/
def Continues (p q : Endpoint) : Prop := q.state = -1 ∨ ∃ es, p.Extends es q

theorem Extends.refl {p : Endpoint} (h : p.state = 2) : p.Extends [] p :=
  ⟨h, by simp, by simp, .nil _, .nil _⟩

theorem Extends.trans {p q r : Endpoint} (h : p.Extends es q) (h' : q.Extends fs r) :
    p.Extends (es ++ fs) r where
  state := h'.state
  log := by rw [h'.log, h.log, List.append_assoc]
  unclosed := by simp [h.unclosed, h'.unclosed]
  tx := h.tx.append_filterMap h'.tx
  rx := h.rx.append_filterMap h'.rx

theorem Extends.sent {p : Endpoint} (h : p.state = 2) (n : Nat) :
    p.Extends [.sent (p.tx.take n)]
      { p with tx := p.tx.drop n, log := p.log ++ [.sent (p.tx.take n)] } :=
  ⟨h, rfl, by simp, .single (.front _ _), .nil _⟩

theorem Extends.received {p : Endpoint} (h : p.state = 2) (bytes : List Byte) :
    p.Extends [.received bytes]
      { p with rx := p.rx ++ bytes, log := p.log ++ [.received bytes] } :=
  ⟨h, rfl, by simp, .nil _, .single (.put _ _)⟩

theorem Extends.accepted {p : Endpoint} (h : p.state = 2) (data : List Byte) :
    p.Extends [.accepted data] { p with tx := p.tx ++ data, log := p.log ++ [.accepted data] } :=
  ⟨h, rfl, by simp, .single (.put _ _), .nil _⟩

theorem Extends.delivered {p : Endpoint} (h : p.state = 2) (capacity : Nat) :
    p.Extends [.delivered (p.pw_link_read capacity).2] (p.pw_link_read capacity).1 :=
  ⟨h, rfl, by simp, .nil _, .single (.front _ _)⟩

theorem Continues.refl {p : Endpoint} (h : p.state = 2) : p.Continues p := .inr ⟨[], .refl h⟩

theorem Continues.fail (p q : Endpoint) (error : String) : p.Continues (q.fail error) := .inl rfl

theorem Extends.continues {p q r : Endpoint} (h : p.Extends es q) (h' : q.Continues r) :
    p.Continues r := by
  rcases h' with hfailed | ⟨fs, h'⟩
  · exact .inl hfailed
  · exact .inr ⟨es ++ fs, h.trans h'⟩

variable {strerror : Errno → String}

theorem sendLoop_continues {p : Endpoint} (hstate : p.state = 2)
    (outcomes : List (Except Errno Nat)) : p.Continues (p.sendLoop strerror outcomes) := by
  induction outcomes generalizing p with
  | nil => exact .refl hstate
  | cons outcome rest ih =>
    unfold Endpoint.sendLoop
    split
    · exact .refl hstate
    split
    · split
      · exact ih hstate
      split
      · exact .refl hstate
      · exact .fail _ _ _
    · dsimp only
      split
      · exact .refl hstate
      · exact (Extends.sent hstate _).continues (ih hstate)

theorem recvLoop_continues {p : Endpoint} (hstate : p.state = 2) (passes : Nat)
    (outcomes : List (Except Errno (List Byte))) :
    p.Continues (p.recvLoop strerror passes outcomes) := by
  induction passes generalizing p outcomes with
  | zero => exact .refl hstate
  | succ passes ih =>
    cases outcomes with
    | nil => exact .refl hstate
    | cons outcome rest =>
      unfold Endpoint.recvLoop
      split
      · split
        · exact ih hstate rest
        split
        · exact .refl hstate
        · exact .fail _ _ _
      · rename_i bytes
        dsimp only
        split
        · exact .fail _ _ _
        split
        · exact .fail _ _ _
        · have hnext := Extends.received hstate (bytes.take LINK_CHUNK)
          exact hnext.continues (ih hnext.state rest)

/-- The part of the poll before the transfers leaves a connected link alone,
or fails, or takes another peer for it. -/
theorem acceptPeer_connected {p q : Endpoint} (hstate : p.state = 2)
    (hq : p.acceptPeer strerror calls = (q, more)) : p.Continues q ∧ (more = true → q.state = 2) := by
  unfold Endpoint.acceptPeer at hq
  split at hq
  · split at hq
    · split at hq
      · cases hq
        exact ⟨.refl hstate, nofun⟩
      · cases hq
        exact ⟨.fail _ _ _, nofun⟩
    · cases hq
      exact ⟨.inr ⟨[], rfl, by simp, by simp, .nil _, .nil _⟩, fun _ => rfl⟩
  · cases hq
    exact ⟨.refl hstate, fun _ => hstate⟩

theorem Continues.trans {p q r : Endpoint} (h : p.Continues q) (hq : q.state = 2)
    (h' : q.Continues r) : p.Continues r := by
  rcases h with hfailed | ⟨es, h⟩
  · omega
  · exact h.continues h'

theorem pw_link_poll_continues {p : Endpoint} (hstate : p.state = 2) (calls : PollCalls) :
    p.Continues (p.pw_link_poll strerror calls) := by
  unfold Endpoint.pw_link_poll
  split
  · exact .refl hstate
  split
  · rename_i q haccept
    exact (acceptPeer_connected hstate haccept).1
  rename_i q haccept
  obtain ⟨hpq, hmore⟩ := acceptPeer_connected hstate haccept
  have hq := hmore rfl
  have hfinish : q.finishConnect strerror calls = (q, true) := if_neg (by omega)
  rw [hfinish]
  dsimp only
  have hsent : q.Continues (q.sendLoop strerror calls.send) := sendLoop_continues hq calls.send
  split
  · exact hpq.trans hq hsent
  · rename_i hstill
    have hstill := not_not.mp hstill
    exact hpq.trans hq (hsent.trans hstill (recvLoop_continues hstill 16 calls.recv))

theorem pw_link_send_continues {p : Endpoint} (hstate : p.state = 2) (data : List Byte) :
    p.Continues (p.pw_link_send data).1 := by
  unfold Endpoint.pw_link_send
  rw [if_neg (not_not.mpr hstate)]
  split
  · exact .fail _ _ _
  · exact .inr ⟨[.accepted data], .accepted hstate data⟩

theorem pw_link_read_continues {p : Endpoint} (hstate : p.state = 2) (capacity : Nat) :
    p.Continues (p.pw_link_read capacity).1 :=
  .inr ⟨[.delivered _], .delivered hstate capacity⟩

theorem apply_continues {p : Endpoint} (hstate : p.state = 2) {op : LinkOp}
    (hop : op.transfers = true) : p.Continues (op.apply strerror p) := by
  cases op with
  | poll calls => exact pw_link_poll_continues hstate calls
  | send data => exact pw_link_send_continues hstate data
  | read capacity => exact pw_link_read_continues hstate capacity
  | _ => cases hop

theorem apply_failed {p : Endpoint} (hstate : p.state = -1) {op : LinkOp}
    (hop : op.transfers = true) : (op.apply strerror p).state = -1 := by
  cases op with
  | poll calls => simp [LinkOp.apply, Endpoint.pw_link_poll, hstate]
  | send data => simp [LinkOp.apply, Endpoint.pw_link_send, hstate]
  | read capacity => exact hstate
  | _ => cases hop

-- ---------------------------------------------------------------------------
-- The directions
-- ---------------------------------------------------------------------------

theorem outgoing_runs {es : List LinkEvent}
    (h : Runs Fifo.Step out (es.filterMap LinkEvent.outgoing) out') :
    out' = out ++ sentBytes es := by
  induction es generalizing out with
  | nil =>
    cases h
    simp [sentBytes]
  | cons e es ih =>
    cases e with
    | sent bytes =>
      cases h with
      | cons hstep hrest =>
        cases hstep
        rw [ih hrest, List.append_assoc]
        rfl
    | _ => exact ih h

theorem incoming_runs {es : List LinkEvent}
    (h : Runs Fifo.Step inn (es.filterMap LinkEvent.incoming) inn') :
    inn = receivedBytes es ++ inn' := by
  induction es generalizing inn with
  | nil =>
    cases h
    rfl
  | cons e es ih =>
    cases e with
    | received bytes =>
      cases h with
      | cons hstep hrest =>
        cases hstep
        rw [ih hrest, ← List.append_assoc]
        rfl
    | _ => exact ih h

theorem Call.flows {p q : Endpoint} (h : Call strerror p out inn op q out' inn')
    (hstate : p.state = 2) :
    q.state = -1 ∨ ∃ es, p.Extends es q ∧ out' = out ++ sentBytes es ∧
      inn = receivedBytes es ++ inn' := by
  cases h with
  | mk es hop hlog hout hin =>
    have hcall : p.Continues (op.apply strerror p) := apply_continues hstate hop
    rcases hcall with hfailed | ⟨es', hext⟩
    · exact .inl hfailed
    · obtain rfl : es = es' := List.append_cancel_left (hlog.symm.trans hext.log)
      exact .inr ⟨es, hext, outgoing_runs hout, incoming_runs hin⟩

theorem Call.failed {p q : Endpoint} (h : Call strerror p out inn op q out' inn')
    (hstate : p.state = -1) : q.state = -1 := by
  cases h with
  | mk _ hop => exact apply_failed hstate hop

theorem Extends.no_reset {p q : Endpoint} (h : p.Extends es q)
    {f : LinkEvent → Option (FifoEvent Byte)} (hf : ∀ e, f e = some .reset → e = .closed) :
    .reset ∉ es.filterMap f := by
  intro hmem
  obtain ⟨e, he, hfe⟩ := List.mem_filterMap.mp hmem
  exact h.unclosed (hf e hfe ▸ he)

theorem Extends.written {p q : Endpoint} (h : p.Extends es q) :
    sentBytes es ++ q.tx = p.tx ++ acceptedBytes es := by
  have hreset : FifoEvent.reset ∉ es.filterMap LinkEvent.tx := by
    refine h.no_reset fun e he => ?_
    cases e with
    | closed => rfl
    | _ => cases he
  have htaken := Fifo.takes_append h.tx hreset
  rwa [takes_tx, puts_tx] at htaken

theorem Extends.read {p q : Endpoint} (h : p.Extends es q) :
    deliveredBytes es ++ q.rx = p.rx ++ receivedBytes es := by
  have hreset : FifoEvent.reset ∉ es.filterMap LinkEvent.rx := by
    refine h.no_reset fun e he => ?_
    cases e with
    | closed => rfl
    | _ => cases he
  have htaken := Fifo.takes_append h.rx hreset
  rwa [takes_rx, puts_rx] at htaken

theorem Extends.session {p q : Endpoint} (h : p.Extends es q) (htx : p.tx = []) (hrx : p.rx = [])
    (hlog : linkSession p.log = []) :
    linkSession q.log = es ∧ sentBytes es ++ q.tx = acceptedBytes es ∧
      deliveredBytes es ++ q.rx = receivedBytes es := by
  have hwritten := h.written
  rw [htx, List.nil_append] at hwritten
  have hread := h.read
  rw [hrx, List.nil_append] at hread
  refine ⟨?_, hwritten, hread⟩
  rw [h.log, linkSession_append h.unclosed, hlog, List.nil_append]

end Endpoint

-- ---------------------------------------------------------------------------
-- Runs
-- ---------------------------------------------------------------------------

namespace System

/-- Since `s`: an end has failed, or what each end sent is what the other
received and what is in flight. -/
def Flows (s t : System) : Prop :=
  t.a.state = -1 ∨ t.b.state = -1 ∨ ∃ ea eb, s.a.Extends ea t.a ∧ s.b.Extends eb t.b ∧
    sentBytes ea = receivedBytes eb ++ t.ab ∧ sentBytes eb = receivedBytes ea ++ t.ba

variable {strerror : Errno → String}

theorem Step.flows {s t u : System} (h : Flows s t) (hstep : Step strerror t x u) : Flows s u := by
  rcases h with ha | hb | ⟨ea, eb, hea, heb, hab, hba⟩
  · cases hstep with
    | atA hcall => exact .inl (hcall.failed ha)
    | atB => exact .inl ha
  · cases hstep with
    | atA => exact .inr (.inl hb)
    | atB hcall => exact .inr (.inl (hcall.failed hb))
  · cases hstep with
    | atA hcall =>
      rcases hcall.flows hea.state with hfailed | ⟨es, hext, hout, hin⟩
      · exact .inl hfailed
      · refine .inr (.inr ⟨ea ++ es, eb, hea.trans hext, heb, ?_, ?_⟩)
        · rw [sentBytes_append, hab, hout, List.append_assoc]
        · rw [receivedBytes_append, hba, hin, List.append_assoc]
    | atB hcall =>
      rcases hcall.flows heb.state with hfailed | ⟨es, hext, hout, hin⟩
      · exact .inr (.inl hfailed)
      · refine .inr (.inr ⟨ea, eb ++ es, hea, heb.trans hext, ?_, ?_⟩)
        · rw [receivedBytes_append, hab, hin, List.append_assoc]
        · rw [sentBytes_append, hba, hout, List.append_assoc]

theorem Fresh.flows {s : System} (h : s.Fresh) : Flows s s := by
  refine .inr (.inr ⟨[], [], .refl h.a.1, .refl h.b.1, ?_, ?_⟩)
  · rw [h.ab]; rfl
  · rw [h.ba]; rfl

/-- Between two connected links, as long as neither has failed, each direction
carries exactly the accepted data, in order: first what has been delivered,
then what waits in `rx`, what is in flight, and what waits in `tx`. -/
theorem stream_integrity {s t : System} (hfresh : s.Fresh) (h : Runs (Step strerror) s ops t)
    (ha : t.a.state = 2) (hb : t.b.state = 2) :
    deliveredBytes (linkSession t.b.log) ++ t.b.rx ++ t.ab ++ t.a.tx =
        acceptedBytes (linkSession t.a.log) ∧
      deliveredBytes (linkSession t.a.log) ++ t.a.rx ++ t.ba ++ t.b.tx =
        acceptedBytes (linkSession t.b.log) := by
  have hflows := h.invariant (I := Flows s) (fun _ _ _ hstep hs => hstep.flows hs) hfresh.flows
  rcases hflows with hfailed | hfailed | ⟨ea, eb, hea, heb, hab, hba⟩
  · omega
  · omega
  obtain ⟨-, hatx, harx, halog⟩ := hfresh.a
  obtain ⟨-, hbtx, hbrx, hblog⟩ := hfresh.b
  obtain ⟨hla, hsentA, hreadA⟩ := hea.session hatx harx halog
  obtain ⟨hlb, hsentB, hreadB⟩ := heb.session hbtx hbrx hblog
  rw [hla, hlb]
  constructor
  · calc deliveredBytes eb ++ t.b.rx ++ t.ab ++ t.a.tx
      _ = receivedBytes eb ++ t.ab ++ t.a.tx := by rw [hreadB]
      _ = sentBytes ea ++ t.a.tx := by rw [hab]
      _ = acceptedBytes ea := hsentA
  · calc deliveredBytes ea ++ t.a.rx ++ t.ba ++ t.b.tx
      _ = receivedBytes ea ++ t.ba ++ t.b.tx := by rw [hreadA]
      _ = sentBytes eb ++ t.b.tx := by rw [hba]
      _ = acceptedBytes eb := hsentB

def connectedPair : System where
  a := { peer := 3, state := 2, port := 10000 }
  b := { server := 4, peer := 5, state := 2, port := 10000 }

/-- Four bytes are sent, of which the socket takes three; two arrive, and one is
read. -/
theorem stream_integrity_partial :
    ∃ t : System, t.b.rx = [2] ∧ t.ab = [3] ∧ t.a.tx = [4] ∧
      deliveredBytes (linkSession t.b.log) ++ t.b.rx ++ t.ab ++ t.a.tx = [1, 2, 3, 4] := by
  have run : ∃ t, Runs (Step fun _ => "error") connectedPair
      [(.a, .send [1, 2, 3, 4]), (.a, .poll { send := [.error .EINTR, .ok 3] }),
       (.b, .poll { recv := [.ok [1, 2], .error .EAGAIN] }), (.b, .read 1)] t ∧
      (t.a.state = 2 ∧ t.b.state = 2) ∧ t.b.rx = [2] ∧ t.ab = [3] ∧ t.a.tx = [4] ∧
      acceptedBytes (linkSession t.a.log) = [1, 2, 3, 4] := by
    refine ⟨_, .cons (.atA (.mk [.accepted [1, 2, 3, 4]] rfl (by decide) (.nil _) (.nil _)))
      (.cons (.atA (.mk [.sent [1, 2, 3]] rfl (by decide) (.single (.put [] [1, 2, 3])) (.nil _)))
      (.cons (.atB (.mk [.received [1, 2]] rfl (by decide) (.nil _) (.single (.take [1, 2] [3]))))
      (.single (.atB (.mk [.delivered [1]] rfl (by decide) (.nil _) (.nil _)))))), ?_⟩
    decide
  obtain ⟨t, hrun, ⟨ha, hb⟩, hrx, hab, htx, haccepted⟩ := run
  have hfresh : connectedPair.Fresh := ⟨⟨rfl, rfl, rfl, rfl⟩, ⟨rfl, rfl, rfl, rfl⟩, rfl, rfl⟩
  exact ⟨t, hrx, hab, htx, (stream_integrity hfresh hrun ha hb).1.trans haccepted⟩

end System

end PokeStroller
