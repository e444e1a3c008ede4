import PokeStroller.Link.Stream

/-!
# The end of a connection

One end hands everything to the socket and closes; the other polls and reads.
The end of the stream comes after the last byte, and the poll that sees it
closes the link and drops what has not been read.
-/

namespace PokeStroller

/-- Results of `recv` on a reliable connection with `inn` in flight: the bytes
come in order, in any pieces and as late as they like, and after the last of
them the end, once the other side has closed. -/
inductive Receives (ended : Bool) : List Byte → List (Except Errno (List Byte)) → Prop
  | none (inn : List Byte) : Receives ended inn []
  | interrupted : Receives ended inn rest → Receives ended inn (.error .EINTR :: rest)
  | pending {e : Errno} : e.refused = true → Receives ended inn (.error e :: rest)
  | data {bytes : List Byte} : bytes ≠ [] → bytes.length ≤ LINK_CHUNK →
      Receives ended inn rest → Receives ended (bytes ++ inn) (.ok bytes :: rest)
  | closed : ended = true → Receives ended [] (.ok [] :: rest)

/-- What the receive loop takes in with some passes left, and whether it comes to
the end of the stream. -/
def arrived : Nat → List (Except Errno (List Byte)) → List Byte × Bool
  | 0, _ => ([], false)
  | _, [] => ([], false)
  | passes + 1, .error e :: rest => if e = .EINTR then arrived passes rest else ([], false)
  | passes + 1, .ok bytes :: rest =>
    if bytes = [] then ([], true)
    else (bytes ++ (arrived passes rest).1, (arrived passes rest).2)

/-- Two links; `ended` is set when `a` has closed. -/
structure Closing extends System where
  ended : Bool := false
  deriving DecidableEq, Repr

/-- The call at `b` meets a reliable connection, and neither queue runs over. -/
def Closing.Reliable (s : Closing) : LinkOp → Prop
  | .poll calls => Receives s.ended s.ab calls.recv ∧
      (∀ e, .error e ∈ calls.send → e = .EINTR ∨ e.refused = true) ∧
      s.b.rx.length + (arrived 16 calls.recv).1.length ≤ LINK_QUEUE_SIZE
  | .send data => data.length ≤ sizeSub LINK_QUEUE_SIZE s.b.tx.length
  | _ => True

/-- `a` may close when its transmit queue is empty, and does nothing afterwards. -/
inductive Closing.Step (strerror : Errno → String) : Closing → Side × LinkOp → Closing → Prop
  | atA {s : Closing} {a' : Endpoint} : s.ended = false →
      Endpoint.Call strerror s.a s.ab s.ba op a' ab' ba' →
      Step strerror s (.a, op) { s with a := a', ab := ab', ba := ba' }
  | close {s : Closing} : s.ended = false → s.a.tx = [] →
      Step strerror s (.a, .close) { s with a := s.a.pw_link_close, ended := true }
  | atB {s : Closing} {b' : Endpoint} : s.Reliable op →
      Endpoint.Call strerror s.b s.ba s.ab op b' ba' ab' →
      Step strerror s (.b, op) { s with b := b', ab := ab', ba := ba' }

-- ---------------------------------------------------------------------------
-- One call at the end that reads
-- ---------------------------------------------------------------------------

namespace Endpoint

variable {strerror : Errno → String}

/-- A stretch of a poll: still connected to the same peer, nothing delivered,
and these bytes received. -/
structure Polls (p : Endpoint) (es : List LinkEvent) (data : List Byte) (q : Endpoint) : Prop where
  session : p.Extends es q
  received : receivedBytes es = data
  delivered : deliveredBytes es = []
  peer : q.peer = p.peer

theorem Polls.refl {p : Endpoint} (h : p.state = 2) : p.Polls [] [] p := ⟨.refl h, rfl, rfl, rfl⟩

theorem Polls.trans {p q r : Endpoint} (h : p.Polls es data q) (h' : q.Polls fs data' r) :
    p.Polls (es ++ fs) (data ++ data') r where
  session := h.session.trans h'.session
  received := by rw [receivedBytes_append, h.received, h'.received]
  delivered := by
    rw [deliveredBytes_append, h.delivered, h'.delivered]
    rfl
  peer := h'.peer.trans h.peer

theorem sendLoop_polls {p : Endpoint} (hstate : p.state = 2) {outcomes : List (Except Errno Nat)}
    (hsend : ∀ e, .error e ∈ outcomes → e = .EINTR ∨ e.refused = true) :
    ∃ es, p.Polls es [] (p.sendLoop strerror outcomes) := by
  induction outcomes generalizing p with
  | nil => exact ⟨[], .refl hstate⟩
  | cons outcome rest ih =>
    have hrest : ∀ e, .error e ∈ rest → e = .EINTR ∨ e.refused = true :=
      fun e he => hsend e (List.mem_cons_of_mem _ he)
    unfold Endpoint.sendLoop
    split
    · exact ⟨[], .refl hstate⟩
    split
    · rename_i e
      split
      · exact ih hstate hrest
      · rename_i hne
        have hrefused : e.refused = true := (hsend e List.mem_cons_self).resolve_left hne
        rw [if_pos hrefused]
        exact ⟨[], .refl hstate⟩
    · dsimp only
      split
      · exact ⟨[], .refl hstate⟩
      · rename_i count _
        obtain ⟨es, hes⟩ := ih (p := { p with
          tx := p.tx.drop (min count (min p.tx.length LINK_CHUNK))
          log := p.log ++ [.sent (p.tx.take (min count (min p.tx.length LINK_CHUNK)))] }) hstate hrest
        exact ⟨_, Polls.trans ⟨.sent hstate _, rfl, rfl, rfl⟩ hes⟩

/-- The receive loop on a reliable connection with room for what arrives. -/
theorem recvLoop_polls {p : Endpoint} (hstate : p.state = 2) {passes : Nat}
    {outcomes : List (Except Errno (List Byte))} (h : Receives ended inn outcomes)
    (hroom : p.rx.length + (arrived passes outcomes).1.length ≤ LINK_QUEUE_SIZE) :
    ∃ es q, p.Polls es (arrived passes outcomes).1 q ∧ p.recvLoop strerror passes outcomes =
      if (arrived passes outcomes).2 then q.fail "Connexion fermée par le correspondant." else q := by
  induction passes generalizing p inn outcomes with
  | zero => exact ⟨[], p, .refl hstate, rfl⟩
  | succ passes ih =>
    cases h with
    | none => exact ⟨[], p, .refl hstate, rfl⟩
    | interrupted h => exact ih hstate h hroom
    | @pending _ rest e hrefused =>
      have hne : e ≠ .EINTR := by
        rintro rfl
        cases hrefused
      have harrived : arrived (passes + 1) (.error e :: rest) = ([], false) := if_neg hne
      refine ⟨[], p, ?_, ?_⟩
      · rw [harrived]
        exact .refl hstate
      · rw [harrived]
        exact (if_neg hne).trans (if_pos hrefused)
    | @data _ rest bytes hsome hchunk h =>
      have htake : bytes.take LINK_CHUNK = bytes := List.take_of_length_le hchunk
      have harrived : arrived (passes + 1) (.ok bytes :: rest) =
          (bytes ++ (arrived passes rest).1, (arrived passes rest).2) := if_neg hsome
      rw [harrived] at hroom ⊢
      rw [List.length_append] at hroom
      have hfits : ¬ p.rx.length + bytes.length > LINK_QUEUE_SIZE := by omega
      obtain ⟨es, q, hes, hloop⟩ := ih
        (p := { p with rx := p.rx ++ bytes, log := p.log ++ [.received bytes] }) hstate h (by
          rw [List.length_append]
          omega)
      have hreceived : receivedBytes [.received bytes] = bytes := List.append_nil _
      refine ⟨_, q, Polls.trans ⟨.received hstate bytes, hreceived, rfl, rfl⟩ hes, ?_⟩
      have hpass : p.recvLoop strerror (passes + 1) (.ok bytes :: rest) =
          Endpoint.recvLoop strerror passes rest
            { p with rx := p.rx ++ bytes, log := p.log ++ [.received bytes] } := by
        rw [Endpoint.recvLoop]
        simp only [htake, hsome, hfits, ↓reduceIte]
      rw [hpass, hloop]
    | closed => exact ⟨[], p, .refl hstate, rfl⟩

theorem poll_polls {p : Endpoint} (hstate : p.state = 2) (hpeer : 0 ≤ p.peer) {calls : PollCalls}
    (hrecv : Receives ended inn calls.recv)
    (hsend : ∀ e, .error e ∈ calls.send → e = .EINTR ∨ e.refused = true)
    (hroom : p.rx.length + (arrived 16 calls.recv).1.length ≤ LINK_QUEUE_SIZE) :
    ∃ es q, p.Polls es (arrived 16 calls.recv).1 q ∧ p.pw_link_poll strerror calls =
      if (arrived 16 calls.recv).2 then q.fail "Connexion fermée par le correspondant." else q := by
  have haccept : p.acceptPeer strerror calls = (p, true) := if_neg (by omega)
  have hfinish : p.finishConnect strerror calls = (p, true) := if_neg (by omega)
  obtain ⟨es, hes⟩ : ∃ es, p.Polls es [] (p.sendLoop strerror calls.send) :=
    sendLoop_polls hstate hsend
  have hrx : (p.sendLoop strerror calls.send).rx = p.rx := by
    have hread := hes.session.read
    rwa [hes.received, hes.delivered, List.append_nil] at hread
  rw [← hrx] at hroom
  obtain ⟨fs, q, hfs, hloop⟩ : ∃ fs q,
      (p.sendLoop strerror calls.send).Polls fs (arrived 16 calls.recv).1 q ∧ _ :=
    recvLoop_polls hes.session.state hrecv hroom
  refine ⟨es ++ fs, q, hes.trans hfs, ?_⟩
  rw [← hloop]
  unfold Endpoint.pw_link_poll
  rw [if_neg (by omega), haccept]
  dsimp only
  rw [hfinish]
  exact if_neg (not_not.mpr hes.session.state)

end Endpoint

-- ---------------------------------------------------------------------------
-- Runs
-- ---------------------------------------------------------------------------

namespace Closing

variable {strerror : Errno → String}

structure Connected (s : Closing) : Prop where
  a : s.a.state = 2
  b : s.b.state = 2
  peer : 0 ≤ s.b.peer
  ended : s.ended = false

def sees : Side × LinkOp → Bool
  | (.b, .poll calls) => (arrived 16 calls.recv).2
  | _ => false

/-- Since `p`: still connected to the peer. -/
def Open (p q : Endpoint) : Prop := (∃ es, p.Extends es q) ∧ 0 ≤ q.peer

structure Dropped (data : List Byte) (p q : Endpoint) : Prop where
  state : q.state = -1
  rx : q.rx = []
  history : ∃ es, q.log = p.log ++ es ∧ receivedBytes es = data ∧ deliveredBytes es = []

theorem Open.extend {p q r : Endpoint} (h : Open p q) (hext : q.Extends es r)
    (hpeer : r.peer = q.peer) : Open p r := by
  obtain ⟨⟨es₀, hopen⟩, hq⟩ := h
  exact ⟨⟨es₀ ++ es, hopen.trans hext⟩, hpeer ▸ hq⟩

theorem Step.open {t u : Closing} (h : Open p t.b) (hstep : Step strerror t x u)
    (hx : sees x = false) : Open p u.b := by
  have hstate : t.b.state = 2 := h.1.elim fun _ hes => hes.state
  cases hstep with
  | atA => exact h
  | close => exact h
  | @atB op _ _ _ _ hreliable hcall =>
    cases hcall with
    | mk _ hop =>
      change Open p (op.apply strerror t.b)
      cases op with
      | poll calls =>
        obtain ⟨hrecv, hsend, hroom⟩ := hreliable
        obtain ⟨es, q, hes, hpoll⟩ : ∃ es q, t.b.Polls es _ q ∧ t.b.pw_link_poll strerror calls = _ :=
          Endpoint.poll_polls hstate h.2 hrecv hsend hroom
        have hopen : LinkOp.apply strerror (.poll calls) t.b = q :=
          hpoll.trans (if_neg (Bool.eq_false_iff.mp hx))
        rw [hopen]
        exact h.extend hes.session hes.peer
      | send data =>
        have hsent : LinkOp.apply strerror (.send data) t.b =
            { t.b with tx := t.b.tx ++ data, log := t.b.log ++ [.accepted data] } := by
          unfold LinkOp.apply Endpoint.pw_link_send
          dsimp only
          rw [if_neg (not_not.mpr hstate), if_neg (not_lt.mpr hreliable)]
        rw [hsent]
        exact h.extend (.accepted hstate data) rfl
      | read capacity => exact h.extend (.delivered hstate capacity) rfl
      | _ => cases hop

theorem Step.dropped {t u : Closing} {calls : PollCalls} (h : Open p t.b)
    (hstep : Step strerror t (.b, .poll calls) u) (hend : sees (.b, .poll calls) = true) :
    Dropped (arrived 16 calls.recv).1 t.b u.b := by
  obtain ⟨⟨_, hes⟩, hpeer⟩ := h
  cases hstep with
  | atB hreliable hcall =>
    cases hcall with
    | mk _ _ =>
      obtain ⟨hrecv, hsend, hroom⟩ := hreliable
      obtain ⟨es, q, hq, hpoll⟩ : ∃ es q, t.b.Polls es _ q ∧ t.b.pw_link_poll strerror calls = _ :=
        Endpoint.poll_polls hes.state hpeer hrecv hsend hroom
      have hfailed : LinkOp.apply strerror (.poll calls) t.b =
          q.fail "Connexion fermée par le correspondant." := hpoll.trans (if_pos hend)
      change Dropped _ t.b (LinkOp.apply strerror (.poll calls) t.b)
      rw [hfailed]
      refine ⟨rfl, rfl, es ++ [.closed], ?_, ?_, ?_⟩
      · change q.log ++ [.closed] = _
        rw [hq.session.log, List.append_assoc]
      · rw [receivedBytes_append, hq.received]
        exact List.append_nil _
      · rw [deliveredBytes_append, hq.delivered]
        rfl

theorem Step.stays_dropped {t u : Closing} (h : Dropped data p t.b) (hstep : Step strerror t x u) :
    Dropped data p u.b := by
  cases hstep with
  | atA => exact h
  | close => exact h
  | @atB op _ _ _ _ _ hcall =>
    cases hcall with
    | mk _ hop =>
      change Dropped data p (op.apply strerror t.b)
      cases op with
      | poll calls =>
        have hpoll : LinkOp.apply strerror (.poll calls) t.b = t.b :=
          if_pos (by rw [h.state]; decide)
        rwa [hpoll]
      | send data =>
        have hsend : LinkOp.apply strerror (.send data) t.b = t.b := by
          unfold LinkOp.apply Endpoint.pw_link_send
          dsimp only
          rw [if_pos (by rw [h.state]; decide)]
        rwa [hsend]
      | read capacity =>
        obtain ⟨hstate, hrx, es, hlog, hreceived, hdelivered⟩ := h
        have hread : LinkOp.apply strerror (.read capacity) t.b =
            { t.b with rx := [], log := t.b.log ++ [.delivered []] } := by
          unfold LinkOp.apply Endpoint.pw_link_read
          simp only [hrx, List.take_nil, List.drop_nil]
        rw [hread]
        refine ⟨hstate, rfl, es ++ [.delivered []], ?_, ?_, ?_⟩
        · change t.b.log ++ _ = _
          rw [hlog, List.append_assoc]
        · rw [receivedBytes_append, hreceived]
          exact List.append_nil _
        · rw [deliveredBytes_append, hdelivered]
          rfl
      | _ => cases hop

theorem open_runs {s t : Closing} (hconnected : s.Connected) (h : Runs (Step strerror) s ops t)
    (hops : ops.any sees = false) : Open s.b t.b := by
  suffices hrun : ∀ s₀ : Endpoint, Open s₀ s.b → Open s₀ t.b from
    hrun s.b ⟨⟨[], .refl hconnected.b⟩, hconnected.peer⟩
  intro s₀ hs
  clear hconnected
  induction h with
  | nil => exact hs
  | @cons _ _ _ x ops hstep _ ih =>
    rw [List.any_cons, Bool.or_eq_false_iff] at hops
    exact ih hops.2 (hstep.open hs hops.1)

theorem dropped_runs {u v : Closing} (h : Runs (Step strerror) u ops v)
    (hu : Dropped data p u.b) : Dropped data p v.b :=
  h.invariant (I := fun w => Dropped data p w.b) (fun _ _ _ hstep hw => hstep.stays_dropped hw) hu

/-- Until a poll comes to the end of the stream, `b` returns what it receives in
order, and what it has not returned waits for the next read. That poll drops
what waits and what it has just received, and nothing is returned after it. -/
theorem closing_delivery {s t : Closing} (hconnected : s.Connected)
    (h : Runs (Step strerror) s ops t) (hops : ops.any sees = false) :
    (t.b.state = 2 ∧ ∃ es, t.b.log = s.b.log ++ es ∧
        deliveredBytes es ++ t.b.rx = s.b.rx ++ receivedBytes es) ∧
      (∀ capacity, t.b.rx.length ≤ capacity → ∃ u es, Step strerror t (.b, .read capacity) u ∧
        u.b.log = s.b.log ++ es ∧ deliveredBytes es = s.b.rx ++ receivedBytes es) ∧
      ∀ calls u after v, sees (.b, .poll calls) = true → Step strerror t (.b, .poll calls) u →
        Runs (Step strerror) u after v → Dropped (arrived 16 calls.recv).1 t.b v.b := by
  have hopen : Open s.b t.b := open_runs hconnected h hops
  obtain ⟨es, hes⟩ := hopen.1
  refine ⟨⟨hes.state, es, hes.log, hes.read⟩, ?_, ?_⟩
  · intro capacity hcapacity
    have htake : t.b.rx.take (min capacity t.b.rx.length) = t.b.rx := by
      rw [Nat.min_eq_right hcapacity, List.take_length]
    refine ⟨_, es ++ [.delivered t.b.rx], .atB trivial (.mk [.delivered t.b.rx] rfl ?_ (.nil _)
      (.nil _)), ?_, ?_⟩
    · change t.b.log ++ [.delivered (t.b.rx.take _)] = _
      rw [htake]
    · change t.b.log ++ [.delivered (t.b.rx.take _)] = _
      rw [htake, hes.log, List.append_assoc]
    · have hdelivered : deliveredBytes [.delivered t.b.rx] = t.b.rx := List.append_nil _
      have hreceived : receivedBytes [.delivered t.b.rx] = [] := rfl
      rw [deliveredBytes_append, receivedBytes_append, hdelivered, hreceived, List.append_nil,
        hes.read]
  · intro calls u after v hend hpoll hafter
    exact dropped_runs hafter (hpoll.dropped hopen hend)

def lastPoll : PollCalls := { recv := [.ok [1], .ok []] }

def closingPair : Closing where
  toSystem := System.connectedPair

theorem closed_pair : ∃ t, Runs (Step fun _ => "error") closingPair
    [(.a, .send [1]), (.a, .poll { send := [.ok 1] }), (.a, .close)] t ∧
      t.b = closingPair.b ∧ t.ab = [1] ∧ t.ba = [] ∧ t.ended = true := by
  refine ⟨_, .cons (.atA rfl (.mk [.accepted [1]] rfl (by decide) (.nil _) (.nil _)))
    (.cons (.atA rfl (.mk [.sent [1]] rfl (by decide) (.single (.put [] [1])) (.nil _)))
    (.single (.close rfl (by decide)))), ?_⟩
  exact ⟨rfl, rfl, rfl, rfl⟩

theorem last_poll {t : Closing} (hb : t.b = closingPair.b) (hab : t.ab = [1])
    (hended : t.ended = true) : ∃ u, Step (fun _ => "error") t (.b, .poll lastPoll) u := by
  have hreliable : t.Reliable (.poll lastPoll) := by
    refine ⟨?_, nofun, ?_⟩
    · have hrecv : Receives true ([1] ++ []) lastPoll.recv :=
        .data (by decide) (by decide) (.closed rfl)
      rwa [hab, hended]
    · rw [hb]
      decide
  have hinn : Runs Fifo.Step t.ab [.take [1]] [] := by
    rw [hab]
    exact .single (.take [1] [])
  refine ⟨_, .atB hreliable (.mk [.received [1], .closed] rfl ?_ (.nil _) hinn)⟩
  rw [hb]
  decide

theorem closing_delivery_tail : ∃ t u : Closing, ∃ es, t.ab = [1] ∧ u.b.log = t.b.log ++ es ∧
    receivedBytes es = [1] ∧ deliveredBytes es = [] := by
  obtain ⟨t, hrun, hb, hab, -, hended⟩ := closed_pair
  obtain ⟨u, hpoll⟩ := last_poll hb hab hended
  have hconnected : closingPair.Connected := ⟨rfl, rfl, by decide, rfl⟩
  obtain ⟨-, -, hdropped⟩ := closing_delivery hconnected hrun (by decide)
  obtain ⟨-, -, es, hlog, hreceived, hdelivered⟩ := hdropped lastPoll u [] u rfl hpoll (.nil u)
  exact ⟨t, u, es, hab, hlog, hreceived, hdelivered⟩

/-- The byte was taken from the socket before the end and is never returned. -/
theorem closing_tail_lost : ∃ t, Runs (Step fun _ => "error") closingPair
    [(.a, .send [1]), (.a, .poll { send := [.ok 1] }), (.a, .close), (.b, .poll lastPoll)] t ∧
    receivedBytes t.b.log = [1] ∧
    ∀ after v, Runs (Step fun _ => "error") t after v → deliveredBytes v.b.log = [] := by
  obtain ⟨t, hrun, hb, hab, -, hended⟩ := closed_pair
  obtain ⟨u, hpoll⟩ := last_poll hb hab hended
  have hlog : t.b.log = [] := by
    rw [hb]
    rfl
  have hopen : Open t.b t.b := ⟨⟨[], .refl (by rw [hb]; rfl)⟩, by rw [hb]; decide⟩
  have hdropped : Dropped [1] t.b u.b := hpoll.dropped hopen rfl
  refine ⟨u, hrun.append (.single hpoll), ?_, ?_⟩
  · obtain ⟨-, -, es, hes, hreceived, -⟩ := hdropped
    rw [hes, hlog, List.nil_append, hreceived]
  · intro after v hafter
    obtain ⟨-, -, es, hes, -, hdelivered⟩ := dropped_runs hafter hdropped
    rw [hes, hlog, List.nil_append, hdelivered]

end Closing

end PokeStroller
