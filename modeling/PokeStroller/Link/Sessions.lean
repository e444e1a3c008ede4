import PokeStroller.Lib.Fifo
import PokeStroller.Link.Model

/-!
# The states of a link

What holds of a link after any calls of the API, whatever the sockets do, and
what follows for the bytes: in its two queues are exactly bytes of the session
that is open.
-/

namespace PokeStroller

-- ---------------------------------------------------------------------------
-- History
-- ---------------------------------------------------------------------------

namespace LinkEvent

def tx : LinkEvent → Option (FifoEvent Byte)
  | accepted data => some (.put data)
  | sent bytes => some (.take bytes)
  | closed => some .reset
  | _ => none

def rx : LinkEvent → Option (FifoEvent Byte)
  | received bytes => some (.put bytes)
  | delivered bytes => some (.take bytes)
  | closed => some .reset
  | _ => none

def isClosed : LinkEvent → Bool
  | closed => true
  | _ => false

end LinkEvent

def acceptedBytes (log : List LinkEvent) : List Byte :=
  log.flatMap fun | .accepted data => data | _ => []

def sentBytes (log : List LinkEvent) : List Byte :=
  log.flatMap fun | .sent bytes => bytes | _ => []

def receivedBytes (log : List LinkEvent) : List Byte :=
  log.flatMap fun | .received bytes => bytes | _ => []

def deliveredBytes (log : List LinkEvent) : List Byte :=
  log.flatMap fun | .delivered bytes => bytes | _ => []

def linkSession (log : List LinkEvent) : List LinkEvent := log.rtakeWhile (!·.isClosed)

theorem linkSession_append {log es : List LinkEvent} (h : .closed ∉ es) :
    linkSession (log ++ es) = linkSession log ++ es := by
  induction es using List.reverseRecOn with
  | nil => simp
  | append_singleton es e ih =>
    simp only [List.mem_append, List.mem_singleton, not_or] at h
    have hopen : e.isClosed = false := by
      cases e with
      | closed => exact absurd rfl h.2
      | _ => rfl
    rw [← List.append_assoc, linkSession, List.rtakeWhile_concat_pos _ _ _ (by simp [hopen]),
      ← linkSession, ih h.1, List.append_assoc]

theorem sentBytes_append (log es : List LinkEvent) :
    sentBytes (log ++ es) = sentBytes log ++ sentBytes es := List.flatMap_append

theorem receivedBytes_append (log es : List LinkEvent) :
    receivedBytes (log ++ es) = receivedBytes log ++ receivedBytes es := List.flatMap_append

theorem deliveredBytes_append (log es : List LinkEvent) :
    deliveredBytes (log ++ es) = deliveredBytes log ++ deliveredBytes es := List.flatMap_append

theorem session_tx (log : List LinkEvent) :
    Fifo.session (log.filterMap LinkEvent.tx) = (linkSession log).filterMap LinkEvent.tx := by
  refine Fifo.session_filterMap (fun e he => ?_) (fun e x he hx => ?_) log
  · cases e <;> first | rfl | cases he
  · cases e <;> cases hx <;> first | rfl | cases he

theorem session_rx (log : List LinkEvent) :
    Fifo.session (log.filterMap LinkEvent.rx) = (linkSession log).filterMap LinkEvent.rx := by
  refine Fifo.session_filterMap (fun e he => ?_) (fun e x he hx => ?_) log
  · cases e <;> first | rfl | cases he
  · cases e <;> cases hx <;> first | rfl | cases he

theorem puts_tx (log : List LinkEvent) :
    Fifo.puts (log.filterMap LinkEvent.tx) = acceptedBytes log :=
  Fifo.flatMap_filterMap (fun e => by cases e <;> rfl) log

theorem takes_tx (log : List LinkEvent) :
    Fifo.takes (log.filterMap LinkEvent.tx) = sentBytes log :=
  Fifo.flatMap_filterMap (fun e => by cases e <;> rfl) log

theorem puts_rx (log : List LinkEvent) :
    Fifo.puts (log.filterMap LinkEvent.rx) = receivedBytes log :=
  Fifo.flatMap_filterMap (fun e => by cases e <;> rfl) log

theorem takes_rx (log : List LinkEvent) :
    Fifo.takes (log.filterMap LinkEvent.rx) = deliveredBytes log :=
  Fifo.flatMap_filterMap (fun e => by cases e <;> rfl) log

namespace Endpoint

/-- The queues are what their history says. -/
structure Accounted (p : Endpoint) : Prop where
  tx : Runs Fifo.Step [] (p.log.filterMap LinkEvent.tx) p.tx
  rx : Runs Fifo.Step [] (p.log.filterMap LinkEvent.rx) p.rx

structure Invariant (p : PWLink) : Prop where
  state : p.state = -1 ∨ p.state = 0 ∨ p.state = 1 ∨ p.state = 2
  tx : p.tx.length ≤ 65536
  rx : p.rx.length ≤ 65536
  off : p.state ≤ 0 → p.server < 0 ∧ p.peer < 0 ∧ p.port = 0 ∧ p.tx = [] ∧ p.rx = []
  waiting : p.state = 1 → (0 ≤ p.server ↔ ¬ 0 ≤ p.peer) ∧ p.tx = [] ∧ p.rx = []
  connected : p.state = 2 → 0 ≤ p.peer
  error : p.error ≠ "" ↔ p.state = -1

def run (strerror : Errno → String) (ops : List LinkOp) (p : Endpoint) : Endpoint :=
  ops.foldl (fun p op => op.apply strerror p) p

structure Sound (p : Endpoint) : Prop where
  invariant : Invariant p.toPWLink
  accounted : p.Accounted

theorem sound_init : Sound {} where
  invariant := by constructor <;> simp
  accounted := ⟨.nil _, .nil _⟩

-- ---------------------------------------------------------------------------
-- Operations
-- ---------------------------------------------------------------------------

theorem sizeSub_of_le (h : n ≤ LINK_QUEUE_SIZE) :
    sizeSub LINK_QUEUE_SIZE n = LINK_QUEUE_SIZE - n := by
  unfold LINK_QUEUE_SIZE at *
  unfold sizeSub UInt64.size
  omega

theorem Accounted.pw_link_close {p : Endpoint} (h : p.Accounted) : p.pw_link_close.Accounted := by
  unfold Endpoint.pw_link_close
  refine ⟨?_, ?_⟩
  · exact h.tx.append_filterMap (.single (.reset _))
  · exact h.rx.append_filterMap (.single (.reset _))

theorem Accounted.sound_close {p : Endpoint} (h : p.Accounted) : Sound p.pw_link_close where
  invariant := by constructor <;> simp [Endpoint.pw_link_close]
  accounted := h.pw_link_close

/-- Whatever had been done before a failure, it leaves a sound link. -/
theorem Accounted.fail {p : Endpoint} (h : p.Accounted) (herror : error ≠ "") :
    Sound (p.fail error) where
  invariant := by constructor <;> simp [Endpoint.fail, Endpoint.pw_link_close, herror]
  accounted := ⟨h.pw_link_close.tx, h.pw_link_close.rx⟩

theorem Sound.sent {p : Endpoint} (h : Sound p) (hstate : p.state = 2) (n : Nat) :
    Sound { p with tx := p.tx.drop n, log := p.log ++ [.sent (p.tx.take n)] } := by
  obtain ⟨-, htx, hrx, -, -, hconnected, herror⟩ := h.invariant
  refine ⟨?_, ?_, ?_⟩
  · have hnone : p.error = "" := by simpa [hstate] using herror
    constructor <;> simp [hstate, hrx, hnone, hconnected hstate]
    omega
  · exact h.accounted.tx.append_filterMap (.single (.front _ _))
  · exact h.accounted.rx.append_filterMap (.nil _)

theorem Sound.received {p : Endpoint} (h : Sound p) (hstate : p.state = 2)
    (hroom : p.rx.length + bytes.length ≤ LINK_QUEUE_SIZE) :
    Sound { p with rx := p.rx ++ bytes, log := p.log ++ [.received bytes] } := by
  obtain ⟨-, htx, hrx, -, -, hconnected, herror⟩ := h.invariant
  refine ⟨?_, ?_, ?_⟩
  · have hnone : p.error = "" := by simpa [hstate] using herror
    have hlength : p.rx.length + bytes.length ≤ 65536 := hroom
    constructor <;> simp [hstate, htx, hnone, hconnected hstate, hlength]
  · exact h.accounted.tx.append_filterMap (.nil _)
  · exact h.accounted.rx.append_filterMap (.single (.put _ _))

theorem Sound.pw_link_send {p : Endpoint} (h : Sound p) (data : List Byte) :
    Sound (p.pw_link_send data).1 := by
  obtain ⟨-, htx, hrx, -, -, hconnected, herror⟩ := h.invariant
  unfold Endpoint.pw_link_send
  split
  · exact h
  rename_i hstate
  rw [not_not] at hstate
  split
  · exact h.accounted.fail (by decide)
  rename_i hroom
  refine ⟨?_, ?_, ?_⟩
  · have hnone : p.error = "" := by simpa [hstate] using herror
    have hlength : p.tx.length + data.length ≤ 65536 := by
      rw [sizeSub_of_le htx] at hroom
      unfold LINK_QUEUE_SIZE at hroom
      omega
    constructor <;> simp [hstate, hrx, hnone, hconnected hstate, hlength]
  · exact h.accounted.tx.append_filterMap (.single (.put _ _))
  · exact h.accounted.rx.append_filterMap (.nil _)

theorem Sound.pw_link_read {p : Endpoint} (h : Sound p) (capacity : Nat) :
    Sound (p.pw_link_read capacity).1 := by
  obtain ⟨hst, htx, hrx, hoff, hwaiting, hconnected, herror⟩ := h.invariant
  unfold Endpoint.pw_link_read
  refine ⟨?_, ?_, ?_⟩
  · constructor
    · exact hst
    · exact htx
    · simp only [List.length_drop]
      omega
    · intro hs
      obtain ⟨h₁, h₂, h₃, h₄, h₅⟩ := hoff hs
      exact ⟨h₁, h₂, h₃, h₄, by simp [h₅]⟩
    · intro hs
      obtain ⟨h₁, h₂, h₃⟩ := hwaiting hs
      exact ⟨h₁, h₂, by simp [h₃]⟩
    · exact hconnected
    · exact herror
  · exact h.accounted.tx.append_filterMap (.nil _)
  · exact h.accounted.rx.append_filterMap (.single (.front _ _))

section

variable {strerror : Errno → String} (hstrerror : ∀ e, strerror e ≠ "")

include hstrerror

theorem Sound.pw_link_listen {p : Endpoint} (h : Sound p) (calls : ListenCalls)
    (port : BitVec 16) : Sound (p.pw_link_listen strerror calls port).1 := by
  have hclosed := h.accounted.pw_link_close
  unfold Endpoint.pw_link_listen
  dsimp only
  split
  · exact hclosed.fail (hstrerror _)
  have hfail (fd : Nat) (e : Errno) :
      Sound (Endpoint.fail { p.pw_link_close with server := fd } (strerror e)) :=
    Accounted.fail ⟨hclosed.tx, hclosed.rx⟩ (hstrerror e)
  split
  · exact hfail _ _
  split
  · exact hfail _ _
  split
  · exact hfail _ _
  · exact ⟨by constructor <;> simp [Endpoint.pw_link_close], hclosed.tx, hclosed.rx⟩

theorem Sound.pw_link_connect {p : Endpoint} (h : Sound p) (calls : ConnectCalls)
    (host : String) (port : BitVec 16) :
    Sound (p.pw_link_connect strerror calls host port).1 := by
  have hclosed := h.accounted.pw_link_close
  unfold Endpoint.pw_link_connect
  generalize (if host = "localhost" then "127.0.0.1" else host) = host
  dsimp only
  split
  · exact hclosed.fail (by decide)
  split
  · exact hclosed.fail (hstrerror _)
  split
  · exact ⟨by constructor <;> simp [Endpoint.pw_link_close], hclosed.tx, hclosed.rx⟩
  split
  · exact ⟨by constructor <;> simp [Endpoint.pw_link_close], hclosed.tx, hclosed.rx⟩
  · exact Accounted.fail ⟨hclosed.tx, hclosed.rx⟩ (hstrerror _)

theorem Sound.acceptPeer {p q : Endpoint} (h : Sound p) (hstate : 1 ≤ p.state)
    (hq : p.acceptPeer strerror calls = (q, more)) :
    Sound q ∧ (more = true → 1 ≤ q.state ∧ 0 ≤ q.peer) := by
  obtain ⟨hst, htx, hrx, -, hwaiting, hconnected, herror⟩ := h.invariant
  unfold Endpoint.acceptPeer at hq
  split at hq
  · rename_i hlistening
    split at hq
    · split at hq
      · cases hq
        exact ⟨h, nofun⟩
      · cases hq
        exact ⟨h.accounted.fail (hstrerror _), nofun⟩
    · cases hq
      have hone : p.state = 1 := by omega
      have hnone : p.error = "" := by simpa [hone] using herror
      refine ⟨⟨?_, h.accounted.tx, h.accounted.rx⟩, fun _ => ⟨by simp, by simp⟩⟩
      constructor <;> simp [htx, hrx, hnone]
  · rename_i hopen
    cases hq
    refine ⟨h, fun _ => ⟨hstate, ?_⟩⟩
    rcases hst with hst | hst | hst | hst
    · omega
    · omega
    · have := (hwaiting hst).1
      omega
    · exact hconnected hst

theorem Sound.finishConnect {p q : Endpoint} (h : Sound p) (hstate : 1 ≤ p.state)
    (hpeer : 0 ≤ p.peer) (hq : p.finishConnect strerror calls = (q, more)) :
    Sound q ∧ (more = true → q.state = 2) := by
  obtain ⟨hst, htx, hrx, -, -, -, herror⟩ := h.invariant
  unfold Endpoint.finishConnect at hq
  split at hq
  · rename_i hone
    split at hq
    · split at hq
      · cases hq
        exact ⟨h.accounted.fail (hstrerror _), nofun⟩
      · cases hq
        exact ⟨h.accounted.fail (hstrerror _), nofun⟩
      · cases hq
        have hnone : p.error = "" := by simpa [hone] using herror
        refine ⟨⟨?_, h.accounted.tx, h.accounted.rx⟩, fun _ => rfl⟩
        constructor <;> simp [htx, hrx, hnone, hpeer]
    · cases hq
      exact ⟨h, nofun⟩
  · cases hq
    exact ⟨h, fun _ => by omega⟩

theorem Sound.sendLoop {p : Endpoint} (h : Sound p) (hstate : p.state = 2)
    (outcomes : List (Except Errno Nat)) : Sound (p.sendLoop strerror outcomes) := by
  induction outcomes generalizing p with
  | nil => exact h
  | cons outcome rest ih =>
    unfold Endpoint.sendLoop
    split
    · exact h
    split
    · split
      · exact ih h hstate
      split
      · exact h
      · exact h.accounted.fail (hstrerror _)
    · dsimp only
      split
      · exact h
      · exact ih (h.sent hstate _) hstate

theorem Sound.recvLoop {p : Endpoint} (h : Sound p) (hstate : p.state = 2) (passes : Nat)
    (outcomes : List (Except Errno (List Byte))) :
    Sound (p.recvLoop strerror passes outcomes) := by
  induction passes generalizing p outcomes with
  | zero => exact h
  | succ passes ih =>
    cases outcomes with
    | nil => exact h
    | cons outcome rest =>
      unfold Endpoint.recvLoop
      split
      · split
        · exact ih h hstate rest
        split
        · exact h
        · exact h.accounted.fail (hstrerror _)
      · dsimp only
        split
        · exact h.accounted.fail (by decide)
        split
        · exact h.accounted.fail (by decide)
        · exact ih (h.received hstate (by omega)) hstate rest

theorem Sound.pw_link_poll {p : Endpoint} (h : Sound p) (calls : PollCalls) :
    Sound (p.pw_link_poll strerror calls) := by
  unfold Endpoint.pw_link_poll
  split
  · exact h
  rename_i hstate
  split
  · rename_i q haccept
    exact (h.acceptPeer hstrerror (by omega) haccept).1
  rename_i q haccept
  obtain ⟨hq, hmore⟩ := h.acceptPeer hstrerror (by omega) haccept
  obtain ⟨hqstate, hqpeer⟩ := hmore rfl
  split
  · rename_i r hfinish
    exact (hq.finishConnect hstrerror hqstate hqpeer hfinish).1
  rename_i r hfinish
  obtain ⟨hr, hmore⟩ := hq.finishConnect hstrerror hqstate hqpeer hfinish
  have hsent := hr.sendLoop hstrerror (hmore rfl) calls.send
  dsimp only
  split
  · exact hsent
  · rename_i hrstate
    exact hsent.recvLoop hstrerror (not_not.mp hrstate) 16 calls.recv

theorem Sound.apply {p : Endpoint} (h : Sound p) (op : LinkOp) : Sound (op.apply strerror p) := by
  cases op with
  | listen calls port => exact h.pw_link_listen hstrerror calls port
  | connect calls host port => exact h.pw_link_connect hstrerror calls host port
  | poll calls => exact h.pw_link_poll hstrerror calls
  | send data => exact h.pw_link_send data
  | read capacity => exact h.pw_link_read capacity
  | close => exact h.accounted.sound_close

theorem Sound.run {p : Endpoint} (h : Sound p) (ops : List LinkOp) :
    Sound (p.run strerror ops) := by
  induction ops generalizing p with
  | nil => exact h
  | cons op ops ih => exact ih (h.apply hstrerror op)

end

/-- In its current session a link has sent what it accepted but for what is
still in `tx`, and has delivered what it received but for what is still in
`rx`. -/
theorem Accounted.session {p : Endpoint} (h : p.Accounted) :
    sentBytes (linkSession p.log) ++ p.tx = acceptedBytes (linkSession p.log) ∧
      deliveredBytes (linkSession p.log) ++ p.rx = receivedBytes (linkSession p.log) := by
  have htx := Fifo.takes_session h.tx
  have hrx := Fifo.takes_session h.rx
  rw [session_tx, puts_tx, takes_tx] at htx
  rw [session_rx, puts_rx, takes_rx] at hrx
  exact ⟨htx, hrx⟩

/-- Any calls on a new link, with any outcomes of the socket calls, keep the
invariant; and no byte of one session is in a queue, sent or delivered in
another. -/
theorem link_invariant (strerror : Errno → String) (hstrerror : ∀ e, strerror e ≠ "")
    (ops : List LinkOp) :
    let p := Endpoint.run strerror ops {}
    Invariant p.toPWLink ∧
      sentBytes (linkSession p.log) ++ p.tx = acceptedBytes (linkSession p.log) ∧
      deliveredBytes (linkSession p.log) ++ p.rx = receivedBytes (linkSession p.log) := by
  have h := sound_init.run hstrerror ops
  exact ⟨h.invariant, h.accounted.session⟩

/-- Listens, accepts a peer, gets three bytes of which one is read, and
connects anew. -/
def reconnectOps : List LinkOp :=
  [.listen { socket := .ok 3, bind := fun _ => .ok (), listen := .ok (),
             getsockname := .ok 10000 } 0,
   .poll { accept := .ok 4, recv := [.error .EINTR, .ok [0xfc, 0xfa, 0xaa]] },
   .read 1, .send [0x55],
   .connect { socket := .ok 3, inet_pton := fun _ => true,
              connect := fun _ => .ok () } "localhost" 10000,
   .send [0xf8], .poll { send := [.ok 1], recv := [.ok [0xf4]] }]

theorem link_invariant_reconnect :
    let p := Endpoint.run (fun _ => "error") reconnectOps {}
    p.state = 2 ∧ deliveredBytes (linkSession p.log) ++ p.rx = [0xf4] ∧ 0 ≤ p.peer := by
  obtain ⟨hinvariant, -, hrx⟩ := link_invariant (fun _ => "error") (by simp) reconnectOps
  have hstate : (Endpoint.run (fun _ => "error") reconnectOps {}).state = 2 := by decide
  exact ⟨hstate, hrx.trans (by decide), hinvariant.connected hstate⟩

end Endpoint

end PokeStroller
