import PokeStroller.Lib.Bytes

/-!
# The TCP link

`PWLink` of ir_link.cpp, with every outcome of every socket call as an input.
Results that the code ignores (setsockopt, close, the fcntl calls on an
accepted socket) do not appear.
-/

namespace PokeStroller

-- ---------------------------------------------------------------------------
-- Socket calls
-- ---------------------------------------------------------------------------

inductive Errno
  | EINTR
  | EAGAIN
  | EWOULDBLOCK
  | EINPROGRESS
  | other (code : Nat)
  deriving DecidableEq, Repr

/-- A nonblocking call that has nothing to do. -/
def Errno.refused (e : Errno) : Bool := e = .EAGAIN || e = .EWOULDBLOCK

structure SocketCalls where
  socket : Except Errno Nat
  fcntl : Except Errno Unit := .ok ()

structure ListenCalls extends SocketCalls where
  bind : BitVec 16 → Except Errno Unit
  listen : Except Errno Unit
  getsockname : Except Errno (BitVec 16)

structure ConnectCalls extends SocketCalls where
  /-- `inet_pton` returns 1. -/
  inet_pton : String → Bool
  connect : BitVec 16 → Except Errno Unit

structure PollCalls where
  accept : Except Errno Nat := .error .EAGAIN
  /-- `poll` finds the socket writable. -/
  poll : Bool := false
  /-- `SO_ERROR`; 0 is `none`. -/
  getsockopt : Except Errno (Option Errno) := .ok none
  /-- `send` takes this many of the bytes offered, or fewer if it is offered
  fewer; a list that has ended refuses. -/
  send : List (Except Errno Nat) := []
  /-- `recv` returns the first 4096 of these; none is the end of the stream. -/
  recv : List (Except Errno (List Byte)) := []

def make_socket (calls : SocketCalls) : Except Errno Nat :=
  match calls.socket with
  | .error e => .error e
  | .ok fd =>
    match calls.fcntl with
    | .error e => .error e
    | .ok () => .ok fd

-- ---------------------------------------------------------------------------
-- The link
-- ---------------------------------------------------------------------------

structure PWLink where
  server : Int := -1
  peer : Int := -1
  state : Int := 0
  port : BitVec 16 := 0
  tx : List Byte := []
  rx : List Byte := []
  error : String := ""
  deriving DecidableEq, Repr

/-- What happens to bytes at a link. -/
inductive LinkEvent
  /-- taken by `pw_link_send` -/
  | accepted (data : List Byte)
  /-- given to the socket -/
  | sent (bytes : List Byte)
  /-- from the socket -/
  | received (bytes : List Byte)
  /-- returned by `pw_link_read` -/
  | delivered (bytes : List Byte)
  | closed
  deriving DecidableEq, Repr

/-- A link and its history, which no operation reads. -/
structure Endpoint extends PWLink where
  log : List LinkEvent := []
  deriving DecidableEq, Repr

def LINK_CHUNK : Nat := 4096
def LINK_QUEUE_SIZE : Nat := 65536

def sizeSub (a b : Nat) : Nat := (a + UInt64.size - b) % UInt64.size

namespace Endpoint

def pw_link_close (p : Endpoint) : Endpoint :=
  { p with
    server := -1, peer := -1, state := 0, port := 0, tx := [], rx := [], error := ""
    log := p.log ++ [.closed] }

/-- `fail`; its callers return its `false`. -/
def fail (p : Endpoint) (error : String) : Endpoint :=
  { p.pw_link_close with state := -1, error := error }

section

variable (strerror : Errno → String)

def pw_link_listen (calls : ListenCalls) (port : BitVec 16) (p : Endpoint) : Endpoint × Bool :=
  let p := p.pw_link_close
  match make_socket calls.toSocketCalls with
  | .error e => (p.fail (strerror e), false)
  | .ok fd =>
    let p := { p with server := fd }
    match calls.bind port with
    | .error e => (p.fail (strerror e), false)
    | .ok () =>
      match calls.listen with
      | .error e => (p.fail (strerror e), false)
      | .ok () =>
        match calls.getsockname with
        | .error e => (p.fail (strerror e), false)
        | .ok port => ({ p with port := port, state := 1 }, true)

def pw_link_connect (calls : ConnectCalls) (host : String) (port : BitVec 16) (p : Endpoint) :
    Endpoint × Bool :=
  let p := p.pw_link_close
  let host := if host = "localhost" then "127.0.0.1" else host
  if port = 0 || !calls.inet_pton host then (p.fail "Adresse IPv4 ou port invalide.", false)
  else
    match make_socket calls.toSocketCalls with
    | .error e => (p.fail (strerror e), false)
    | .ok fd =>
      let p := { p with peer := fd }
      match calls.connect port with
      | .ok () => ({ p with port := port, state := 2 }, true)
      | .error e =>
        if e = .EINPROGRESS then ({ p with port := port, state := 1 }, true)
        else (p.fail (strerror e), false)

/-- `pw_link_poll` on a listening link; `false` is its return. -/
def acceptPeer (calls : PollCalls) (p : Endpoint) : Endpoint × Bool :=
  if 0 ≤ p.server ∧ p.peer < 0 then
    match calls.accept with
    | .error e =>
      if e.refused || e = .EINTR then (p, false) else (p.fail (strerror e), false)
    | .ok fd => ({ p with peer := fd, state := 2 }, true)
  else (p, true)

def finishConnect (calls : PollCalls) (p : Endpoint) : Endpoint × Bool :=
  if p.state = 1 then
    if calls.poll then
      match calls.getsockopt with
      | .error e => (p.fail (strerror e), false)
      | .ok (some e) => (p.fail (strerror e), false)
      | .ok none => ({ p with state := 2 }, true)
    else (p, false)
  else (p, true)

def sendLoop : List (Except Errno Nat) → Endpoint → Endpoint
  | [], p => p
  | outcome :: rest, p =>
    if p.tx = [] then p
    else
      match outcome with
      | .error e =>
        if e = .EINTR then sendLoop rest p
        else if e.refused then p
        else p.fail (strerror e)
      | .ok sent =>
        let sent := min sent (min p.tx.length LINK_CHUNK)
        if sent = 0 then p
        else sendLoop rest
          { p with tx := p.tx.drop sent, log := p.log ++ [.sent (p.tx.take sent)] }

/-- The loop over `recv`, with its passes left. An interrupted call is a pass. -/
def recvLoop : Nat → List (Except Errno (List Byte)) → Endpoint → Endpoint
  | 0, _, p => p
  | _, [], p => p
  | passes + 1, outcome :: rest, p =>
    match outcome with
    | .error e =>
      if e = .EINTR then recvLoop passes rest p
      else if e.refused then p
      else p.fail (strerror e)
    | .ok bytes =>
      let bytes := bytes.take LINK_CHUNK
      if bytes = [] then p.fail "Connexion fermée par le correspondant."
      else if p.rx.length + bytes.length > LINK_QUEUE_SIZE then
        p.fail "Trop de données IR en attente."
      else recvLoop passes rest
        { p with rx := p.rx ++ bytes, log := p.log ++ [.received bytes] }

def pw_link_poll (calls : PollCalls) (p : Endpoint) : Endpoint :=
  if p.state < 1 then p
  else
    match p.acceptPeer strerror calls with
    | (p, false) => p
    | (p, true) =>
      match p.finishConnect strerror calls with
      | (p, false) => p
      | (p, true) =>
        let p := sendLoop strerror calls.send p
        if p.state ≠ 2 then p else recvLoop strerror 16 calls.recv p

end

def pw_link_send (data : List Byte) (p : Endpoint) : Endpoint × Bool :=
  if p.state ≠ 2 then (p, false)
  else if data.length > sizeSub LINK_QUEUE_SIZE p.tx.length then
    (p.fail "Trop de données IR à transmettre.", false)
  else ({ p with tx := p.tx ++ data, log := p.log ++ [.accepted data] }, true)

def pw_link_read (capacity : Nat) (p : Endpoint) : Endpoint × List Byte :=
  let count := min capacity p.rx.length
  let bytes := p.rx.take count
  ({ p with rx := p.rx.drop count, log := p.log ++ [.delivered bytes] }, bytes)

end Endpoint

inductive LinkOp
  | listen (calls : ListenCalls) (port : BitVec 16)
  | connect (calls : ConnectCalls) (host : String) (port : BitVec 16)
  | poll (calls : PollCalls)
  | send (data : List Byte)
  | read (capacity : Nat)
  | close

def LinkOp.apply (strerror : Errno → String) : LinkOp → Endpoint → Endpoint
  | .listen calls port, p => (p.pw_link_listen strerror calls port).1
  | .connect calls host port, p => (p.pw_link_connect strerror calls host port).1
  | .poll calls, p => p.pw_link_poll strerror calls
  | .send data, p => (p.pw_link_send data).1
  | .read capacity, p => (p.pw_link_read capacity).1
  | .close, p => p.pw_link_close

end PokeStroller
