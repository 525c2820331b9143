import GossipNode.Dial
import GossipNode.Multiplexer

/-!
# A network inside one machine

A network of sockets on which bytes arrive completely and in order.  A connection to an address that
is listened on succeeds and one to any other address is refused, both at once; a listener whose
queue is full keeps everyone else waiting.  A socket that is closed lets the other side see all
bytes sent before and then the end.

A machine may have no routes: it can listen, but every connection fails because the network is
unreachable.

Sockets come in pairs, an even number and the odd one after it, which are each other's far side.

## Main definitions

* `Socket`, `Listener`, `Network` — the parts.
* `Network.listen`, `Network.connect`, `Network.accept` — how connections come about.
* `Network.deliver`, `Network.consume`, `Network.finish`, `Network.sever` — what happens on them.
* `Network.readiness`, `Network.incoming`, `Network.writes` — what a socket says to its owner.
-/

namespace GossipNode.Loopback

/-- One side of a connection. -/
structure Socket where
  /-- The address of this side. -/
  address : SocketAddress
  /-- Bytes that have arrived and not been read. -/
  unread : Bytes
  /-- How many bytes may wait to be read, if there is a limit. -/
  capacity : Option Nat
  /-- The far side sends no more. -/
  ended : Bool
  /-- The far side has broken the connection, which the next read will tell. -/
  broken : Bool
  /-- The far side is gone and has said so in answer to bytes sent to it. -/
  refusing : Bool
  /-- Nothing has told yet that there is nothing to read. -/
  readable : Bool
  /-- Nothing has told yet that there is no room to write. -/
  writable : Bool
  /-- This side has not been closed. -/
  isOpen : Bool
  deriving DecidableEq, Repr, Inhabited

/-- A side of a connection that has just been made. -/
def Socket.start (address : SocketAddress) (capacity : Option Nat) : Socket where
  address
  unread := []
  capacity
  ended := false
  broken := false
  refusing := false
  readable := false
  writable := true
  isOpen := true

/-- A socket that new connections arrive on: its address, those that wait, first come first, and how
many may wait. -/
structure Listener where
  address : SocketAddress
  waiting : List SocketId
  backlog : Nat
  deriving DecidableEq, Repr

/-- A network. -/
structure Network where
  /-- Whether any address can be reached. -/
  hasRoutes : Bool
  /-- The time, in milliseconds. -/
  clock : Nat
  sockets : Array Socket
  listeners : List Listener
  /-- The next port the system chooses. -/
  nextPort : Nat
  deriving Inhabited

/-- The far side of a socket. -/
def farSide (s : SocketId) : SocketId := ⟨if s.value % 2 = 0 then s.value + 1 else s.value - 1⟩

/-- Whether connections to `wanted` arrive at a socket that listens on `bound`. -/
def reaches (wanted bound : SocketAddress) : Bool :=
  wanted.port = bound.port && (wanted.ip = bound.ip || bound.ip = .v4 IPv4.any)

namespace Network

/-- A network without sockets. -/
def start (hasRoutes : Bool) : Network := ⟨hasRoutes, 0, #[], [], 40000⟩

/-- A socket of the network. -/
def socket (n : Network) (s : SocketId) : Socket := n.sockets[s.value]?.getD default

/-- The network after a socket has changed. -/
def modify (n : Network) (s : SocketId) (f : Socket → Socket) : Network :=
  { n with sockets := n.sockets.modify s.value f }

/-- Time passes. -/
def advance (n : Network) (limit : Nat) : Network := { n with clock := n.clock + limit }

/-! ### Connections come about -/

/-- Whether an address can be listened on.  Without routes no address of version six is the
machine's own; one of version four always may be. -/
def owns (n : Network) (ip : IpAddress) : Bool :=
  match ip with
  | .v4 _ => true
  | .v6 ip => n.hasRoutes || ip.isAny || ip.isOfVersionFour

/-- Listens on an address, with a port of the system's choice if none is asked for. -/
def listen (n : Network) (address : SocketAddress) (backlog : Nat) :
    Except IoError (SocketAddress × Network) :=
  if !n.owns address.ip then .error .addressNotAvailable
  else if address.port = 0 then
    let bound := { address with port := UInt16.ofNat n.nextPort }
    .ok (bound, { n with
      listeners := n.listeners ++ [⟨bound, [], backlog⟩], nextPort := n.nextPort + 1 })
  else if n.listeners.any fun l => reaches address l.address || reaches l.address address then
    .error .addressInUse
  else .ok (address, { n with listeners := n.listeners ++ [⟨address, [], backlog⟩] })

/-- Makes a pair of sockets with given addresses; the first one is returned. -/
def pair (n : Network) (a b : SocketAddress) (capacity : Option Nat) : SocketId × Network :=
  (⟨n.sockets.size⟩,
    { n with sockets := (n.sockets.push (.start a capacity)).push (.start b capacity) })

/-- Tries to connect from one address to another. -/
def connect (n : Network) (origin : IpAddress) (address : SocketAddress) : Attempt × Network :=
  if !n.hasRoutes then (.refused .networkUnreachable, n)
  else
    match n.listeners.find? fun l => reaches address l.address with
    | none => (.refused .connectionRefused, n)
    | some l =>
      if l.backlog < l.waiting.length then (.timedOut, n)
      else
        let (near, m) := n.pair ⟨origin, UInt16.ofNat n.nextPort⟩ address none
        let join (k : Listener) : Listener :=
          if k.address = l.address then { k with waiting := k.waiting ++ [farSide near] } else k
        (.connected near address,
          { m with listeners := m.listeners.map join, nextPort := n.nextPort + 1 })

/-- Tries to connect to a host. -/
def connectTo (n : Network) (e : Endpoint) : Attempt × Network :=
  match Host.find e.host with
  | .error why => (.refused (.host why), n)
  | .ok host =>
    if host.lacksZone then (.refused .invalidArgument, n)
    else n.connect (.v4 IPv4.localhost) ⟨host.ip, e.port⟩

/-- The first connection that waits at an address. -/
def arrival (n : Network) (address : SocketAddress) : Option (SocketId × SocketAddress) := do
  let l ← n.listeners.find? (·.address = address)
  let s ← l.waiting.head?
  return (s, (n.socket (farSide s)).address)

/-- Takes the first connection that waits at an address. -/
def accept (n : Network) (address : SocketAddress) : Network :=
  { n with listeners := n.listeners.map fun l =>
    if l.address = address then { l with waiting := l.waiting.tail } else l }

/-! ### What happens on connections -/

/-- The owner of a socket sends bytes. -/
def deliver (n : Network) (s : SocketId) (bytes : Bytes) : Network :=
  if bytes.isEmpty then n
  else if (n.socket (farSide s)).isOpen then
    n.modify (farSide s) fun f => { f with unread := f.unread ++ bytes, readable := true }
  else n.modify s fun t => { t with refusing := true }

/-- The owner of a socket reads so many bytes, which makes room for the far side. -/
def consume (n : Network) (s : SocketId) (count : Nat) : Network :=
  if count = 0 then n
  else
    (n.modify s fun t => { t with unread := t.unread.drop count }).modify (farSide s) fun f =>
      { f with writable := true }

/-- The owner of a socket sends no more. -/
def finish (n : Network) (s : SocketId) : Network :=
  n.modify (farSide s) fun f => { f with ended := true, readable := true }

/-- The owner of a socket closes it. -/
def close (n : Network) (s : SocketId) : Network :=
  if (n.socket s).isOpen then (n.finish s).modify s fun t => { t with isOpen := false } else n

/-- The owner of a socket breaks the connection: nothing of what it sent remains. -/
def sever (n : Network) (s : SocketId) : Network :=
  (n.close s).modify (farSide s) fun f => { f with broken := true, unread := [] }

/-- An address is listened on no more: connections that still wait there are broken. -/
def unlisten (n : Network) (address : SocketAddress) : Network :=
  let gone := n.listeners.filter (·.address = address)
  let n := (gone.flatMap (·.waiting)).foldl Network.sever n
  { n with listeners := n.listeners.filter (·.address ≠ address) }

/-- A read has told that there is nothing to read. -/
def noteDrained (n : Network) (s : SocketId) : Network :=
  n.modify s fun t => { t with readable := false }

/-- A write has told that there is no room. -/
def noteFull (n : Network) (s : SocketId) : Network :=
  n.modify s fun t => { t with writable := false }

/-- A read has told that the connection is broken. -/
def noteBroken (n : Network) (s : SocketId) : Network :=
  n.modify s fun t => { t with broken := false }

/-! ### What a socket says to its owner -/

/-- What a socket holds for its reader. -/
def incoming (n : Network) (s : SocketId) : Incoming :=
  let t := n.socket s
  if t.broken then .failed .connectionReset
  else if t.unread.isEmpty ∧ t.ended then .ended
  else .waiting t.unread

/-- What a socket does with bytes that are offered to it, of which a turn makes at most three
offers. -/
def writes (n : Network) (s : SocketId) : List WriteOutcome :=
  if (n.socket s).refusing then [.failed .brokenPipe]
  else
    let f := n.socket (farSide s)
    match f.isOpen, f.capacity with
    | true, some capacity =>
      if f.unread.length < capacity then [.accepted (capacity - f.unread.length)] else []
    | _, _ => List.replicate 3 (.accepted (Nat.pow 2 32))

/-- What a socket reports. -/
def readiness (n : Network) (s : SocketId) : Readiness :=
  let t := n.socket s
  ⟨t.readable, t.writable, t.ended⟩

end Network

end GossipNode.Loopback
