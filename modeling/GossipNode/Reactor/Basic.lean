import GossipNode.AddressPool
import GossipNode.Event
import GossipNode.Multiplexer
import GossipNode.Peer.Table

/-!
# The state of a running node

A reactor holds everything a running node works with, and keeps a record of what it has done:
whom it has told what, what it has given to its sockets and taken from them, which connections it
has taken over and let go.

## Main definitions

* `ReactorConfig`, `Shared`, `Reactor` — the state.
* `Deed` — what is put on record.
* `Reactor.insertPeer`, `Reactor.closePeer` — a connection comes and goes.
* `Reactor.send` — a message is handed over to a peer.
* `Reactor.notify` — an event is told to the listeners.
-/

namespace GossipNode

/-- What a reactor needs to know of its node. -/
structure ReactorConfig where
  /-- How the node introduces itself. -/
  ownInfo : PeerInfo
  /-- The number of peers that rounds of dialing aim at. -/
  target : Nat
  /-- How long a peer may take to introduce itself, in milliseconds, if there is a limit. -/
  handshakeLimit : Option Nat
  deriving DecidableEq, Repr, Inhabited

/-- What outlives a run of a node. -/
structure Shared where
  table : PeerTable
  pool : AddressPool
  listeners : Registry String
  deriving Inhabited

/-- What a node that has never run has. -/
def Shared.empty : Shared := ⟨.empty, .empty, .empty⟩

/-- What a reactor puts on record. -/
inductive Deed
  /-- An event was told to listeners. -/
  | notified (event : Event) (audience : List String)
  /-- A connection was taken over. -/
  | joined (peer : Peer)
  /-- A message was handed over to a peer. -/
  | sent (id : PeerId) (message : Message)
  /-- The socket of a peer accepted bytes. -/
  | wrote (id : PeerId) (bytes : Bytes)
  /-- The socket of a peer was read once. -/
  | read (id : PeerId) (outcome : Except PeerError ReadOutcome)
  /-- An envelope of a peer was acted upon. -/
  | dispatched (id : PeerId) (envelope : Envelope)
  /-- An address began to be dialed. -/
  | dialed (address : String)
  /-- A connection was let go; its socket closes. -/
  | retired (peer : Peer)
  /-- A socket was closed that had not been taken over. -/
  | dropped (socket : SocketId)

/-- A running node. -/
structure Reactor where
  config : ReactorConfig
  shared : Shared
  mux : Multiplexer
  queue : ControlQueue
  /-- Addresses that are being dialed in the background. -/
  dialing : List String
  /-- The number of the next connection. -/
  nextId : PeerId
  running : Bool
  /-- What has been done, last first. -/
  deeds : List Deed
  deriving Inhabited

namespace Reactor

/-- The time between two checks for peers that do not introduce themselves, in milliseconds. -/
def housekeepingPeriod : Nat := 1000

/-- How long new connections are paused after one could not be accepted, in milliseconds. -/
def acceptBackoff : Nat := 100

/-- A reactor at the beginning of its run. -/
def start (config : ReactorConfig) (shared : Shared) (now : Nat) : Reactor where
  config
  shared := { shared with table := .empty }
  mux := .start now housekeepingPeriod
  queue := .empty
  dialing := []
  nextId := ⟨1⟩
  running := true
  deeds := []

/-- The peers. -/
def table (r : Reactor) : PeerTable := r.shared.table

/-- Puts something on record. -/
def note (r : Reactor) (deed : Deed) : Reactor := { r with deeds := deed :: r.deeds }

/-- The reactor with other peers. -/
def withTable (r : Reactor) (table : PeerTable) : Reactor :=
  { r with shared := { r.shared with table } }

/-- Enters a peer that has changed. -/
def put (r : Reactor) (p : Peer) : Reactor := r.withTable (r.table.insert p.id p)

/-- Tells an event to all listeners. -/
def notify (r : Reactor) (event : Event) : Reactor :=
  let listeners := r.shared.listeners
  { r with shared := { r.shared with listeners := listeners.notify event } }.note
    (.notified event listeners.audience)

/-- Puts a command at the end of the queue. -/
def command (r : Reactor) (c : Command) : Reactor := { r with queue := r.queue.send c }

/-- Begins to dial an address in the background. -/
def dial (r : Reactor) (address : String) : Reactor :=
  { r with dialing := r.dialing ++ [address] }.note (.dialed address)

/-- Takes over a connection.  On one the node began it introduces itself next; on one the other side
began it waits for the other side to do so. -/
def insertPeer (r : Reactor) (socket : SocketId) (remote : SocketAddress) (direction : Direction)
    (dialed : Option String) (now : Nat) : Reactor :=
  let p : Peer := { id := r.nextId, socket, remote, direction, dialed, connectedAt := now,
                    session := .start }
  let r := { r with nextId := p.id.next, mux := r.mux.register p.id socket }
  let r := (r.put p).note (.joined p)
  if direction = .outbound then r.command (.sendHandshake p.id) else r

/-- Lets a peer go, if it is there, and tells the listeners. -/
def closePeer (r : Reactor) (id : PeerId) : Reactor :=
  let r := { r with mux := r.mux.deregister id }
  match r.table.get? id with
  | none => r
  | some p =>
    let closed := { p with session := p.session.markClosed }
    ((r.withTable (r.table.erase id)).note (.retired closed)).notify (.peerClose id)

/-- What became of output to a peer: the reactor after it, the peer after it, whether the connection
is still of use, and what the socket would do with further offers. -/
structure Sending where
  reactor : Reactor
  peer : Peer
  usable : Bool
  rest : List WriteOutcome

/-- Enters what became of output to a peer. -/
def recordOutput (r : Reactor) (p : Peer) (w : Session.Written) : Sending :=
  let p := { p with session := w.session }
  ⟨(r.put p).note (.wrote p.id w.accepted), p, w.result.isOk, w.rest⟩

/-- Hands over a message to a peer. -/
def send (r : Reactor) (p : Peer) (m : Message) (outcomes : List WriteOutcome) : Sending :=
  (r.note (.sent p.id m)).recordOutput p (p.session.send m outcomes)

/-- Offers what is due to the socket of a peer. -/
def flush (r : Reactor) (p : Peer) (outcomes : List WriteOutcome) : Sending :=
  r.recordOutput p (p.session.flush outcomes)

end Reactor

end GossipNode
