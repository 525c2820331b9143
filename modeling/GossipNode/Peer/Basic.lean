import GossipNode.Peer.Id
import GossipNode.Peer.Session

/-!
# Peers

A peer is one connection: the socket, the address it leads to, how it came about, and the
conversation on it.

## Main definitions

* `SocketId` — the handle of an open socket.
* `Peer` — a connection.
* `Peer.listenAddress` — where others can reach the peer.
* `PeerSnapshot`, `Peer.snapshot` — what is shown of a peer.
-/

namespace GossipNode

/-- The handle of an open socket.  No two sockets have the same one.  Handles are given by the
system and only ever compared, so that it does not matter how many there are. -/
structure SocketId where
  value : Nat
  deriving DecidableEq, Repr, Inhabited

/-- A connection. -/
structure Peer where
  id : PeerId
  socket : SocketId
  remote : SocketAddress
  direction : Direction
  /-- The address that was dialed, as it was written, if the node began the connection. -/
  dialed : Option String
  /-- When the node took the connection over, in milliseconds. -/
  connectedAt : Nat
  session : Session
  deriving DecidableEq, Repr, Inhabited

/-- What is shown of a peer. -/
structure PeerSnapshot where
  id : PeerId
  address : SocketAddress
  direction : Direction
  state : PeerState
  listenPort : Option Int32
  version : Option Int32
  name : Option String
  deriving DecidableEq, Repr

namespace Peer

/-- Whether the other side has introduced itself and the conversation is not over. -/
def isReady (p : Peer) : Bool := p.session.state = .ready

/-- The address the other side says it accepts connections on: the one the connection leads to, with
the port it announced.  Addresses of version six have no brackets here. -/
def listenAddress (p : Peer) : Option String :=
  p.session.identity.map fun info =>
    p.remote.ip.render ++ ":" ++ toString info.listenPort.toInt

/-- All texts by which the peer's address may be known: as it was dialed, where the connection
leads if the node began it, and where the peer accepts connections. -/
def knownAddresses (p : Peer) : List String :=
  p.dialed.toList ++ (if p.direction = .outbound then [p.remote.render] else [])
    ++ p.listenAddress.toList

/-- A peer as it is shown to people. -/
def display (p : Peer) : String :=
  "Peer " ++ p.id.display ++ " " ++ p.remote.render ++ " (" ++ p.direction.display ++ ")"

/-- What is shown of a peer. -/
def snapshot (p : Peer) : PeerSnapshot where
  id := p.id
  address := p.remote
  direction := p.direction
  state := p.session.state
  listenPort := p.session.identity.map (·.listenPort)
  version := p.session.identity.map (·.version)
  name := p.session.identity.map (·.name.toHex)

end Peer

end GossipNode
