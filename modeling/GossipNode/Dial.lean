import GossipNode.Control

/-!
# Dialing

To dial is to read an address, to try and connect to it, and to hand the connection over to the
node, which takes it over when it comes to it.

## Main definitions

* `Attempt` — what may come of trying to connect.
* `dial` — what comes of dialing an address.
* `handOver` — passes a dialed connection on to the node.
* `listen` — listens at a host.
-/

namespace GossipNode

/-- What may come of trying to connect to a host and port. -/
inductive Attempt
  | connected (socket : SocketId) (remote : SocketAddress)
  | refused (why : IoError)
  | timedOut
  deriving DecidableEq, Repr

/-- What comes of dialing an address: a socket and where it leads, or an error that names the
address as it was written.  Nothing is tried for a text that is no address. -/
def dial (address : String) (attempt : Endpoint → Attempt) :
    Except PeerError (SocketId × SocketAddress) := do
  match attempt (← Endpoint.parse address) with
  | .connected socket remote => return (socket, remote)
  | .refused why => throw (.connectionFailed (.refused address why))
  | .timedOut => throw (.connectionFailed (.timedOut address))

/-- Passes what came of dialing an address on to the node, if that still takes up commands. -/
def handOver (taken : Bool) (queue : ControlQueue) (address : String)
    (dialed : Except PeerError (SocketId × SocketAddress)) :
    Except PeerError SocketAddress × ControlQueue :=
  match dialed with
  | .error e => (.error e, queue)
  | .ok (socket, remote) =>
    if taken then (.ok remote, queue.send (.adopt socket remote address))
    else (.error .notRunning, queue)

/-- The address to listen on at a host: of those that are found, the first one of version four. -/
def listenAddress (find : Resolver) (host : String) (port : UInt16) :
    Except PeerError SocketAddress :=
  match find host with
  | .error why => .error (.setup (.unresolved host port why))
  | .ok hosts =>
    match hosts.findSome? Host.v4? with
    | some ip => .ok ⟨.v4 ip, port⟩
    | none => .error (.setup (.noIPv4 host))

/-- Listens at a host.  `find` says what the system finds for the host, and `bind` what it makes of
an address: the one that is listened on, with the port chosen if none was asked for. -/
def listen (find : Resolver) (host : String) (port : UInt16)
    (bind : SocketAddress → Except IoError SocketAddress) : Except PeerError SocketAddress := do
  let address ← listenAddress find host port
  match bind address with
  | .ok bound => return bound
  | .error why => throw (.setup (.bind address why))

end GossipNode
