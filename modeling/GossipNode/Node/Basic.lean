import GossipNode.Dial
import GossipNode.Node.Config
import GossipNode.Reactor.Turn

/-!
# Nodes

A node is a configuration, a number to recognise itself by, and, while it runs, a reactor.  What it
shares with its reactor, the pool of addresses and the listeners, outlives the run.

To stop is two things: `Node.halt` tells the reactor to end, and once the reactor has come to its
end, `Node.join` clears it away.

## Main definitions

* `Node`, `Lifecycle` — nodes, stopped or running.
* `Node.start`, `Node.halt`, `Node.join` — the life of a node.
* `Node.connect`, `Node.asyncConnect`, `Node.disconnect`, `Node.tryConnect` — what a running node
  can be asked for.
* `Node.setListenPort`, `Node.setBootstrap`, `Node.register` — what can be changed.
-/

namespace GossipNode

/-- Whether a node runs. -/
inductive Lifecycle
  | stopped (shared : Shared)
  | running (reactor : Reactor) (address : SocketAddress)
  deriving Inhabited

/-- A node. -/
structure Node where
  config : NodeConfig
  /-- The number by which the node recognises itself. -/
  uid : Int32
  lifecycle : Lifecycle
  deriving Inhabited

namespace Node

/-- A node that has not been started.  Its number is chosen at random unless it is configured. -/
def new (config : NodeConfig) (random : Int32) : Node :=
  ⟨config, config.uid.getD random, .stopped .empty⟩

/-- What a node has whether it runs or not. -/
def shared (n : Node) : Shared :=
  match n.lifecycle with
  | .stopped shared => shared
  | .running r _ => r.shared

/-- The node with other things that outlive a run. -/
def withShared (n : Node) (shared : Shared) : Node :=
  match n.lifecycle with
  | .stopped _ => { n with lifecycle := .stopped shared }
  | .running r address => { n with lifecycle := .running { r with shared } address }

/-- The reactor of a node that has been started. -/
def reactor? (n : Node) : Option Reactor :=
  match n.lifecycle with
  | .stopped _ => none
  | .running r _ => some r

/-- Whether a node has been started and its reactor has not come to its end. -/
def isRunning (n : Node) : Bool := n.reactor?.any (·.running)

/-- The address a node listens on. -/
def localAddress (n : Node) : Option SocketAddress :=
  match n.lifecycle with
  | .stopped _ => none
  | .running _ address => some address

/-- How a node introduces itself. -/
def peerInfo (n : Node) : Option PeerInfo := n.reactor?.map (·.config.ownInfo)

/-- How a node that listens on a port introduces itself. -/
def ownInfo (n : Node) (port : UInt16) : PeerInfo where
  name := n.config.name
  listenPort := Int32.ofNat port.toNat
  version := n.config.version
  networkId := n.config.networkId
  uid := n.uid

/-- Starts a node and dials the addresses it is configured with.  A node that runs is left alone;
one that cannot listen stays stopped. -/
def start (n : Node) (now : Nat) (find : Resolver)
    (bind : SocketAddress → Except IoError SocketAddress) : Except PeerError Unit × Node :=
  if n.isRunning then (.ok (), n)
  else
    match listen find n.config.bindHost n.config.listenPort bind with
    | .error e => (.error e, { n with lifecycle := .stopped n.shared })
    | .ok address =>
      let config : ReactorConfig :=
        ⟨n.ownInfo address.port, n.config.target, n.config.handshakeLimit⟩
      let r := n.config.bootstrap.foldl Reactor.dial (Reactor.start config n.shared now)
      (.ok (), { n with lifecycle := .running r address })

/-- Tells a running node to end: what is being dialed is given up, and the reactor is sent the
command to end. -/
def halt (n : Node) : Node :=
  match n.lifecycle with
  | .stopped _ => n
  | .running r address =>
    let r := { r with dialing := [] }
    let r := if r.running then r.command .shutdown else r
    { n with lifecycle := .running r address }

/-- Clears away a reactor that has come to its end. -/
def join (n : Node) : Node :=
  match n.lifecycle with
  | .running r _ => if r.running then n else { n with lifecycle := .stopped r.shared }
  | .stopped _ => n

/-- One turn of the reactor of a node that has been started. -/
def turn (n : Node) (sight : Sight) (means : Means) : Node :=
  match n.lifecycle with
  | .stopped _ => n
  | .running r address => { n with lifecycle := .running (r.turn sight means) address }

/-- Asks something of the reactor of a node that has been started. -/
def ask {α : Type} (n : Node) (request : Reactor → Except PeerError α × Reactor) :
    Except PeerError α × Node :=
  match n.lifecycle with
  | .stopped _ => (.error .notRunning, n)
  | .running r address =>
    let (answer, r) := request r
    (answer, { n with lifecycle := .running r address })

/-- Sends a command to the reactor. -/
def sendCommand (n : Node) (c : Command) : Except PeerError Unit × Node :=
  n.ask fun r => if r.running then (.ok (), r.command c) else (.error .notRunning, r)

/-- Dials an address and waits for what comes of it. -/
def connect (n : Node) (address : String) (attempt : Endpoint → Attempt) :
    Except PeerError SocketAddress × Node :=
  n.ask fun r =>
    let (answer, queue) := handOver r.running r.queue address (dial address attempt)
    (answer, { r with queue })

/-- Dials an address in the background. -/
def asyncConnect (n : Node) (address : String) : Except PeerError Unit × Node :=
  n.ask fun r => (.ok (), r.dial address)

/-- Asks for a connection to be closed. -/
def disconnect (n : Node) (id : PeerId) : Except PeerError Unit × Node :=
  n.sendCommand (.closePeer id)

/-- Asks for a round of dialing. -/
def tryConnect (n : Node) : Except PeerError Unit × Node := n.sendCommand .tryConnect

/-- Changes the port to listen on, which a running node refuses. -/
def setListenPort (n : Node) (port : UInt16) : Except PeerError Unit × Node :=
  if n.isRunning then (.error (.setup .portInUse), n)
  else (.ok (), { n with config := { n.config with listenPort := port } })

/-- Changes the addresses that are dialed at the next start. -/
def setBootstrap (n : Node) (addresses : List String) : Node :=
  { n with config := { n.config with bootstrap := addresses } }

/-- Adds a listener. -/
def register (n : Node) (label : String) (answer : List Event → Event → Bool) : Node :=
  n.withShared { n.shared with listeners := n.shared.listeners.register label answer }

/-- The number of connections. -/
def peerCount (n : Node) : Nat := n.shared.table.size

/-- The number of peers that have introduced themselves. -/
def readyCount (n : Node) : Nat := n.shared.table.readyCount

/-- The number of addresses that wait in the pool. -/
def poolSize (n : Node) : Nat := n.shared.pool.size

/-- The number of addresses that are being dialed in the background. -/
def pendingDials (n : Node) : Nat := (n.reactor?.map (·.dialing.length)).getD 0

end Node

end GossipNode
