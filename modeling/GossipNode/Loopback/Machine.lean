import GossipNode.Loopback.Network
import GossipNode.Node.Basic

/-!
# Nodes on one machine

A machine is a network and the nodes that run on it.  Its nodes take their turns one after the other
until none of them has anything left to do.

## Main definitions

* `Network.turn` — one turn of a reactor on a network.
* `Network.settle` — turns of one reactor until it is at rest.
* `Machine` — a network and its nodes.
* `Machine.settle` — turns of all nodes until all are at rest.
* `Machine.start`, `Machine.stop`, `Machine.connect` — nodes come, go and meet.
-/

namespace GossipNode.Loopback

namespace Network

/-! ### A reactor on a network -/

/-- What a reactor that listens on an address sees. -/
def sight (n : Network) (r : Reactor) (address : SocketAddress) : Sight where
  began := n.clock
  now := n.clock
  arrival := match n.arrival address with
    | some (socket, remote) => .connection socket remote
    | none => .none
  reports := r.mux.sockets.entries.map fun (id, s) => (id, .ok (n.readiness s))

/-- The peer that is served when something is due. -/
def served : Wakeup → Option PeerId
  | .peer id _ => some id
  | .control (some (.sendHandshake id)) => some id
  | .control (some (.closePeer id)) => some id
  | _ => none

/-- What the network does while a socket is served, or none. -/
def means (n : Network) : Option SocketId → Means
  | some s => ⟨n.clock, n.incoming s, n.writes s, []⟩
  | none => ⟨n.clock, .waiting [], [], []⟩

/-- What a deed of a reactor does to the network; `s` is the socket of the peer that is served. -/
def perform (s : Option SocketId) (n : Network) (deed : Deed) : Network :=
  match s, deed with
  | some s, .wrote _ bytes => n.deliver s bytes
  | some s, .read _ (.ok (.data count)) => n.consume s count
  | some s, .read _ (.error (.decode _)) => n.consume s readChunk
  | some s, .read _ (.ok .wouldBlock) => n.noteDrained s
  | some s, .read _ (.error (.io _)) => n.noteBroken s
  | _, .retired p => n.close p.socket
  | _, .dropped s => n.close s
  | _, _ => n

/-- A reactor serves what is due. -/
def serveDue (n : Network) (r : Reactor) (address : SocketAddress) (w : Wakeup) :
    Network × Reactor :=
  let n := match w with
    | .accept _ _ => n.accept address
    | _ => n
  let id := served w
  let s := do (← r.table.get? (← id)).socket
  let before := r.deeds.length
  let r := r.handle w (n.means s)
  let n := ((r.deeds.take (r.deeds.length - before)).reverse).foldl (perform s) n
  match id, s with
  | some id, some s => (if r.owes id then n.noteFull s else n, r)
  | _, _ => (n, r)

/-- An address that is dialed in the background is tried. -/
def tryDial (n : Network) (r : Reactor) (address : String) : Network × Reactor :=
  match Endpoint.parse? address with
  | none => (n, r.dialEnded address none)
  | some e =>
    match n.connectTo e with
    | (.connected socket remote, n) => (n, r.dialEnded address (some (socket, remote)))
    | (_, n) => (n, r.dialEnded address none)

/-- One turn of a reactor that listens on an address, and whether there was anything to do. -/
def turn (n : Network) (r : Reactor) (address : SocketAddress) : Bool × Network × Reactor :=
  if !r.running then (false, n, r)
  else
    match r.wait (n.sight r address) with
    | (some w, r) => (true, n.serveDue r address w)
    | (none, r) =>
      match r.dialing with
      | [] => (false, n, r)
      | a :: _ => (true, n.tryDial r a)

/-- How many turns are taken at most before a machine is taken to be at rest. -/
def turnLimit : Nat := 1000000

/-- Turns of one reactor until it is at rest. -/
def settleLoop (address : SocketAddress) : Nat → Network → Reactor → Network × Reactor
  | 0, n, r => (n, r)
  | turns + 1, n, r =>
    match n.turn r address with
    | (true, n, r) => settleLoop address turns n r
    | (false, n, r) => (n, r)

/-- Turns of one reactor until it is at rest. -/
def settle (n : Network) (r : Reactor) (address : SocketAddress) : Network × Reactor :=
  settleLoop address turnLimit n r

end Network

/-! ### Nodes on a machine -/

/-- A network and the nodes on it, each under a name, in the order in which they came. -/
structure Machine where
  network : Network
  nodes : List (String × Node)
  deriving Inhabited

namespace Machine

/-- A machine without nodes. -/
def start (hasRoutes : Bool) : Machine := ⟨.start hasRoutes, []⟩

/-- The node of a given name. -/
def node? (m : Machine) (name : String) : Option Node := m.nodes.lookup name

/-- Enters a node that has changed, or a new one at the end. -/
def put (m : Machine) (name : String) (n : Node) : Machine :=
  if (m.node? name).isSome then
    { m with nodes := m.nodes.map fun e => if e.1 = name then (name, n) else e }
  else { m with nodes := m.nodes ++ [(name, n)] }

/-- One turn of one node, and whether it had anything to do. -/
def turnOf (network : Network) (n : Node) : Bool × Network × Node :=
  match n.lifecycle with
  | .stopped _ => (false, network, n)
  | .running r address =>
    let (moved, network, r) := network.turn r address
    (moved, network, { n with lifecycle := .running r address })

/-- One turn of every node in order, and whether any had something to do. -/
def round (m : Machine) : Bool × Machine :=
  let (moved, network, nodes) := m.nodes.foldl
    (fun (moved, network, nodes) (name, n) =>
      let (here, network, n) := turnOf network n
      (moved || here, network, (name, n) :: nodes))
    (false, m.network, [])
  (moved, ⟨network, nodes.reverse⟩)

/-- Rounds until all nodes are at rest. -/
def settleLoop : Nat → Machine → Machine
  | 0, m => m
  | rounds + 1, m =>
    match m.round with
    | (true, m) => settleLoop rounds m
    | (false, m) => m

/-- Turns of all nodes until all are at rest. -/
def settle (m : Machine) : Machine := settleLoop Network.turnLimit m

/-- Starts a node. -/
def startNode (m : Machine) (name : String) (n : Node) : Except PeerError Unit × Machine :=
  let listened (a : SocketAddress) := m.network.listen a n.config.backlog
  let (answer, started) := n.start m.network.clock Host.resolve fun a => (listened a).map (·.1)
  let address := listenAddress Host.resolve n.config.bindHost n.config.listenPort
  let network := match n.isRunning, address with
    | false, .ok a =>
      match listened a with
      | .ok (_, network) => network
      | .error _ => m.network
    | _, _ => m.network
  (answer, { m with network }.put name started)

/-- Stops a node and waits for its reactor to end. -/
def stopNode (m : Machine) (name : String) (n : Node) : Machine :=
  let m := (m.put name n.halt).settle
  match m.node? name with
  | none => m
  | some n =>
    let network := match n.localAddress with
      | some a => m.network.unlisten a
      | none => m.network
    { m with network }.put name n.join

/-- A node dials an address and waits for what comes of it. -/
def connectNode (m : Machine) (name : String) (n : Node) (address : String) :
    Except PeerError SocketAddress × Machine :=
  let attempt (e : Endpoint) := m.network.connectTo e
  let (answer, connected) := n.connect address fun e => (attempt e).1
  let network := match n.reactor?, Endpoint.parse? address with
    | some _, some e => (attempt e).2
    | _, _ => m.network
  (answer, { m with network }.put name connected)

end Machine

end GossipNode.Loopback
