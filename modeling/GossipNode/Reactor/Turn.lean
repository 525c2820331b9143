import GossipNode.Reactor.Basic

/-!
# The turns of a running node

A reactor runs in turns: it waits until something is due and serves it.  Serving a peer takes at
most one read and acts upon at most one envelope, so that no peer holds up the others; a peer with
bytes left to decode is put back.

What the outside does in a turn is given as data: a `Sight` while the reactor waits, `Means` while
it serves.

## Main definitions

* `Means` — what the outside does while something is served.
* `Reactor.dispatch` — acts upon an envelope.
* `Reactor.serve` — serves a peer.
* `Reactor.handle` — serves whatever is due.
* `Reactor.turn` — one turn.
-/

namespace GossipNode

/-- What the outside does while something is served. -/
structure Means where
  /-- The time, in milliseconds. -/
  now : Nat
  /-- What the socket of the peer that is served holds for the reader. -/
  incoming : Incoming
  /-- What that socket does with the bytes that are offered to it, offer by offer. -/
  writes : List WriteOutcome
  /-- Random words. -/
  words : List UInt64

namespace Reactor

/-- The farewell to a peer of another network. -/
def wrongNetwork (theirs ours : Int32) : Message :=
  .disconnect .wrongNetwork
    ("network " ++ toString theirs.toInt ++ " != " ++ toString ours.toInt)

/-- The farewell to a peer that is closed by command. -/
def closedByOperator : Message := .disconnect .unknown "closed by operator"

/-- Passes on where the peers that have introduced themselves can be reached, if there are any. -/
def sendDiscovery (r : Reactor) (p : Peer) (writes : List WriteOutcome) : Reactor :=
  match r.table.readyAddresses with
  | [] => r
  | addresses => (r.send p (.discovery addresses) writes).reactor

/-- Answers the introduction of a peer that has just been accepted: one that came by itself is told
who the node is and whom it knows. -/
def welcome (r : Reactor) (p : Peer) (writes : List WriteOutcome) : Reactor :=
  let r := r.notify (.peerWelcome p.id)
  if p.direction = .inbound then
    let s := r.send p (.peerInfo r.config.ownInfo) writes
    if s.usable then s.reactor.sendDiscovery s.peer s.rest else s.reactor.closePeer p.id
  else r

/-- A peer introduces itself.  One of another network is told so and let go; one that is the node
itself is let go; of several introductions the first one counts. -/
def onPeerInfo (r : Reactor) (p : Peer) (info : PeerInfo) (writes : List WriteOutcome) : Reactor :=
  let own := r.config.ownInfo
  if info.networkId ≠ own.networkId then
    (r.send p (wrongNetwork info.networkId own.networkId) writes).reactor.closePeer p.id
  else if info.uid = own.uid then r.closePeer p.id
  else
    match p.session.markReady info with
    | (false, _) => r
    | (true, session) =>
      let p := { p with session }
      (r.put p).welcome p writes

/-- Addresses are heard of: they wait in the pool, and a round of dialing is due. -/
def onDiscovery (r : Reactor) (addresses : List String) : Reactor :=
  { r with shared := { r.shared with pool := r.shared.pool.extend addresses } }.command .tryConnect

/-- Acts upon an envelope.  One of a kind that is not known is passed over; one whose payload is not
what its kind asks for ends the conversation. -/
def dispatch (r : Reactor) (p : Peer) (e : Envelope) (writes : List WriteOutcome) : Reactor :=
  let r := r.note (.dispatched p.id e)
  match e.message with
  | .error error => if error.isFatal then r.closePeer p.id else r
  | .ok (.peerInfo info) => r.onPeerInfo p info writes
  | .ok (.discovery addresses) => r.onDiscovery addresses
  | .ok (.disconnect _ _) => r.closePeer p.id

/-- Puts a peer back if it is still there and has bytes left to decode. -/
def requeueBuffered (r : Reactor) (id : PeerId) : Reactor :=
  match r.table.get? id with
  | some p =>
    if r.mux.isRegistered id ∧ p.session.hasBufferedInput then
      { r with mux := r.mux.requeue id }
    else r
  | none => r

/-- Acts upon what was decoded. -/
def actUpon (r : Reactor) (p : Peer) (decoded : Except DecodeError (Option Envelope))
    (writes : List WriteOutcome) : Reactor :=
  match decoded with
  | .ok (some e) => (r.dispatch p e writes).requeueBuffered p.id
  | .ok none => r
  | .error _ => r.closePeer p.id

/-- Reads once from the socket of a peer and acts upon what can be decoded then. -/
def readOnce (r : Reactor) (p : Peer) (incoming : Incoming) (writes : List WriteOutcome) :
    Reactor :=
  let (outcome, session) := p.session.fill incoming
  let p := { p with session }
  let r := (r.put p).note (.read p.id outcome)
  match outcome with
  | .error _ | .ok .ended => r.closePeer p.id
  | .ok _ =>
    let (decoded, session) := p.session.nextEnvelope
    let p := { p with session }
    (r.put p).actUpon p decoded writes

/-- Takes input from a peer.  A message that has been read already is acted upon before anything
else is read. -/
def takeInput (r : Reactor) (p : Peer) (incoming : Incoming) (writes : List WriteOutcome) :
    Reactor :=
  let (decoded, session) := p.session.nextEnvelope
  match decoded with
  | .ok none => r.readOnce p incoming writes
  | decoded =>
    let p := { p with session }
    (r.put p).actUpon p decoded writes

/-- Serves a peer whose socket reports something: output first, then input. -/
def serve (r : Reactor) (id : PeerId) (ready : Readiness) (means : Means) : Reactor :=
  match r.table.get? id with
  | none => { r with mux := r.mux.deregister id }
  | some p =>
    let s : Sending := if ready.writable then r.flush p means.writes
      else ⟨r, p, true, means.writes⟩
    if s.usable then
      if ready.readable ∨ ready.readClosed then
        s.reactor.takeInput s.peer means.incoming s.rest
      else s.reactor
    else s.reactor.closePeer id

/-- Begins a round of dialing: as many addresses of the pool as there are peers missing. -/
def tryConnect (r : Reactor) (words : List UInt64) : Reactor :=
  let r := r.notify .tryConnect
  let (picks, pool, _) := r.shared.pool.selectForDial r.table.size r.config.target
    r.table.connectedAddresses ⟨words, 0⟩
  picks.foldl dial { r with shared := { r.shared with pool } }

/-- Introduces the node to a peer. -/
def greet (r : Reactor) (id : PeerId) (writes : List WriteOutcome) : Reactor :=
  match r.table.get? id with
  | none => r
  | some p =>
    let s := r.send p (.peerInfo r.config.ownInfo) writes
    if s.usable then s.reactor else s.reactor.closePeer id

/-- Takes leave of a peer and lets it go. -/
def dismiss (r : Reactor) (id : PeerId) (writes : List WriteOutcome) : Reactor :=
  match r.table.get? id with
  | none => r
  | some p => (r.send p closedByOperator writes).reactor.closePeer id

/-- Whether a peer has had its time to introduce itself. -/
def isStale (limit now : Nat) (p : Peer) : Bool := !p.isReady && limit ≤ now - p.connectedAt

/-- Lets go of peers that have had their time to introduce themselves. -/
def expireHandshakes (r : Reactor) (now : Nat) : Reactor :=
  match r.config.handshakeLimit with
  | none => r
  | some limit =>
    ((r.table.entries.filter fun e => isStale limit now e.2).map (·.1)).foldl closePeer r

/-- The sockets of connections that wait to be taken over. -/
def unclaimedSockets (commands : List Command) : List SocketId :=
  commands.filterMap fun
    | .adopt socket _ _ => some socket
    | _ => none

/-- Ends the run: the listeners are told, all peers are let go, and commands that still wait are
dropped. -/
def teardown (r : Reactor) : Reactor :=
  let r := r.notify .shutdown
  let retired := r.table.values.map fun p =>
    Deed.retired { p with session := p.session.markClosed }
  let dropped := (unclaimedSockets r.queue.commands).map Deed.dropped
  { r.withTable .empty with
    mux := r.mux.clear, queue := .empty, running := false
    deeds := (retired ++ dropped).reverse ++ r.deeds }

/-- Obeys a command. -/
def obey (r : Reactor) (c : Command) (means : Means) : Reactor :=
  match c with
  | .shutdown => r.teardown
  | .sendHandshake id => r.greet id means.writes
  | .closePeer id => r.dismiss id means.writes
  | .tryConnect => r.tryConnect means.words
  | .adopt socket remote dialed => r.insertPeer socket remote .outbound (some dialed) means.now

/-- Serves whatever is due. -/
def handle (r : Reactor) (w : Wakeup) (means : Means) : Reactor :=
  match w with
  | .peer id ready => r.serve id ready means
  | .control none | .failed _ => r.teardown
  | .control (some c) => r.obey c means
  | .accept socket remote => r.insertPeer socket remote .inbound none means.now
  | .acceptFailed _ => { r with mux := r.mux.pauseAccept means.now acceptBackoff }
  | .tick => r.expireHandshakes means.now
  | .acceptResumed => r

/-- Whether bytes are due to a peer. -/
def owes (r : Reactor) (id : PeerId) : Bool :=
  (r.table.get? id).any (·.session.hasPendingOutput)

/-- Waits for the next thing that is due. -/
def wait (r : Reactor) (sight : Sight) : Option Wakeup × Reactor :=
  let (wakeup, mux, queue) := r.mux.wait r.queue r.owes sight
  (wakeup, { r with mux, queue })

/-- One turn.  A reactor that has ended does nothing. -/
def turn (r : Reactor) (sight : Sight) (means : Means) : Reactor :=
  if r.running then
    match r.wait sight with
    | (some w, r) => r.handle w means
    | (none, r) => r
  else r

/-- The attempt to dial an address in the background has come to its end: the address is no longer
being dialed, and a connection that was made waits to be taken over. -/
def dialEnded (r : Reactor) (address : String) (outcome : Option (SocketId × SocketAddress)) :
    Reactor :=
  let r := { r with dialing := r.dialing.erase address }
  match outcome with
  | none => r
  | some (socket, remote) =>
    if r.running then r.command (.adopt socket remote address)
    else r.note (.dropped socket)

end Reactor

end GossipNode
