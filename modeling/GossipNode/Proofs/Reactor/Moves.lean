import GossipNode.Proofs.Peer.Calls
import GossipNode.Reactor.Turn

/-!
# What a turn is made of

The handlers of a reactor change the table of peers, the multiplexer, the queue and the record in
many places.  All they do is made of a few moves, each on behalf of at most one peer.  What is true
of a reactor throughout its runs is shown by looking at every move once.

## Main definitions

* `ReactorConfig.admits` — whether an introduction is accepted.
* `Reactor.Holds` — a peer stands in the table as it is.
* `Reactor.perform` — a call on the session of a peer, with what is put on record.
* `Reactor.Move` — the moves, with the peer they are on behalf of.
* `Reactor.Moves` — any number of moves on behalf of some peers.
* `Wakeup.ends`, `Reactor.concerns` — what ends a run, and on whose behalf anything else is served.

## Main results

* `Reactor.handle_moves` — **whatever is served is served by moves on behalf of those concerned**,
  unless it ends the run.
* `Reactor.wait_spec` — what waiting changes.
-/

namespace GossipNode

/-- Whether a node accepts an introduction: it comes from its own network and not from itself. -/
abbrev ReactorConfig.admits (config : ReactorConfig) (info : PeerInfo) : Prop :=
  info.networkId = config.ownInfo.networkId ∧ info.uid ≠ config.ownInfo.uid

/-- Whether a call moves bytes and nothing else. -/
def Session.Call.isTraffic : Session.Call → Bool
  | .send .. | .flush _ | .fill _ | .nextEnvelope => true
  | .markReady _ | .markClosed => false

theorem Session.state_perform_traffic {c : Session.Call} (h : c.isTraffic = true) (s : Session) :
    (s.perform c).state = s.state := by
  cases c with
  | send m outcomes => exact s.state_send m outcomes
  | flush outcomes => rfl
  | fill incoming => exact s.state_fill incoming
  | nextEnvelope => rfl
  | markReady info => cases h
  | markClosed => cases h

theorem Session.identity_perform_traffic {c : Session.Call} (h : c.isTraffic = true)
    (s : Session) : (s.perform c).identity = s.identity := by
  cases c with
  | send m outcomes => exact s.identity_send m outcomes
  | flush outcomes => rfl
  | fill incoming => exact s.identity_fill incoming
  | nextEnvelope => rfl
  | markReady info => cases h
  | markClosed => cases h

/-- A peer after a call on its session. -/
def Peer.perform (p : Peer) (c : Session.Call) : Peer := { p with session := p.session.perform c }

/-- What a call on the session of a peer puts on record, last first. -/
def Peer.record (p : Peer) : Session.Call → List Deed
  | .send m outcomes => [.wrote p.id (p.session.send m outcomes).accepted, .sent p.id m]
  | .flush outcomes => [.wrote p.id (p.session.flush outcomes).accepted]
  | .fill incoming => [.read p.id (p.session.fill incoming).1]
  | .nextEnvelope | .markReady _ | .markClosed => []

namespace Reactor

/-- A peer stands in the table as it is. -/
def Holds (r : Reactor) (p : Peer) : Prop := r.table.get? p.id = some p

/-- Every peer stands in the table under its own number. -/
def Keyed (r : Reactor) : Prop := ∀ id p, r.table.get? id = some p → p.id = id

/-- A call on the session of a peer. -/
def perform (r : Reactor) (p : Peer) (c : Session.Call) : Reactor :=
  { r.put (p.perform c) with deeds := p.record c ++ r.deeds }

/-- The peer on a connection that is taken over. -/
def newPeer (r : Reactor) (socket : SocketId) (remote : SocketAddress) (direction : Direction)
    (dialed : Option String) (now : Nat) : Peer where
  id := r.nextId
  socket
  remote
  direction
  dialed
  connectedAt := now
  session := .start

/-! ### What the table holds after a change -/

@[simp] theorem get?_put (r : Reactor) (p : Peer) (k : PeerId) :
    (r.put p).table.get? k = if p.id = k then some p else r.table.get? k :=
  IdMap.get?_insert r.table p.id p k

@[simp] theorem get?_perform (r : Reactor) (p : Peer) (c : Session.Call) (k : PeerId) :
    (r.perform p c).table.get? k = if p.id = k then some (p.perform c) else r.table.get? k :=
  get?_put r (p.perform c) k

theorem holds_put (r : Reactor) (p : Peer) : (r.put p).Holds p :=
  (get?_put r p p.id).trans (if_pos rfl)

theorem holds_perform (r : Reactor) (p : Peer) (c : Session.Call) :
    (r.perform p c).Holds (p.perform c) :=
  (get?_perform r p c p.id).trans (if_pos rfl)

@[simp] theorem get?_closePeer (r : Reactor) (id k : PeerId) :
    (r.closePeer id).table.get? k = if id = k then none else r.table.get? k := by
  unfold closePeer
  simp only
  split
  · next h =>
    split
    · next same => exact same ▸ h
    · rfl
  · exact IdMap.get?_erase r.table id k

section Insert

variable (r : Reactor) (socket : SocketId) (remote : SocketAddress) (direction : Direction)
  (dialed : Option String) (now : Nat)

/-- A connection that is taken over gets the next number. -/
theorem table_insertPeer : (r.insertPeer socket remote direction dialed now).table =
    r.table.insert r.nextId (r.newPeer socket remote direction dialed now) := by
  unfold insertPeer
  simp only
  split <;> rfl

@[simp] theorem get?_insertPeer (k : PeerId) :
    (r.insertPeer socket remote direction dialed now).table.get? k =
      if r.nextId = k then some (r.newPeer socket remote direction dialed now)
      else r.table.get? k := by
  rw [table_insertPeer]
  exact IdMap.get?_insert r.table r.nextId _ k

@[simp] theorem mux_insertPeer :
    (r.insertPeer socket remote direction dialed now).mux = r.mux.register r.nextId socket := by
  unfold insertPeer
  simp only
  split <;> rfl

@[simp] theorem nextId_insertPeer :
    (r.insertPeer socket remote direction dialed now).nextId = r.nextId.next := by
  unfold insertPeer
  simp only
  split <;> rfl

@[simp] theorem running_insertPeer :
    (r.insertPeer socket remote direction dialed now).running = r.running := by
  unfold insertPeer
  simp only
  split <;> rfl

@[simp] theorem config_insertPeer :
    (r.insertPeer socket remote direction dialed now).config = r.config := by
  unfold insertPeer
  simp only
  split <;> rfl

@[simp] theorem deeds_insertPeer : (r.insertPeer socket remote direction dialed now).deeds =
    .joined (r.newPeer socket remote direction dialed now) :: r.deeds := by
  unfold insertPeer
  simp only
  split <;> rfl

/-- On a connection the node began an introduction is due. -/
theorem queue_insertPeer : (r.insertPeer socket remote direction dialed now).queue =
    if direction = .outbound then r.queue.send (.sendHandshake r.nextId) else r.queue := by
  unfold insertPeer
  simp only
  split <;> rfl

theorem mem_queue_insertPeer {c : Command}
    (h : c ∈ (r.insertPeer socket remote direction dialed now).queue.commands) :
    c ∈ r.queue.commands ∨ c = .sendHandshake r.nextId := by
  rw [queue_insertPeer] at h
  split at h
  · exact (List.mem_append.1 h).imp_right List.mem_singleton.1
  · exact Or.inl h

end Insert

@[simp] theorem mux_closePeer (r : Reactor) (id : PeerId) :
    (r.closePeer id).mux = r.mux.deregister id := by
  unfold closePeer
  simp only
  split <;> rfl

@[simp] theorem queue_closePeer (r : Reactor) (id : PeerId) : (r.closePeer id).queue = r.queue := by
  unfold closePeer
  simp only
  split <;> rfl

@[simp] theorem nextId_closePeer (r : Reactor) (id : PeerId) :
    (r.closePeer id).nextId = r.nextId := by
  unfold closePeer
  simp only
  split <;> rfl

@[simp] theorem running_closePeer (r : Reactor) (id : PeerId) :
    (r.closePeer id).running = r.running := by
  unfold closePeer
  simp only
  split <;> rfl

@[simp] theorem config_closePeer (r : Reactor) (id : PeerId) :
    (r.closePeer id).config = r.config := by
  unfold closePeer
  simp only
  split <;> rfl

/-- A peer that is let go is watched no longer and stands in the table no more, and goes on record
as closed; then the listeners are told. -/
theorem closePeer_found {r : Reactor} {id : PeerId} {p : Peer}
    (there : r.table.get? id = some p) :
    r.closePeer id = (({ r with mux := r.mux.deregister id }.withTable (r.table.erase id)).note
      (.retired (p.perform .markClosed))).notify (.peerClose id) := by
  have found : ({ r with mux := r.mux.deregister id } : Reactor).table.get? id = some p := there
  unfold closePeer
  simp only
  rw [found]
  rfl

theorem deeds_closePeer {r : Reactor} {p : Peer} (held : r.Holds p) :
    (r.closePeer p.id).deeds =
      .notified (.peerClose p.id) r.shared.listeners.audience ::
        .retired (p.perform .markClosed) :: r.deeds := by
  rw [closePeer_found held]
  rfl

/-- Of a peer that is not there nothing is left but to watch it no longer. -/
theorem closePeer_unknown {r : Reactor} {id : PeerId} (unknown : r.table.get? id = none) :
    r.closePeer id = { r with mux := r.mux.deregister id } := by
  have missing : ({ r with mux := r.mux.deregister id } : Reactor).table.get? id = none := unknown
  unfold closePeer
  simp only
  rw [missing]

/-! ### Moves -/

/-- One move of a reactor, on behalf of a peer or of none. -/
inductive Move (r : Reactor) : Option PeerId → Reactor → Prop
  /-- A peer that is not there is watched no longer. -/
  | stray {id : PeerId} (unknown : r.table.get? id = none) :
    Move r (some id) { r with mux := r.mux.deregister id }
  /-- Bytes are moved to or from a peer. -/
  | call {p : Peer} {c : Session.Call} (held : r.Holds p) (traffic : c.isTraffic = true) :
    Move r (some p.id) (r.perform p c)
  /-- An envelope is acted upon that does not introduce the peer. -/
  | pass {p : Peer} {e : Envelope} (held : r.Holds p)
      (known : ∀ info, e.message = .ok (.peerInfo info) →
        r.config.admits info ∧ p.session.state ≠ .unverified) :
    Move r (some p.id) (r.note (.dispatched p.id e))
  /-- A peer introduces itself and is accepted. -/
  | welcome {p : Peer} {e : Envelope} {info : PeerInfo} (held : r.Holds p)
      (introduced : e.message = .ok (.peerInfo info)) (admitted : r.config.admits info)
      (new : p.session.state = .unverified) :
    Move r (some p.id) (((r.note (.dispatched p.id e)).put (p.perform (.markReady info))).notify
      (.peerWelcome p.id))
  /-- A peer introduces itself and is not accepted. -/
  | refuse {p : Peer} {e : Envelope} {info : PeerInfo} (held : r.Holds p)
      (introduced : e.message = .ok (.peerInfo info)) (strange : ¬ r.config.admits info)
      (writes : List WriteOutcome) :
    Move r (some p.id) ((r.note (.dispatched p.id e)).onPeerInfo p info writes)
  /-- A peer is let go. -/
  | close {p : Peer} (held : r.Holds p) : Move r (some p.id) (r.closePeer p.id)
  /-- A peer is put back. -/
  | requeue (id : PeerId) : Move r (some id) { r with mux := r.mux.requeue id }
  /-- Addresses are heard of. -/
  | learn (addresses : List String) : Move r none (r.onDiscovery addresses)
  /-- A round of dialing begins. -/
  | seek (words : List UInt64) : Move r none (r.tryConnect words)
  /-- New connections are paused. -/
  | pause (now limit : Nat) : Move r none { r with mux := r.mux.pauseAccept now limit }
  /-- A connection is taken over. -/
  | insert (socket : SocketId) (remote : SocketAddress) (direction : Direction)
      (dialed : Option String) (now : Nat) :
    Move r (some r.nextId) (r.insertPeer socket remote direction dialed now)

/-- Any number of moves on behalf of some peers, or of none. -/
inductive Moves (who : PeerId → Prop) (r : Reactor) : Reactor → Prop
  | refl : Moves who r r
  | step {s t : Reactor} {id? : Option PeerId} (earlier : Moves who r s) (last : Move s id? t)
      (allowed : ∀ id, id? = some id → who id) : Moves who r t

namespace Moves

variable {who : PeerId → Prop} {r s t : Reactor}

theorem trans (first : Moves who r s) (second : Moves who s t) : Moves who r t := by
  induction second with
  | refl => exact first
  | step _ last allowed ih => exact ih.step last allowed

theorem single {id : PeerId} (h : Move r (some id) s) (allowed : who id) : Moves who r s :=
  .step .refl h fun _ same => Option.some.inj same ▸ allowed

theorem chore (h : Move r none s) : Moves who r s :=
  .step .refl h fun _ impossible => by cases impossible

end Moves

/-! ### Introductions -/

/-- A peer of another network is told so and let go. -/
theorem onPeerInfo_otherNetwork {r : Reactor} {info : PeerInfo}
    (h : info.networkId ≠ r.config.ownInfo.networkId) (p : Peer) (writes : List WriteOutcome) :
    r.onPeerInfo p info writes = (r.perform p (.send (wrongNetwork info.networkId
      r.config.ownInfo.networkId) writes)).closePeer p.id := if_pos h

/-- A peer that is the node itself is let go. -/
theorem onPeerInfo_self {r : Reactor} {info : PeerInfo}
    (hnetwork : info.networkId = r.config.ownInfo.networkId)
    (huid : info.uid = r.config.ownInfo.uid) (p : Peer) (writes : List WriteOutcome) :
    r.onPeerInfo p info writes = r.closePeer p.id :=
  (if_neg (not_not_intro hnetwork)).trans (if_pos huid)

/-- Whoever is not accepted is let go, perhaps with a farewell. -/
theorem onPeerInfo_strange {r : Reactor} {info : PeerInfo} (strange : ¬ r.config.admits info)
    (p : Peer) (writes : List WriteOutcome) :
    (∃ m, r.onPeerInfo p info writes = (r.perform p (.send m writes)).closePeer p.id) ∨
      r.onPeerInfo p info writes = r.closePeer p.id := by
  by_cases other : info.networkId ≠ r.config.ownInfo.networkId
  · exact Or.inl ⟨_, onPeerInfo_otherNetwork other p writes⟩
  · have same := Classical.not_not.1 other
    refine Or.inr (onPeerInfo_self same ?_ p writes)
    exact Classical.not_not.1 fun foreign => strange ⟨same, foreign⟩

/-- An introduction that is not the first one changes nothing. -/
theorem onPeerInfo_known {r : Reactor} {p : Peer} {info : PeerInfo}
    (admitted : r.config.admits info) (known : p.session.state ≠ .unverified)
    (writes : List WriteOutcome) : r.onPeerInfo p info writes = r := by
  refine (if_neg (not_not_intro admitted.1)).trans ((if_neg admitted.2).trans ?_)
  rw [Session.markReady_known known]

/-- The first introduction is noted and answered. -/
theorem onPeerInfo_new {r : Reactor} {p : Peer} {info : PeerInfo}
    (admitted : r.config.admits info) (new : p.session.state = .unverified)
    (writes : List WriteOutcome) : r.onPeerInfo p info writes =
      (r.put (p.perform (.markReady info))).welcome (p.perform (.markReady info)) writes := by
  refine (if_neg (not_not_intro admitted.1)).trans ((if_neg admitted.2).trans ?_)
  simp only [Peer.perform, Session.perform, Session.markReady_unverified new]

/-! ### The handlers -/

/-- Bytes are moved to or from a peer, which is then let go. -/
theorem call_close_moves {r : Reactor} {p : Peer} {c : Session.Call} (held : r.Holds p)
    (traffic : c.isTraffic = true) : Moves (· = p.id) r ((r.perform p c).closePeer p.id) := by
  have called : Moves (· = p.id) r (r.perform p c) := .single (.call held traffic) rfl
  have closed : Move (r.perform p c) (some p.id) ((r.perform p c).closePeer p.id) :=
    .close (p := p.perform c) (holds_perform r p c)
  exact called.trans (.single closed rfl)

/-- An introduction is answered by moves on behalf of the peer. -/
theorem welcome_moves {r : Reactor} {p : Peer} (h : r.Holds p) (writes : List WriteOutcome) :
    Moves (· = p.id) (r.notify (.peerWelcome p.id)) (r.welcome p writes) := by
  have held : (r.notify (.peerWelcome p.id)).Holds p := h
  unfold welcome
  simp only
  split
  · have greeted : Moves (· = p.id) (r.notify (.peerWelcome p.id))
        ((r.notify (.peerWelcome p.id)).perform p (.send (.peerInfo r.config.ownInfo) writes)) :=
      .single (.call held rfl) rfl
    split
    · refine greeted.trans ?_
      unfold sendDiscovery
      split
      · exact .refl
      · exact .single (.call (c := .send _ _) (holds_perform _ _ _) rfl) rfl
    · exact call_close_moves (c := .send (.peerInfo r.config.ownInfo) writes) held rfl
  · exact .refl

/-- An envelope is acted upon by moves on behalf of the peer. -/
theorem dispatch_moves {r : Reactor} {p : Peer} (held : r.Holds p) (e : Envelope)
    (writes : List WriteOutcome) : Moves (· = p.id) r (r.dispatch p e writes) := by
  have passed (known : ∀ info, e.message = .ok (.peerInfo info) →
      r.config.admits info ∧ p.session.state ≠ .unverified) :
      Moves (· = p.id) r (r.note (.dispatched p.id e)) := .single (.pass held known) rfl
  unfold dispatch
  simp only
  split
  · next error herror =>
    have noted := passed fun info h => by rw [herror] at h; cases h
    split
    · exact noted.trans (.single (.close held) rfl)
    · exact noted
  · next info hinfo =>
    by_cases admitted : r.config.admits info
    · by_cases new : p.session.state = .unverified
      · rw [onPeerInfo_new (r := r.note _) admitted new]
        have welcomed : Moves (· = p.id) r _ := .single (.welcome held hinfo admitted new) rfl
        exact welcomed.trans (welcome_moves (holds_put _ (p.perform (.markReady info))) writes)
      · rw [onPeerInfo_known (r := r.note _) admitted new]
        exact passed fun info' h => by
          rw [hinfo] at h
          cases h
          exact ⟨admitted, new⟩
    · exact .single (.refuse held hinfo admitted writes) rfl
  · next addresses haddresses =>
    exact (passed fun info h => by rw [haddresses] at h; cases h).trans (.chore (.learn addresses))
  · next why text hwhy =>
    exact (passed fun info h => by rw [hwhy] at h; cases h).trans (.single (.close held) rfl)

theorem requeueBuffered_moves (r : Reactor) (id : PeerId) :
    Moves (· = id) r (r.requeueBuffered id) := by
  unfold requeueBuffered
  split
  · split
    · exact .single (.requeue id) rfl
    · exact .refl
  · exact .refl

/-- What was decoded is acted upon by moves on behalf of the peer. -/
theorem actUpon_moves {r : Reactor} {p : Peer} (held : r.Holds p)
    (decoded : Except DecodeError (Option Envelope)) (writes : List WriteOutcome) :
    Moves (· = p.id) r (r.actUpon p decoded writes) := by
  unfold actUpon
  split
  · next e => exact (dispatch_moves held e writes).trans (requeueBuffered_moves _ p.id)
  · exact .refl
  · exact .single (.close held) rfl

/-- What reading once comes to. -/
theorem readOnce_eq (r : Reactor) (p : Peer) (incoming : Incoming) (writes : List WriteOutcome) :
    r.readOnce p incoming writes =
      match (p.session.fill incoming).1 with
      | .error _ | .ok .ended => (r.perform p (.fill incoming)).closePeer p.id
      | .ok _ =>
        ((r.perform p (.fill incoming)).perform (p.perform (.fill incoming)) .nextEnvelope).actUpon
          ((p.perform (.fill incoming)).perform .nextEnvelope)
          (p.perform (.fill incoming)).session.nextEnvelope.1 writes := rfl

/-- What taking input comes to. -/
theorem takeInput_eq (r : Reactor) (p : Peer) (incoming : Incoming) (writes : List WriteOutcome) :
    r.takeInput p incoming writes =
      match p.session.nextEnvelope.1 with
      | .ok none => r.readOnce p incoming writes
      | decoded =>
        (r.perform p .nextEnvelope).actUpon (p.perform .nextEnvelope) decoded writes := rfl

theorem readOnce_moves {r : Reactor} {p : Peer} (held : r.Holds p) (incoming : Incoming)
    (writes : List WriteOutcome) : Moves (· = p.id) r (r.readOnce p incoming writes) := by
  have filled : Moves (· = p.id) r (r.perform p (.fill incoming)) := .single (.call held rfl) rfl
  have taken : Moves (· = p.id) r
      ((r.perform p (.fill incoming)).perform (p.perform (.fill incoming)) .nextEnvelope) :=
    filled.trans (.single (.call (holds_perform r p (.fill incoming)) rfl) rfl)
  rw [readOnce_eq]
  split
  · exact call_close_moves held rfl
  · exact call_close_moves held rfl
  · have held' := holds_perform (r.perform p (.fill incoming)) (p.perform (.fill incoming))
      .nextEnvelope
    exact taken.trans (actUpon_moves held' _ writes)

/-- Input is taken by moves on behalf of the peer. -/
theorem takeInput_moves {r : Reactor} {p : Peer} (held : r.Holds p) (incoming : Incoming)
    (writes : List WriteOutcome) : Moves (· = p.id) r (r.takeInput p incoming writes) := by
  rw [takeInput_eq]
  split
  · exact readOnce_moves held incoming writes
  · have taken : Moves (· = p.id) r (r.perform p .nextEnvelope) := .single (.call held rfl) rfl
    exact taken.trans (actUpon_moves (holds_perform r p .nextEnvelope) _ writes)

/-- A peer is served by moves on its behalf. -/
theorem serve_moves {r : Reactor} {id : PeerId} (keyed : r.Keyed)
    (ready : Readiness) (means : Means) : Moves (· = id) r (r.serve id ready means) := by
  unfold serve
  split
  · next unknown => exact .single (.stray unknown) rfl
  · next p hp =>
    have same := keyed id p hp
    subst same
    have held : r.Holds p := hp
    simp only
    split
    · have flushed : Moves (· = p.id) r (r.perform p (.flush means.writes)) :=
        .single (.call held rfl) rfl
      split
      · split
        · exact flushed.trans
            (takeInput_moves (p := p.perform _) (holds_perform _ _ _) means.incoming _)
        · exact flushed
      · exact call_close_moves (c := .flush means.writes) held rfl
    · rw [if_pos rfl]
      split
      · exact takeInput_moves held means.incoming means.writes
      · exact .refl

/-- The node introduces itself by moves on behalf of the peer. -/
theorem greet_moves {r : Reactor} {id : PeerId} (keyed : r.Keyed)
    (writes : List WriteOutcome) : Moves (· = id) r (r.greet id writes) := by
  unfold greet
  split
  · exact .refl
  · next p hp =>
    have same := keyed id p hp
    subst same
    simp only
    split
    · exact .single (.call (c := .send (.peerInfo r.config.ownInfo) writes) hp rfl) rfl
    · exact call_close_moves (c := .send (.peerInfo r.config.ownInfo) writes) hp rfl

/-- A peer is dismissed by moves on its behalf. -/
theorem dismiss_moves {r : Reactor} {id : PeerId} (keyed : r.Keyed)
    (writes : List WriteOutcome) :
    Moves (· = id) r (r.dismiss id writes) := by
  unfold dismiss
  split
  · exact .refl
  · next p hp =>
    have same := keyed id p hp
    subst same
    exact call_close_moves (c := .send closedByOperator writes) hp rfl

theorem Keyed.closePeer {r : Reactor} (h : r.Keyed) (id : PeerId) : (r.closePeer id).Keyed := by
  intro k p hp
  rw [get?_closePeer] at hp
  split at hp
  · cases hp
  · exact h k p hp

/-- Peers are let go one after the other. -/
theorem foldl_close_moves {who : PeerId → Prop} (ids : List PeerId) : ∀ {r : Reactor}, r.Keyed →
    (∀ id ∈ ids, who id) → Moves who r (ids.foldl Reactor.closePeer r) := by
  induction ids with
  | nil => intro r _ _; exact .refl
  | cons id ids ih =>
    intro r keyed allowed
    have first : Moves who r (r.closePeer id) := by
      cases hp : r.table.get? id with
      | none =>
        rw [closePeer_unknown hp]
        exact .single (.stray hp) (allowed id List.mem_cons_self)
      | some p =>
        have same := keyed id p hp
        subst same
        exact .single (.close hp) (allowed p.id List.mem_cons_self)
    exact first.trans (ih (keyed.closePeer id) fun k hk => allowed k (List.mem_cons_of_mem _ hk))

/-- The peers that have had their time to introduce themselves. -/
def Overdue (r : Reactor) (now : Nat) (id : PeerId) : Prop :=
  ∃ limit p, r.config.handshakeLimit = some limit ∧ (id, p) ∈ r.table.entries ∧
    isStale limit now p = true

theorem expireHandshakes_moves {r : Reactor} (keyed : r.Keyed) (now : Nat) :
    Moves (r.Overdue now) r (r.expireHandshakes now) := by
  unfold expireHandshakes
  split
  · exact .refl
  · next limit hlimit =>
    refine foldl_close_moves _ keyed fun id hid => ?_
    obtain ⟨⟨k, p⟩, hp, rfl⟩ := List.mem_map.1 hid
    obtain ⟨entered, stale⟩ := List.mem_filter.1 hp
    exact ⟨limit, p, hlimit, entered, stale⟩

/-! ### Turns -/

/-- On whose behalf something is served. -/
def concerns (r : Reactor) (means : Means) : Wakeup → PeerId → Prop
  | .peer id _ | .control (some (.sendHandshake id)) | .control (some (.closePeer id)) => (· = id)
  | .accept .. | .control (some (.adopt ..)) => (· = r.nextId)
  | .tick => r.Overdue means.now
  | _ => fun _ => False

end Reactor

/-- Whether a wakeup ends the run. -/
def Wakeup.ends : Wakeup → Bool
  | .control none | .control (some .shutdown) | .failed _ => true
  | _ => false

namespace Reactor

/-- What ends the run ends it. -/
theorem handle_ends {w : Wakeup} (h : w.ends = true) (r : Reactor) (means : Means) :
    r.handle w means = r.teardown := by
  unfold Wakeup.ends at h
  split at h
  · rfl
  · rfl
  · rfl
  · cases h

/-- **Whatever is served is served by moves on behalf of those concerned**, unless it ends the
run. -/
theorem handle_moves {r : Reactor} (keyed : r.Keyed)
    {w : Wakeup} (h : w.ends = false) (means : Means) :
    Moves (r.concerns means w) r (r.handle w means) := by
  cases w with
  | peer id ready => exact serve_moves keyed ready means
  | accept socket remote => exact .single (.insert socket remote .inbound none means.now) rfl
  | acceptFailed why => exact .chore (.pause ..)
  | tick => exact expireHandshakes_moves keyed means.now
  | acceptResumed => exact .refl
  | failed why => cases h
  | control command =>
    cases command with
    | none => cases h
    | some c =>
      cases c with
      | shutdown => cases h
      | sendHandshake id => exact greet_moves keyed means.writes
      | closePeer id => exact dismiss_moves keyed means.writes
      | tryConnect => exact .chore (.seek means.words)
      | adopt socket remote dialed =>
        exact .single (.insert socket remote .outbound (some dialed) means.now) rfl

end Reactor

end GossipNode
