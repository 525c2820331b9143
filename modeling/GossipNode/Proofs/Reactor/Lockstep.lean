import GossipNode.Proofs.Reactor.Likeness
import GossipNode.Proofs.Reactor.Postponement

/-!
# Runs in which one peer alone is heard

From some point of a run on only one peer is active: it sends bytes, and nobody else does anything.
What was left to do at that point comes first.  Peers that were put back are served until nothing
whole is left of what had been read from them, and commands that wait are obeyed.  None of it
depends on what the one peer sends, so two such runs from the same point go in step until all of it
is done, and whatever the peer has sent is unread until then.

## Main definitions

* `Reactor.Solo` — turns in which one peer alone is heard.
* `Reactor.AtRest` — nothing is left to do about the peer.
* `Reactor.Twins` — two reactors that look alike and have the same to do.
* `Reactor.Calm` — nothing is left of what comes before the peer.
* `Reactor.Unheard` — nothing has been read of what the peer has sent.

## Main results

* `Reactor.Twins.turn` — **what comes before the peer is done in step.**
* `Reactor.Unheard.turn` — the peer is not read from in the meantime.
* `Reactor.Solo.calms` — two runs are twins when all of it is done.
-/

namespace GossipNode

/-- What is served is nobody's doing but the peer's.  Others are served only because they were put
back or because bytes are due to them, and send nothing; no connection arrives; nobody has been
silent for too long. -/
def Wakeup.IsSolo (id : PeerId) (unread : Bytes) (r : Reactor) (means : Means) : Wakeup → Prop
  | .peer k ready => means.incoming.Fits (if k = id then unread else []) false ∧
      (k = id ∨ k ∈ r.mux.pending ∨ ready.readable = false ∧ ready.readClosed = false)
  | .accept .. | .acceptFailed _ | .failed _ => False
  | .tick => ∀ k, ¬ r.Overdue means.now k
  | .control _ | .acceptResumed => True

namespace Reactor

/-- Any number of turns in which one peer alone is heard and no socket fails.  What the peer has
sent and has not been read is kept along. -/
inductive Solo (id : PeerId) : Reactor → Bytes → Reactor → Bytes → Prop
  | rest (r : Reactor) (unread : Bytes) : Solo id r unread r unread
  | turn {r s : Reactor} {unread left : Bytes} (sight : Sight) (means : Means)
      (willing : Willing means.writes)
      (alone : ∀ w, (r.wait sight).1 = some w → w.IsSolo id unread r means)
      (later : Solo id (r.turn sight means) (unread.drop (readSince id r (r.turn sight means)))
        s left) :
    Solo id r unread s left

/-- Nothing is left to do: nobody was put back, no command waits, and the peer has gone or all that
it has sent has been read. -/
structure AtRest (id : PeerId) (unread : Bytes) (r : Reactor) : Prop where
  pending : r.mux.pending = []
  commands : r.queue.receive = none
  heard : r.table.get? id = none ∨ unread = []

/-- Nothing is left of what comes before sockets: the run has ended, or nobody was put back and no
command waits. -/
def Calm (r : Reactor) : Prop :=
  r.running = false ∨ (r.mux.pending = [] ∧ r.queue.receive = none)

theorem AtRest.calm {id : PeerId} {unread : Bytes} {r : Reactor} (h : AtRest id unread r) :
    r.Calm := Or.inr ⟨h.pending, h.commands⟩

/-! ### Twins -/

/-- Two reactors look alike to the last byte that has been read, and have the same to do. -/
structure Twins (r s : Reactor) : Prop extends Alike true r s where
  sockets : s.mux.sockets = r.mux.sockets
  pending : s.mux.pending = r.mux.pending
  queue : s.queue = r.queue
  nextId : s.nextId = r.nextId
  running : s.running = r.running

variable {id k : PeerId} {r s : Reactor} {p q : Peer} {writes writes' : List WriteOutcome}

/-- The end of a run says nothing to the peers. -/
theorem sentTo_teardown (r : Reactor) (k : PeerId) :
    sentTo k r.teardown.deeds = sentTo k r.deeds := by
  obtain ⟨new, deeds, kinds, -⟩ := deeds_teardown r
  rw [deeds]
  refine sentTo_silent fun d hd => ?_
  rcases kinds d hd with ⟨audience, rfl⟩ | ⟨socket, rfl⟩ | ⟨id, p, -, rfl⟩ <;> exact trivial

/-- A round of dialing comes to nothing but the news of it where no peer is missing. -/
theorem tryConnect_full {r : Reactor} (full : r.config.target ≤ r.table.size)
    (words : List UInt64) : r.tryConnect words = r.notify .tryConnect := by
  have selected := AddressPool.selectForDial_of_le full r.shared.pool r.table.connectedAddresses
    ⟨words, 0⟩
  unfold tryConnect
  simp only
  rw [show (r.notify .tryConnect).shared.pool.selectForDial (r.notify .tryConnect).table.size
    (r.notify .tryConnect).config.target (r.notify .tryConnect).table.connectedAddresses
      ⟨words, 0⟩ = _ from selected]
  rfl

namespace Twins

theorem refl (r : Reactor) : Twins r r := ⟨Alike.refl true r, rfl, rfl, rfl, rfl, rfl⟩

theorem calm_iff (h : Twins r s) : s.Calm ↔ r.Calm := by
  unfold Calm
  rw [h.running, h.pending, h.queue]

/-- As many rounds of dialing have been told by the one as by the other. -/
theorem dials (h : Twins r s) :
    (events s.deeds).count .tryConnect = (events r.deeds).count .tryConnect := by
  have same := h.rounds
  unfold Reactor.rounds at same
  rw [h.queue] at same
  omega

theorem heard (h : Twins r s) (k : PeerId) (e : Envelope) :
    Twins (r.note (.dispatched k e)) (s.note (.dispatched k e)) :=
  { h with toAlike := (congruent_alike true).heard h.toAlike k e }

theorem call {c c' : Session.Call} (h : Twins r s) (hp : r.Holds p) (hq : s.Holds q)
    (same : q.id = p.id) (akin : c.Akin c') : Twins (r.perform p c) (s.perform q c') :=
  { h with toAlike := h.toAlike.call hp hq same akin }

theorem notify (h : Twins r s) (event : Event) : Twins (r.notify event) (s.notify event) :=
  { h with toAlike := h.toAlike.notify event }

theorem close (h : Twins r s) (id : PeerId) : Twins (r.closePeer id) (s.closePeer id) where
  toAlike := h.toAlike.close id
  sockets := by
    rw [mux_closePeer, mux_closePeer, Multiplexer.sockets_deregister,
      Multiplexer.sockets_deregister, h.sockets]
  pending := by rw [mux_closePeer, mux_closePeer, Multiplexer.deregister, Multiplexer.deregister,
    h.pending]
  queue := by rw [queue_closePeer, queue_closePeer, h.queue]
  nextId := by rw [nextId_closePeer, nextId_closePeer, h.nextId]
  running := by rw [running_closePeer, running_closePeer, h.running]

theorem learn (h : Twins r s) (addresses : List String) :
    Twins (r.onDiscovery addresses) (s.onDiscovery addresses) :=
  { h with
    toAlike := h.toAlike.learn addresses
    queue := congrArg (·.send .tryConnect) h.queue }

end Twins

/-- **Acting upon an envelope leaves twins twins.** -/
theorem congruent_twins : Congruent true Twins where
  alike h := h.toAlike
  heard := Twins.heard
  call := Twins.call
  notify := Twins.notify
  close := Twins.close
  learn := Twins.learn

namespace Twins

/-- What is watched changes alike. -/
theorem watching (h : Twins r s) {mux mux' : Multiplexer} (sockets : mux'.sockets = mux.sockets)
    (pending : mux'.pending = mux.pending) :
    Twins { r with mux := mux } { s with mux := mux' } where
  toAlike := (h.toAlike.symm.watching mux).symm.watching mux'
  sockets := sockets
  pending := pending
  queue := h.queue
  nextId := h.nextId
  running := h.running

/-- Commands change alike. -/
theorem ordered (h : Twins r s) (queue : ControlQueue) :
    Twins { r with queue } { s with queue } where
  config := h.config
  peers := h.peers
  pool := h.pool
  said := h.said
  told := h.told
  rounds := congrArg (· + queue.commands.count .tryConnect) h.dials
  sockets := h.sockets
  pending := h.pending
  queue := rfl
  nextId := h.nextId
  running := h.running

/-! ### Those who were put back -/

theorem requeueBuffered (h : Twins r s) (id : PeerId) :
    Twins (r.requeueBuffered id) (s.requeueBuffered id) := by
  unfold Reactor.requeueBuffered
  cases there : r.table.get? id with
  | none =>
    rw [h.nobody there]
    exact h
  | some p =>
    obtain ⟨q, there', shown⟩ := h.exists_peer there
    have watched : s.mux.isRegistered id = r.mux.isRegistered id := by
      rw [Multiplexer.isRegistered, Multiplexer.isRegistered, h.sockets]
    have buffered : q.session.hasBufferedInput = p.session.hasBufferedInput := by
      rw [Session.hasBufferedInput, Session.hasBufferedInput, Peer.inbound_of_face shown]
    rw [there']
    simp only
    rw [watched, buffered]
    split
    · refine h.watching ?_ ?_
      · rw [Multiplexer.sockets_requeue, Multiplexer.sockets_requeue, h.sockets]
      · unfold Multiplexer.requeue
        rw [watched, h.pending]
        split
        · rfl
        · exact h.pending
    · exact h

theorem actUpon (h : Twins r s) (hp : r.Holds p) (hq : s.Holds q) (same : q.id = p.id)
    (decoded : Except DecodeError (Option Envelope)) (willing : Willing writes)
    (willing' : Willing writes') :
    Twins (r.actUpon p decoded writes) (s.actUpon q decoded writes') := by
  unfold Reactor.actUpon
  rw [same]
  split
  · next e =>
    exact (congruent_twins.dispatch h hp hq same e willing willing').requeueBuffered p.id
  · exact h
  · exact h.close p.id

/-- What has been read is taken off and acted upon alike. -/
theorem digest (h : Twins r s) (hp : r.Holds p) (hq : s.Holds q) (same : q.id = p.id)
    (willing : Willing writes) (willing' : Willing writes') :
    Twins (r.digest p writes) (s.digest q writes') := by
  have bytes := Peer.inbound_of_face (h.face_eq hp hq same)
  have decoded : q.session.nextEnvelope.1 = p.session.nextEnvelope.1 := by
    rw [Session.nextEnvelope, Session.nextEnvelope, bytes]
  have taken := h.call hp hq same .nextEnvelope
  unfold Reactor.digest
  rw [decoded]
  exact taken.actUpon (holds_perform r p _) (holds_perform s q _) same _ willing willing'

/-- Where nothing arrives taking input depends on what has been read before. -/
theorem takeInput (h : Twins r s) (hp : r.Holds p) (hq : s.Holds q) (same : q.id = p.id)
    (willing : Willing writes) (willing' : Willing writes') :
    Twins (r.takeInput p (.waiting []) writes) (s.takeInput q (.waiting []) writes') := by
  have bytes := Peer.inbound_of_face (h.face_eq hp hq same)
  have decoded : q.session.nextEnvelope.1 = p.session.nextEnvelope.1 := by
    rw [Session.nextEnvelope, Session.nextEnvelope, bytes]
  rw [takeInput_eq, takeInput_eq, decoded]
  split
  · have read := h.call hp hq same .vain
    exact read.digest (holds_perform r p _) (holds_perform s q _) same willing willing'
  · have digested := h.digest hp hq same willing willing'
    unfold Reactor.digest at digested
    rwa [decoded] at digested

/-! ### Commands -/

/-- The node introduces itself alike. -/
theorem greet (h : Twins r s) (consistent : r.Consistent) (consistent' : s.Consistent)
    (id : PeerId) (willing : Willing writes) (willing' : Willing writes') :
    Twins (r.greet id writes) (s.greet id writes') := by
  cases there : r.table.get? id with
  | none =>
    rw [greet_unknown there, greet_unknown (h.nobody there)]
    exact h
  | some p =>
    obtain ⟨q, there', shown⟩ := h.exists_peer there
    have held := consistent.holds there
    have held' := consistent'.holds there'
    have usable : (r.send p (.peerInfo r.config.ownInfo) writes).usable = true :=
      (p.session.send_willing (consistent.talking id p there) _ willing).1
    have usable' : (s.send q (.peerInfo s.config.ownInfo) writes').usable = true :=
      (q.session.send_willing (consistent'.talking id q there') _ willing').1
    unfold Reactor.greet
    rw [there, there']
    simp only
    rw [if_pos usable, if_pos usable', h.config]
    exact congruent_twins.send h held held' (Peer.id_of_face shown) _ writes writes'

/-- The node takes leave alike. -/
theorem dismiss (h : Twins r s) (consistent : r.Consistent) (consistent' : s.Consistent)
    (id : PeerId) (writes writes' : List WriteOutcome) :
    Twins (r.dismiss id writes) (s.dismiss id writes') := by
  cases there : r.table.get? id with
  | none =>
    rw [dismiss_unknown there, dismiss_unknown (h.nobody there)]
    exact h
  | some p =>
    obtain ⟨q, there', shown⟩ := h.exists_peer there
    have told := congruent_twins.send h (consistent.holds there) (consistent'.holds there')
      (Peer.id_of_face shown) closedByOperator writes writes'
    unfold Reactor.dismiss
    rw [there, there']
    exact told.close id

/-- A connection is taken over alike, whenever that is. -/
theorem insertPeer (h : Twins r s) (socket : SocketId) (remote : SocketAddress)
    (direction : Direction) (dialed : Option String) (now now' : Nat) :
    Twins (r.insertPeer socket remote direction dialed now)
      (s.insertPeer socket remote direction dialed now') := by
  have shown : (s.newPeer socket remote direction dialed now').face true =
      (r.newPeer socket remote direction dialed now).face true := by
    unfold newPeer Peer.face
    rw [h.nextId]
  let more := if direction = .outbound then [Command.sendHandshake r.nextId] else []
  have queue (t : Reactor) (next : t.nextId = r.nextId) (now : Nat) :
      (t.insertPeer socket remote direction dialed now).queue.commands =
        t.queue.commands ++ more := by
    rw [queue_insertPeer, next]
    unfold more
    split
    · rfl
    · exact (List.append_nil _).symm
  constructor
  case toAlike =>
    refine h.toAlike.extend [_] [_] more (deeds_insertPeer r ..) (deeds_insertPeer s ..)
      ?_ ?_ ?_ (fun _ => rfl) rfl (queue r rfl now) (queue s h.nextId now')
    · rw [config_insertPeer, config_insertPeer, h.config]
    · rw [table_insertPeer, table_insertPeer, IdMap.view_insert, IdMap.view_insert, h.peers, shown,
        h.nextId]
    · rw [pool_insertPeer, pool_insertPeer, h.pool]
  case sockets =>
    rw [mux_insertPeer, mux_insertPeer, Multiplexer.register, Multiplexer.register, h.sockets,
      h.nextId]
  case pending =>
    rw [mux_insertPeer, mux_insertPeer]
    exact h.pending
  case queue => rw [queue_insertPeer, queue_insertPeer, h.queue, h.nextId]
  case nextId => rw [nextId_insertPeer, nextId_insertPeer, h.nextId]
  case running => rw [running_insertPeer, running_insertPeer, h.running]

/-- A run ends alike. -/
theorem teardown (h : Twins r s) : Twins r.teardown s.teardown := by
  constructor
  case toAlike =>
    constructor
    case config => exact h.config
    case peers => rfl
    case pool => exact h.pool
    case said => exact fun k => by rw [sentTo_teardown, sentTo_teardown, h.said]
    case told =>
      rw [otherEvents, otherEvents, events_teardown, events_teardown, List.filter_append,
        List.filter_append]
      exact congrArg (· ++ _) h.told
    case rounds =>
      unfold Reactor.rounds
      rw [events_teardown, events_teardown, List.count_append, List.count_append, h.dials]
      rfl
  case sockets => rfl
  case pending => rfl
  case queue => rfl
  case nextId => exact h.nextId
  case running => rfl

/-- A round of dialing comes to nothing where no peer is missing. -/
theorem seek (h : Twins r s) (aimless : r.config.target = 0) (words words' : List UInt64) :
    Twins (r.tryConnect words) (s.tryConnect words') := by
  have aimless' : s.config.target = 0 := h.config ▸ aimless
  rw [tryConnect_full (aimless ▸ Nat.zero_le _), tryConnect_full (aimless' ▸ Nat.zero_le _)]
  exact h.notify .tryConnect

/-- A command is obeyed alike. -/
theorem obey (h : Twins r s) (consistent : r.Consistent) (consistent' : s.Consistent)
    (aimless : r.config.target = 0) (c : Command) {means means' : Means}
    (willing : Willing means.writes) (willing' : Willing means'.writes) :
    Twins (r.obey c means) (s.obey c means') := by
  cases c with
  | shutdown => exact h.teardown
  | sendHandshake id => exact h.greet consistent consistent' id willing willing'
  | closePeer id => exact h.dismiss consistent consistent' id means.writes means'.writes
  | tryConnect => exact h.seek aimless means.words means'.words
  | adopt socket remote dialed =>
    exact h.insertPeer socket remote .outbound (some dialed) means.now means'.now

end Twins

/-! ### A turn before all of it is done -/

/-- If nobody was put back and a command waits it is due. -/
theorem wait_control {command : Option Command} {queue : ControlQueue}
    (nobody : r.mux.pending = []) (received : r.queue.receive = some (command, queue))
    (sight : Sight) : r.wait sight = (some (.control command), { r with
      mux := ({ r.mux with pending := [] } : Multiplexer).liftPause sight.began
      queue }) := by
  unfold wait Multiplexer.wait
  rw [nobody, Multiplexer.nextPending]
  simp only
  rw [received]

/-- What is due in a turn of a reactor that is not calm: the first of those who were put back is
served, or the first command that waits, or its absence, is taken note of. -/
theorem busy_cases (busy : ¬ r.Calm) : r.running = true ∧
    ((∃ k rest, r.mux.pending = k :: rest) ∨
      r.mux.pending = [] ∧ ∃ command queue, r.queue.receive = some (command, queue)) := by
  unfold Calm at busy
  refine ⟨Bool.not_eq_false _ ▸ fun ended => busy (Or.inl ended), ?_⟩
  cases pending : r.mux.pending with
  | cons k rest => exact Or.inl ⟨k, rest, rfl⟩
  | nil =>
    cases received : r.queue.receive with
    | none => exact absurd (Or.inr ⟨pending, received⟩) busy
    | some taken => exact Or.inr ⟨rfl, taken.1, taken.2, rfl⟩

theorem fits_nothing {incoming : Incoming} (fits : incoming.Fits [] false) :
    incoming = .waiting [] := by
  cases incoming with
  | waiting bytes => rw [List.prefix_nil.mp fits]
  | ended => cases fits.2
  | failed why => exact fits.elim

/-- **What comes before the peer is done in step**: a turn of either of two twins that are not calm
leaves them twins. -/
theorem Twins.turn (h : Twins r s) (consistent : r.Consistent) (consistent' : s.Consistent)
    (aimless : r.config.target = 0) (busy : ¬ r.Calm) (aside : id ∉ r.mux.pending)
    {unread unread' : Bytes} {sight sight' : Sight} {means means' : Means}
    (willing : Willing means.writes) (willing' : Willing means'.writes)
    (alone : ∀ w, (r.wait sight).1 = some w → w.IsSolo id unread r means)
    (alone' : ∀ w, (s.wait sight').1 = some w → w.IsSolo id unread' s means') :
    Twins (r.turn sight means) (s.turn sight' means') := by
  obtain ⟨running, ⟨k, rest, pending⟩ | ⟨nobody, command, queue, received⟩⟩ :=
    busy_cases busy
  · -- The first who was put back is served, and as nothing arrives all depends on its buffer.
    have pending' : s.mux.pending = k :: rest := h.pending.trans pending
    have other : k ≠ id := by
      rintro rfl
      exact aside (pending ▸ List.mem_cons_self)
    have nothing : means.incoming = .waiting [] := by
      have solo := alone (.peer k .read) (by rw [wait_head consistent pending])
      have fits := solo.1
      rw [if_neg other] at fits
      exact fits_nothing fits
    have nothing' : means'.incoming = .waiting [] := by
      have solo := alone' (.peer k .read) (by rw [wait_head consistent' pending'])
      have fits := solo.1
      rw [if_neg other] at fits
      exact fits_nothing fits
    obtain ⟨p, there, number, turned⟩ := turn_head consistent running pending sight means
    obtain ⟨q, there', number', turned'⟩ :=
      turn_head consistent' (h.running.trans running) pending' sight' means'
    rw [turned, turned', nothing, nothing']
    have waited : Twins { r with mux := { r.mux with pending := rest } }
        { s with mux := { s.mux with pending := rest } } := h.watching h.sockets rfl
    exact waited.takeInput (consistent.holds there) (consistent'.holds there')
      (number'.trans number.symm) willing willing'
  · -- The first command is the same for both.
    have waited := wait_control nobody received sight
    have waited' := wait_control (h.pending.trans nobody) (h.queue ▸ received) sight'
    have due : (r.wait sight).1 = some (.control command) := by rw [waited]
    have due' : (s.wait sight').1 = some (.control command) := by rw [waited']
    have twins : Twins (r.wait sight).2 (s.wait sight').2 := by
      rw [waited, waited']
      refine Twins.watching (h.ordered queue) ?_ ?_
      · rw [Multiplexer.sockets_liftPause, Multiplexer.sockets_liftPause]
        exact h.sockets
      · rw [Multiplexer.pending_liftPause, Multiplexer.pending_liftPause]
    rw [turn_eq running due, turn_eq (h.running.trans running) due']
    cases command with
    | none => exact twins.teardown
    | some c =>
      exact twins.obey (consistent.wait sight) (consistent'.wait sight') aimless c willing willing'

/-! ### The peer in the meantime -/

/-- Nothing has been read of what a peer has sent, if it is still there. -/
structure Unheard (id : PeerId) (sent unread : Bytes) (r : Reactor) : Prop where
  known : id ∈ joinedIds r.deeds
  aside : id ∉ r.mux.pending
  whole : ∀ p, r.table.get? id = some p → p.session.inbound = [] ∧ unread = sent

theorem Fed.readSince {es : List Envelope} {n : Nat} (h : Fed id r s es n) :
    readSince id r s = n := by
  rw [Reactor.readSince, h.read, Nat.add_sub_cancel_left]

/-- The peer is not served before it has been put back or all else is done. -/
theorem unserved_busy (h : r.Consistent) (busy : ¬ r.Calm) (aside : id ∉ r.mux.pending)
    (sight : Sight) (ready : Readiness) : (r.wait sight).1 ≠ some (.peer id ready) := by
  intro due
  obtain ⟨-, ⟨k, rest, pending⟩ | ⟨nobody, command, queue, received⟩⟩ := busy_cases busy
  · rw [wait_head h pending] at due
    cases due
    exact aside (pending ▸ List.mem_cons_self)
  · rw [wait_control nobody received] at due
    cases due

/-- **The peer is not read from before all else is done.** -/
theorem Unheard.turn {sent unread : Bytes} (h : Unheard id sent unread r)
    (consistent : r.Consistent) (busy : ¬ r.Calm) (sight : Sight) {means : Means}
    (willing : Willing means.writes) :
    Unheard id sent (unread.drop (readSince id r (r.turn sight means))) (r.turn sight means) := by
  have consistent' := kept_consistent.turn consistent sight means
  have known' : id ∈ joinedIds (r.turn sight means).deeds := by
    obtain ⟨new, deeds⟩ := deeds_react consistent (.turn sight means)
    rw [show (r.turn sight means).deeds = new ++ r.deeds from deeds, joinedIds,
      List.filterMap_append]
    exact List.mem_append_right _ h.known
  cases there : (r.turn sight means).table.get? id with
  | none =>
    refine ⟨known', consistent'.not_pending there, fun q found => ?_⟩
    rw [there] at found
    cases found
  | some q =>
    have attended := attends_turn consistent sight means id
    generalize r.turn sight means = s at attended consistent' known' there ⊢
    -- Whoever takes the peer away, it has gone.
    have gone (nobody : s.table.get? id = none) : False := by
      rw [nobody] at there
      cases there
    cases attended with
    | untouched untouched =>
      refine ⟨known', fun waiting => h.aside (untouched.pending.mp waiting), fun p found => ?_⟩
      rw [untouched.fed.readSince]
      exact h.whole p (untouched.entry.symm.trans found)
    | comes sight socket remote direction dialed fresh began =>
      have below : id < r.nextId := consistent.accounted.joined_lt id h.known
      exact absurd (fresh ▸ below) (Nat.lt_irrefl _)
    | @greeted sight p found due =>
      have waited := consistent.wait sight
      have same := consistent.keyed id p found
      subst same
      obtain ⟨⟨q', there', inbound, mux⟩, fed⟩ := greet_spec (r := (r.wait sight).2) found
        (waited.talking p.id p found) willing
      have before : Fed p.id r ((r.wait sight).2.greet p.id means.writes) [] 0 :=
        ⟨fed.dispatched, fed.read⟩
      refine ⟨known', fun waiting => ?_, fun p' found' => ?_⟩
      · rw [mux] at waiting
        exact h.aside ((r.mux.wait_spec r.queue r.owes sight).2.1.subset waiting)
      · rw [there'] at found'
        cases found'
        rw [inbound, before.readSince]
        exact h.whole p found
    | served sight found due => exact absurd due (unserved_busy consistent busy h.aside sight _)
    | @dismissed t p before between found =>
      have same := between.keyed id p found
      subst same
      rw [dismiss_eq (r := t) found] at gone
      exact (gone (nobody_closePeer _ p.id)).elim
    | @expired t s p before between found after =>
      exact (gone (after.entry.trans (nobody_closePeer t id))).elim
    | ended sight found => exact (gone rfl).elim

/-- **Two runs from twins are twins when all that comes before the peer is done**, and the peer is
as it was before if it is still there. -/
theorem Solo.calms {sent sent' unread unread' left left' : Bytes} {r' s' : Reactor}
    (course : Solo id r unread s left) (course' : Solo id r' unread' s' left') (h : Twins r r')
    (consistent : r.Consistent) (consistent' : r'.Consistent) (aimless : r.config.target = 0)
    (unheard : Unheard id sent unread r) (unheard' : Unheard id sent' unread' r')
    (rest : s.Calm) (rest' : s'.Calm) :
    ∃ u u' v v', Twins u u' ∧ u.Consistent ∧ u'.Consistent ∧ u.config.target = 0 ∧ u.Calm ∧
      Unheard id sent v u ∧ Unheard id sent' v' u' ∧ Solo id u v s left ∧
        Solo id u' v' s' left' := by
  -- Both take a turn as long as the first is not calm; the second cannot stop before, since twins
  -- are calm together.
  induction course generalizing r' unread' with
  | rest r unread =>
    exact ⟨r, r', unread, unread', h, consistent, consistent', aimless, rest, unheard, unheard',
      .rest r unread, course'⟩
  | @turn r s unread left sight means willing alone later ih =>
    by_cases calm : r.Calm
    · exact ⟨r, r', unread, unread', h, consistent, consistent', aimless, calm, unheard, unheard',
        .turn sight means willing alone later, course'⟩
    · cases course' with
      | rest => exact absurd (h.calm_iff.mp rest') calm
      | turn sight' means' willing' alone' later' =>
        have stepped := h.turn consistent consistent' aimless calm unheard.aside willing willing'
          alone alone'
        have busy' : ¬ r'.Calm := fun calm' => calm (h.calm_iff.mp calm')
        obtain ⟨next, config⟩ := (kept_config r.config).turn ⟨consistent, rfl⟩ sight means
        exact ih later' stepped next (kept_consistent.turn consistent' sight' means')
          (config.symm ▸ aimless) (unheard.turn consistent calm sight willing)
          (unheard'.turn consistent' busy' sight' willing') rest

end Reactor

end GossipNode
