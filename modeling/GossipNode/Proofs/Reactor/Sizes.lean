import GossipNode.Proofs.Message.Addresses
import GossipNode.Proofs.Reactor.Arrivals
import GossipNode.Proofs.Reactor.Replies

/-!
# How long what a node says is

A node introduces itself and takes leave in a few bytes.  What it passes on about others grows with
the number of those who have introduced themselves, and nothing limits that number.  The other side
takes no more than so many bytes for one message, so a node with very many peers says what nobody
can hear.

## Main definitions

* `Reactor.Gossips` — the addresses that were passed on are those of all who are there.
* `Reactor.Sized` — how long a message is that is said.
* `Reactor.Crowd` — so many peers have come from one place and introduced themselves.
* `Reactor.visits` — what happens when so many come.

## Main results

* `Reactor.react_gossips` — a node passes on whom it knows when it speaks.
* `Reactor.said_sized` — **how long everything is that a node says.**
* `Reactor.welcomed_takeInput` — a peer that introduces itself is told whom the node knows.
* `Reactor.crowd_run`, `Reactor.crowd_told` — **any number of peers may come**, and the last one is
  told of all.
* `Reactor.exists_unheard` — one more than may be heard of.
-/

namespace GossipNode

/-! ### Waiting -/

namespace Multiplexer

variable {m : Multiplexer}

/-- A connection is taken over when nothing else is due. -/
theorem wait_arrival (nobody : m.pending = []) (accepting : m.resumeAt = none)
    (owing : PeerId → Bool) (socket : SocketId) (remote : SocketAddress) :
    m.wait .empty owing ⟨0, 0, .connection socket remote, []⟩ =
      (some (.accept socket remote), m, .empty) := by
  obtain ⟨sockets, pending, period, nextTick, resumeAt⟩ := m
  subst nobody accepting
  rfl

/-- A peer is served when its socket reports something and nothing else is due. -/
theorem wait_report (nobody : m.pending = []) (accepting : m.resumeAt = none)
    (owing : PeerId → Bool) {id : PeerId} (watched : m.isRegistered id = true) :
    m.wait .empty owing ⟨0, 0, .none, [(id, .ok .read)]⟩ = (some (.peer id .read), m, .empty) := by
  obtain ⟨sockets, pending, period, nextTick, resumeAt⟩ := m
  subst nobody accepting
  have first : firstReport ⟨sockets, [], period, nextTick, none⟩ owing [(id, .ok .read)] =
      some (.peer id .read) := by
    rw [firstReport, List.findSome?_cons]
    simp only
    rw [if_pos watched]
    rfl
  unfold wait
  simp only [nextPending, ControlQueue.receive, ControlQueue.empty, liftPause, isAccepting,
    Option.any_none, Option.isNone_none, Bool.false_eq_true, if_false, if_true, first]

end Multiplexer

namespace Reactor

variable {r s t : Reactor} {p q : Peer} {k : PeerId}

/-! ### What is passed on -/

/-- Messages have been handed over to a peer, and those that pass on addresses pass on all the
addresses that the node knows then. -/
def Gossips (k : PeerId) (r s : Reactor) : Prop :=
  ∃ said, sentTo k s.deeds = sentTo k r.deeds ++ said ∧ ∀ addresses,
    .discovery addresses ∈ said → addresses = s.table.readyAddresses ∧ addresses ≠ []

theorem gossips_silent (same : sentTo k s.deeds = sentTo k r.deeds) : Gossips k r s :=
  ⟨[], same.trans (List.append_nil _).symm, fun _ impossible => by cases impossible⟩

theorem gossips_single {m : Message} (said : sentTo k s.deeds = sentTo k r.deeds ++ [m])
    (other : ∀ addresses, m ≠ .discovery addresses) : Gossips k r s :=
  ⟨[m], said, fun addresses passed => absurd (List.mem_singleton.mp passed).symm (other addresses)⟩

/-- What had been said before makes no difference. -/
theorem Gossips.since (h : Gossips k t s) (same : sentTo k t.deeds = sentTo k r.deeds) :
    Gossips k r s := by
  obtain ⟨said, told, passed⟩ := h
  exact ⟨said, told.trans (by rw [same]), passed⟩

/-- Moving bytes to or from a peer changes nobody's address. -/
theorem readyAddresses_perform {c : Session.Call} (held : r.Holds p)
    (traffic : c.isTraffic = true) :
    (r.perform p c).table.readyAddresses = r.table.readyAddresses := by
  have state := Session.state_perform_traffic traffic p.session
  have identity := Session.identity_perform_traffic traffic p.session
  refine PeerTable.readyAddresses_insert held ?_ ?_
  · show decide ((p.session.perform c).state = .ready) = decide (p.session.state = .ready)
    rw [state]
  · show (p.session.perform c).identity.map _ = p.session.identity.map _
    rw [identity]
    rfl

/-- A peer that is welcome is told whom the node knows. -/
theorem welcome_gossips (r : Reactor) (p : Peer) (writes : List WriteOutcome) :
    Gossips p.id r (r.welcome p writes) := by
  have greeted := sentTo_send (r.notify (.peerWelcome p.id)) p (.peerInfo r.config.ownInfo) writes
  have held' := holds_perform (r.notify (.peerWelcome p.id)) p
    (.send (.peerInfo r.config.ownInfo) writes)
  rcases welcome_cases r p writes with ⟨-, same⟩ | ⟨-, -, same⟩ | ⟨-, rest, same⟩
  · rw [same]
    exact gossips_silent rfl
  · rw [same]
    refine gossips_single ((sentTo_closePeer held').trans greeted) fun _ impossible => ?_
    cases impossible
  · rw [same]
    generalize hwelcomed : (r.notify (.peerWelcome p.id)).perform p
      (.send (.peerInfo r.config.ownInfo) writes) = t at greeted held'
    generalize hpeer : p.perform (.send (.peerInfo r.config.ownInfo) writes) = q at held'
    have number : q.id = p.id := hpeer ▸ rfl
    by_cases alone : t.table.readyAddresses = []
    · have silent : t.sendDiscovery q rest = t := by
        unfold sendDiscovery
        rw [alone]
      rw [silent]
      exact gossips_single greeted fun _ impossible => by cases impossible
    · rw [sendDiscovery_eq alone]
      have passed := sentTo_send t q (.discovery t.table.readyAddresses) rest
      rw [number, greeted, List.append_assoc] at passed
      refine ⟨_, passed, fun addresses among => ?_⟩
      rw [readyAddresses_perform held' rfl]
      rcases List.mem_cons.mp among with impossible | last
      · cases impossible
      · cases List.mem_singleton.mp last
        exact ⟨rfl, alone⟩

/-- Acting upon an envelope. -/
theorem dispatch_gossips (held : r.Holds p) (e : Envelope) (writes : List WriteOutcome) :
    Gossips p.id r (r.dispatch p e writes) := by
  rcases dispatch_cases r p e writes with
    ⟨-, idle⟩ | same | ⟨-, why, text, same⟩ | ⟨info, -, -, -, same⟩
  · exact gossips_silent (idle.untouched p.id).sentTo
  · rw [same]
    exact gossips_silent (sentTo_closePeer (r := r.note _) held)
  · rw [same]
    refine gossips_single ((sentTo_closePeer (p := p.perform _) (holds_perform _ _ _)).trans
      (sentTo_send (r.note _) p _ writes)) fun _ impossible => ?_
    cases impossible
  · rw [same]
    exact (welcome_gossips ((r.note _).put _) (p.perform (.markReady info)) writes).since rfl

/-- Serving a peer. -/
theorem serve_gossips (held : r.Holds p) (ready : Readiness) (means : Means) :
    Gossips p.id r (r.serve p.id ready means) := by
  refine @serve_rule r p (fun t q => t.Holds q ∧ q.id = p.id ∧
    sentTo p.id t.deeds = sentTo p.id r.deeds) (Gossips p.id r) means
    ?mute ?left ?closed ?acted held ⟨held, rfl, rfl⟩ ready
  case mute =>
    rintro t q c ⟨held, number, same⟩ mute
    exact ⟨holds_perform t q c, number, (sentTo_mute mute p.id).trans same⟩
  case left =>
    rintro t q ⟨-, -, same⟩
    exact gossips_silent same
  case closed =>
    rintro t q ⟨held, -, same⟩
    exact gossips_silent ((sentTo_closePeer held).trans same)
  case acted =>
    rintro t q e writes ⟨held, number, same⟩ -
    obtain ⟨said, told, passed⟩ := (number ▸ dispatch_gossips held e writes).since same
    refine ⟨said, ?_, ?_⟩
    · rw [deeds_requeueBuffered]
      exact told
    · rw [table_requeueBuffered]
      exact passed

/-- **A node passes on whom it knows when it speaks.** -/
theorem Attends.gossips {means : Means} (consistent : r.Consistent)
    (attends : Attends k r means s) : Gossips k r s := by
  cases attends with
  | untouched quiet => exact gossips_silent quiet.sentTo
  | comes sight socket remote direction dialed fresh began =>
    refine gossips_silent ?_
    rw [deeds_insertPeer]
    rfl
  | @greeted sight p there due =>
    have same := consistent.keyed k p there
    subst same
    have held : (r.wait sight).2.Holds p := there
    have greeted := sentTo_send (r.wait sight).2 p (.peerInfo r.config.ownInfo) means.writes
    refine gossips_single (m := .peerInfo r.config.ownInfo) ?_ fun _ impossible => by
      cases impossible
    rcases greet_cases held means.writes with same | same
    · rw [same]
      exact greeted
    · rw [same]
      exact (sentTo_closePeer (p := p.perform _) (holds_perform _ _ _)).trans greeted
  | @served sight p ready there due =>
    have same := consistent.keyed k p there
    subst same
    exact serve_gossips (r := (r.wait sight).2) there ready means
  | @dismissed t p before consistent' there =>
    have same := consistent'.keyed k p there
    subst same
    rw [dismiss_eq there]
    refine gossips_single ((sentTo_closePeer (p := p.perform _) (holds_perform _ _ _)).trans
      ((sentTo_send t p closedByOperator means.writes).trans (by rw [before.sentTo]))) ?_
    exact fun _ impossible => by cases impossible
  | @expired t s p before consistent' there after =>
    have same := consistent'.keyed k p there
    subst same
    exact gossips_silent (after.sentTo.trans ((sentTo_closePeer there).trans before.sentTo))
  | @ended sight p there =>
    obtain ⟨new, deeds, kinds, -⟩ := deeds_teardown (r.wait sight).2
    refine gossips_silent ?_
    rw [deeds]
    refine sentTo_silent fun d member => ?_
    rcases kinds d member with ⟨audience, rfl⟩ | ⟨socket, rfl⟩ | ⟨id, q, -, rfl⟩ <;>
      exact True.intro

theorem react_gossips (h : r.Consistent) (stimulus : Stimulus) :
    Gossips k r (r.react stimulus) := by
  cases stimulus with
  | turn sight means => exact (attends_turn h sight means k).gossips h
  | _ =>
    refine gossips_silent (Untouched.sentTo (Idle.untouched ?_ k))
    exact react_idle r fun _ _ impossible => by cases impossible

/-! ### How long it is -/

/-- How long a message is that is said in some state. -/
inductive Sized (s : Reactor) : Message → Prop
  /-- An introduction or a farewell. -/
  | brief {m : Message} (other : ∀ addresses, m ≠ .discovery addresses)
    (short : m.encode.length ≤ 1024) : Sized s m
  /-- The addresses of all who have introduced themselves. -/
  | gossip (size : (Message.discovery s.table.readyAddresses).encode.length =
      gossipSize s.table.readyAddresses) : Sized s (.discovery s.table.readyAddresses)

/-- What is said besides addresses is short, however many connections have come. -/
theorem length_encode_of_warranted {own : PeerInfo} {came : Nat} {heard : List Envelope}
    {m : Message} (h : m.Warranted own came heard) (other : ∀ addresses, m ≠ .discovery addresses) :
    m.encode.length ≤ 1024 := by
  have alone : m.Warranted own 0 heard := by
    cases h with
    | introduction => exact .introduction
    | acquaintance few reach => exact absurd rfl (other _)
    | refusal acted introduced foreign => exact .refusal acted introduced foreign
    | dismissal => exact .dismissal
  exact alone.length_encode

/-- **Everything a node says is short, or is the list of all who have introduced themselves**, whose
length is known to the byte.  So everything can be heard as long as no more than 19417 have. -/
theorem said_sized (config : ReactorConfig) (shared : Shared) (now : Nat) (stimuli : List Stimulus)
    (stimulus : Stimulus) (k : PeerId) :
    let r := (start config shared now).run stimuli
    let s := r.react stimulus
    ∃ said, sentTo k s.deeds = sentTo k r.deeds ++ said ∧ (∀ m ∈ said, Sized s m) ∧
      (s.table.readyCount ≤ 19417 → ∀ m ∈ said, m.encode.length ≤ maxMessageSize) := by
  intro r s
  have consistent : r.Consistent := kept_consistent.run (consistent_start config shared now) stimuli
  have candid : Candid k s := by
    have run := candid_run config shared now (stimuli ++ [stimulus]) k
    rwa [run_append] at run
  obtain ⟨said, told, passed⟩ := react_gossips (k := k) consistent stimulus
  have sized : ∀ m ∈ said, Sized s m := by
    intro m member
    have warranted := candid.warranted m (told ▸ List.mem_append_right _ member)
    by_cases gossip : ∃ addresses, m = .discovery addresses
    · obtain ⟨addresses, rfl⟩ := gossip
      obtain ⟨all, some_ready⟩ := passed addresses member
      subst all
      refine .gossip (Message.length_encode_addresses some_ready fun a listed => ?_)
      obtain ⟨p, address⟩ := PeerTable.exists_of_mem_readyAddresses listed
      exact Peer.bare_listenAddress address
    · have other : ∀ addresses, m ≠ .discovery addresses := fun a same => gossip ⟨a, same⟩
      exact .brief other (length_encode_of_warranted warranted other)
  refine ⟨said, told, sized, fun few m member => ?_⟩
  cases sized m member with
  | brief other short => exact Nat.le_trans short (by decide)
  | gossip size =>
    have each : ∀ a ∈ s.table.readyAddresses, a.length ≤ 51 := by
      intro a listed
      obtain ⟨p, address⟩ := PeerTable.exists_of_mem_readyAddresses listed
      exact Peer.length_listenAddress_le address
    have listed : s.table.readyAddresses.length ≤ s.table.readyCount := List.length_filterMap_le ..
    have bound := gossipSize_le each
    have limit : maxMessageSize = 1048576 := rfl
    omega

/-! ### A peer that is welcome -/

/-- Only the entry of a peer and the record have changed. -/
structure Alters (r s : Reactor) (q : Peer) : Prop where
  config : s.config = r.config
  running : s.running = r.running
  mux : s.mux = r.mux
  queue : s.queue = r.queue
  nextId : s.nextId = r.nextId
  entries : ∀ k, s.table.get? k = if q.id = k then some q else r.table.get? k

theorem alters_perform (r : Reactor) (p : Peer) (c : Session.Call) :
    Alters r (r.perform p c) (p.perform c) :=
  ⟨rfl, rfl, rfl, rfl, rfl, get?_perform r p c⟩

/-- The same peer is changed again. -/
theorem Alters.perform (h : Alters r s q) (c : Session.Call) :
    Alters r (s.perform q c) (q.perform c) := by
  refine ⟨h.config, h.running, h.mux, h.queue, h.nextId, fun k => ?_⟩
  rw [get?_perform, h.entries]
  by_cases own : q.id = k
  · exact (if_pos own).trans (if_pos own).symm
  · rw [if_neg own, if_neg own]
    exact (if_neg own).symm

theorem Alters.holds (h : Alters r s q) : s.Holds q := (h.entries q.id).trans (if_pos rfl)

/-- The other side has introduced itself, and nothing else has come from it. -/
structure Accepted (info : PeerInfo) (q : Peer) : Prop where
  state : q.session.state = .ready
  identity : q.session.identity = some info
  inbound : q.session.inbound = []

variable {info : PeerInfo}

theorem Accepted.send (h : Accepted info q) (m : Message) (writes : List WriteOutcome) :
    Accepted info (q.perform (.send m writes)) :=
  ⟨(q.session.state_send m writes).trans h.state,
    (q.session.identity_send m writes).trans h.identity,
    (q.session.inbound_send m writes).trans h.inbound⟩

theorem Accepted.isReady (h : Accepted info q) : q.isReady = true := decide_eq_true h.state

theorem Accepted.listenAddress (h : Accepted info q) : q.listenAddress =
    some (q.remote.ip.render ++ ":" ++ toString info.listenPort.toInt) := by
  rw [Peer.listenAddress, h.identity]
  rfl

/-- A peer of which no bytes are left is not put back. -/
theorem requeueBuffered_nothing (there : s.Holds q) (nothing : q.session.inbound = []) :
    s.requeueBuffered q.id = s := by
  have found : s.table.get? q.id = some q := there
  unfold requeueBuffered
  rw [found]
  refine if_neg fun both => ?_
  rw [Session.hasBufferedInput, nothing] at both
  cases both.2

/-- A peer has introduced itself and been told whom the node knows. -/
structure Welcomed (r s : Reactor) (p : Peer) (info : PeerInfo) : Prop where
  entry : ∃ q, q.id = p.id ∧ q.remote = p.remote ∧ Accepted info q ∧ Alters r s q
  passed : .discovery s.table.readyAddresses ∈ sentTo p.id s.deeds

/-- A peer that is welcome is told whom the node knows, and that is the peer itself at least. -/
theorem welcomed_welcome (inbound : q.direction = .inbound) (accepted : Accepted info q)
    (before : Alters t r q) :
    Welcomed t ((r.welcome q []).requeueBuffered q.id) q info := by
  have talks : q.session.state ≠ .closed := by
    rw [accepted.state]
    exact fun impossible => by cases impossible
  rcases welcome_cases r q [] with ⟨other, -⟩ | ⟨-, broken, -⟩ | ⟨-, rest, same⟩
  · exact absurd inbound other
  · have usable := (q.session.send_willing talks (.peerInfo r.config.ownInfo) willing_nil).1
    cases usable.symm.trans broken
  · have told : Alters t (r.notify (.peerWelcome q.id)) q := { before with }
    have greeted := told.perform (.send (.peerInfo r.config.ownInfo) [])
    have accepted' := accepted.send (.peerInfo r.config.ownInfo) []
    generalize (r.notify (.peerWelcome q.id)).perform q
      (.send (.peerInfo r.config.ownInfo) []) = t' at same greeted
    generalize hpeer : q.perform (.send (.peerInfo r.config.ownInfo) []) = q'
      at same greeted accepted'
    have number : q'.id = q.id := hpeer ▸ rfl
    have remote : q'.remote = q.remote := hpeer ▸ rfl
    have listed := PeerTable.mem_readyAddresses greeted.holds accepted'.isReady
      accepted'.listenAddress
    rw [sendDiscovery_eq (List.ne_nil_of_mem listed)] at same
    have passed := greeted.perform (.send (.discovery t'.table.readyAddresses) rest)
    have accepted'' := accepted'.send (.discovery t'.table.readyAddresses) rest
    have kept : (r.welcome q []).requeueBuffered q.id = t'.perform q'
        (.send (.discovery t'.table.readyAddresses) rest) := by
      rw [same, ← number]
      exact requeueBuffered_nothing (q := q'.perform _) passed.holds accepted''.inbound
    rw [kept]
    refine ⟨⟨q'.perform _, number, remote, accepted'', passed⟩, ?_⟩
    rw [readyAddresses_perform greeted.holds rfl, ← number, sentTo_send]
    exact List.mem_append_right _ List.mem_cons_self

/-- The introduction of a peer that is new is acted upon. -/
theorem welcomed_dispatch (inbound : q.direction = .inbound) (new : q.session.state = .unverified)
    (nothing : q.session.inbound = []) (admitted : r.config.admits info) (before : Alters t r q) :
    Welcomed t ((r.dispatch q (Message.peerInfo info).envelope []).requeueBuffered q.id) q
      info := by
  have answered : r.dispatch q (Message.peerInfo info).envelope [] =
      ((r.note (.dispatched q.id (Message.peerInfo info).envelope)).put
        (q.perform (.markReady info))).welcome (q.perform (.markReady info)) [] := by
    unfold dispatch
    rw [Message.message_envelope]
    exact onPeerInfo_new (r := r.note _) admitted new []
  have noted : Alters t (r.note (.dispatched q.id (Message.peerInfo info).envelope)) q :=
    { before with }
  have accepted : Accepted info (q.perform (.markReady info)) := by
    refine ⟨?_, ?_, (q.session.inbound_markReady info).trans nothing⟩ <;>
      rw [Peer.perform, Session.perform, Session.markReady_unverified new]
  rw [answered]
  obtain ⟨⟨q', number, remote, accepted', alters⟩, passed⟩ :=
    welcomed_welcome (q := q.perform (.markReady info)) inbound accepted
      (noted.perform (.markReady info))
  exact ⟨⟨q', number, remote, accepted', alters⟩, passed⟩

/-- **A peer that introduces itself on a connection of its own is welcome**, unless it has to be
refused. -/
theorem welcomed_takeInput (fresh : p.session = .start) (inbound : p.direction = .inbound)
    (admitted : r.config.admits info) :
    Welcomed r (r.takeInput p (.waiting (Message.peerInfo info).encode) []) p info := by
  have nothing : p.session.inbound = [] := by rw [fresh]; rfl
  have short : decodeOne p.session.inbound = .ok none := by rw [nothing]; rfl
  have whole : (Message.peerInfo info).encode.take readChunk = (Message.peerInfo info).encode :=
    List.take_of_length_le (Nat.le_trans (Message.length_encode_peerInfo info) (by decide))
  obtain ⟨filled, -, read⟩ := readOnce_waiting r (p := p) (Message.peerInfo info).encode
    (by rw [nothing]; decide)
  rw [nothing, List.nil_append, whole] at filled
  rw [takeInput_short r short, read]
  have altered := (alters_perform r p (.fill (.waiting (Message.peerInfo info).encode))).perform
    .nextEnvelope
  have new : (p.perform (.fill (.waiting (Message.peerInfo info).encode))).session.state =
      .unverified := (p.session.state_fill _).trans (by rw [fresh]; rfl)
  generalize hp : p.perform (.fill (.waiting (Message.peerInfo info).encode)) = q
    at filled altered new ⊢
  have number : q.id = p.id := hp ▸ rfl
  have remote : q.remote = p.remote := hp ▸ rfl
  have began : q.direction = .inbound := hp ▸ inbound
  -- All that has been read is one envelope.
  have found : decodeOne q.session.inbound = .ok (some ((Message.peerInfo info).envelope,
      (Message.peerInfo info).encode.length)) := by
    have front := decodeOne_render_append (Message.peerInfo info).isPlain_envelope []
    rw [List.append_nil] at front
    rw [filled]
    exact front
  have taken := Session.nextEnvelope_found found
  have state : (q.perform .nextEnvelope).session.state = .unverified := by
    rw [Peer.perform, Session.perform, taken]
    exact new
  have left : (q.perform .nextEnvelope).session.inbound = [] := by
    rw [Peer.perform, Session.perform, taken, filled]
    exact List.drop_length
  rw [taken, actUpon]
  obtain ⟨⟨q', same, place, accepted, alters⟩, passed⟩ :=
    welcomed_dispatch (q := q.perform .nextEnvelope) began state left
      (altered.config ▸ admitted) altered
  exact ⟨⟨q', same.trans number, place.trans remote, accepted, alters⟩, number ▸ passed⟩

/-! ### A crowd -/

/-- So many peers have come, all from one place, and all have introduced themselves with one port;
nothing is due. -/
structure Crowd (config : ReactorConfig) (address : String) (n : Nat) (r : Reactor) : Prop where
  config : r.config = config
  running : r.running = true
  nobody : r.mux.pending = []
  accepting : r.mux.resumeAt = none
  queue : r.queue = .empty
  next : r.nextId = ⟨n + 1⟩
  entered : ∀ k, (∃ p, r.table.get? k = some p) ↔ k ∈ PeerId.upTo n
  ready : ∀ k p, r.table.get? k = some p → p.isReady = true ∧ p.listenAddress = some address

variable {config : ReactorConfig} {address : String} {n : Nat}

theorem Crowd.size (h : Crowd config address n r) : r.table.values.length = n := by
  have same : r.table.ids.Perm (PeerId.upTo n) :=
    (List.perm_ext_iff_of_nodup r.table.nodup_ids (PeerId.nodup_upTo n)).mpr fun k =>
      IdMap.mem_ids_iff.trans (h.entered k)
  rw [IdMap.values, List.length_map, ← List.length_map (·.1), ← PeerId.length_upTo n]
  exact same.length_eq

theorem Crowd.readyCount (h : Crowd config address n r) : r.table.readyCount = n := by
  have all : r.table.values.filter (·.isReady) = r.table.values :=
    List.filter_eq_self.mpr fun p there => by
      obtain ⟨k, found⟩ := IdMap.mem_values_iff.mp there
      exact (h.ready k p found).1
  rw [PeerTable.readyCount, all, h.size]

/-- A crowd is passed on as one address again and again. -/
theorem Crowd.readyAddresses (h : Crowd config address n r) :
    r.table.readyAddresses = List.replicate n address := by
  have each : ∀ p ∈ r.table.values, PeerTable.readyAddress? p = some address := by
    intro p there
    obtain ⟨k, found⟩ := IdMap.mem_values_iff.mp there
    obtain ⟨ready, reached⟩ := h.ready k p found
    rw [PeerTable.readyAddress?, if_pos ready, reached]
  have all : r.table.values.map PeerTable.readyAddress? = List.replicate n (some address) :=
    List.eq_replicate_iff.mpr ⟨by rw [List.length_map, h.size], fun a there => by
      obtain ⟨p, member, rfl⟩ := List.mem_map.mp there
      exact each p member⟩
  rw [PeerTable.readyAddresses_eq, all, List.filterMap_replicate_of_some (f := fun a => a) rfl]

/-- Where one comes from after so many others. -/
def origin (ip : IpAddress) (n : Nat) : SocketAddress := ⟨ip, UInt16.ofNat (n + 1)⟩

/-- What happens when one more comes and introduces itself. -/
def visit (ip : IpAddress) (info : PeerInfo) (n : Nat) : List Stimulus :=
  [.turn ⟨0, 0, .connection ⟨n⟩ (origin ip n), []⟩ ⟨0, .ended, [], []⟩,
    .turn ⟨0, 0, .none, [(⟨n + 1⟩, .ok .read)]⟩
      ⟨0, .waiting (Message.peerInfo info).encode, [], []⟩]

/-- A connection is taken over when nothing else is due. -/
theorem turn_arrival (running : r.running = true) (nobody : r.mux.pending = [])
    (accepting : r.mux.resumeAt = none) (queue : r.queue = .empty) (socket : SocketId)
    (remote : SocketAddress) (means : Means) :
    r.turn ⟨0, 0, .connection socket remote, []⟩ means =
      r.insertPeer socket remote .inbound none means.now := by
  have waited : r.wait ⟨0, 0, .connection socket remote, []⟩ =
      (some (.accept socket remote), r) := by
    unfold wait
    rw [queue, Multiplexer.wait_arrival nobody accepting]
    simp only
    rw [← queue]
  rw [turn_eq running (congrArg Prod.fst waited), waited]
  rfl

/-- Input is taken from a peer when its socket reports something and nothing else is due. -/
theorem turn_report (running : r.running = true) (nobody : r.mux.pending = [])
    (accepting : r.mux.resumeAt = none) (queue : r.queue = .empty)
    (there : r.table.get? k = some p) (watched : r.mux.isRegistered k = true) (means : Means) :
    r.turn ⟨0, 0, .none, [(k, .ok .read)]⟩ means = r.takeInput p means.incoming means.writes := by
  have waited : r.wait ⟨0, 0, .none, [(k, .ok .read)]⟩ = (some (.peer k .read), r) := by
    unfold wait
    rw [queue, Multiplexer.wait_report nobody accepting r.owes watched]
    simp only
    rw [← queue]
  rw [turn_eq running (congrArg Prod.fst waited), waited, handle, serve]
  simp only
  rw [there]
  rfl

/-- A visit is a connection that comes, and an introduction on it. -/
theorem Crowd.visited (h : Crowd config address n r) (ip : IpAddress) (info : PeerInfo) :
    r.run (visit ip info n) = (r.insertPeer ⟨n⟩ (origin ip n) .inbound none 0).takeInput
      (r.newPeer ⟨n⟩ (origin ip n) .inbound none 0)
      (.waiting (Message.peerInfo info).encode) [] := by
  have came := turn_arrival h.running h.nobody h.accepting h.queue ⟨n⟩ (origin ip n)
    ⟨0, .ended, [], []⟩
  rw [visit, run_cons, run_cons, run_nil, show r.react (.turn _ _) = _ from came, react]
  have mux := mux_insertPeer r ⟨n⟩ (origin ip n) .inbound none 0
  refine turn_report ((running_insertPeer ..).trans h.running) ?_ ?_ ?_ ?_ ?_ _
  · rw [mux]
    exact h.nobody
  · rw [mux]
    exact h.accepting
  · exact h.queue
  · rw [get?_insertPeer, h.next, if_pos rfl]
  · rw [mux, Multiplexer.isRegistered, Multiplexer.register, IdMap.contains, IdMap.get?_insert,
      h.next, if_pos rfl]
    rfl

/-- One more comes and introduces itself, and is told of everybody. -/
theorem Crowd.grow {ip : IpAddress} (admitted : config.admits info)
    (h : Crowd config (ip.render ++ ":" ++ toString info.listenPort.toInt) n r) :
    Crowd config (ip.render ++ ":" ++ toString info.listenPort.toInt) (n + 1)
        (r.run (visit ip info n)) ∧
      .discovery (r.run (visit ip info n)).table.readyAddresses ∈
        sentTo ⟨n + 1⟩ (r.run (visit ip info n)).deeds := by
  rw [h.visited ip info]
  have number : (r.newPeer ⟨n⟩ (origin ip n) .inbound none 0).id = ⟨n + 1⟩ := h.next
  have mux := mux_insertPeer r ⟨n⟩ (origin ip n) .inbound none 0
  have same_config := (config_insertPeer r ⟨n⟩ (origin ip n) .inbound none 0).trans h.config
  obtain ⟨⟨q, same, remote, accepted, alters⟩, passed⟩ :=
    welcomed_takeInput (r := r.insertPeer ⟨n⟩ (origin ip n) .inbound none 0)
      (p := r.newPeer ⟨n⟩ (origin ip n) .inbound none 0) rfl rfl (same_config ▸ admitted)
  rw [number] at same passed
  have entries (k : PeerId) := (alters.entries k).trans
    (congrArg (fun other => if q.id = k then some q else other) (get?_insertPeer ..))
  refine ⟨⟨alters.config.trans same_config,
    alters.running.trans ((running_insertPeer ..).trans h.running), ?_, ?_,
    alters.queue.trans h.queue, ?_, fun k => ?_, fun k q' found => ?_⟩, passed⟩
  · rw [alters.mux, mux]
    exact h.nobody
  · rw [alters.mux, mux]
    exact h.accepting
  · rw [alters.nextId, nextId_insertPeer, h.next]
    rfl
  · rw [entries, same, h.next, PeerId.upTo_succ, List.mem_append, List.mem_singleton, ← h.entered]
    by_cases own : (⟨n + 1⟩ : PeerId) = k
    · rw [if_pos own]
      exact iff_of_true ⟨q, rfl⟩ (Or.inr own.symm)
    · rw [if_neg own, if_neg own]
      exact (or_iff_left (Ne.symm own)).symm
  · rw [entries, same, h.next] at found
    by_cases own : (⟨n + 1⟩ : PeerId) = k
    · rw [if_pos own] at found
      cases found
      exact ⟨accepted.isReady, accepted.listenAddress.trans (by rw [remote]; rfl)⟩
    · rw [if_neg own, if_neg own] at found
      exact h.ready k q' found

/-- The visits of so many. -/
def visits (ip : IpAddress) (info : PeerInfo) (n : Nat) : List Stimulus :=
  (List.range n).flatMap (visit ip info)

theorem visits_succ (ip : IpAddress) (info : PeerInfo) (n : Nat) :
    visits ip info (n + 1) = visits ip info n ++ visit ip info n := by
  rw [visits, List.range_succ, List.flatMap_append, List.flatMap_singleton]
  rfl

/-- **Any number of peers may come.** -/
theorem crowd_run (shared : Shared) (now : Nat) (ip : IpAddress) (admitted : config.admits info) :
    ∀ n, Crowd config (ip.render ++ ":" ++ toString info.listenPort.toInt) n
      ((start config shared now).run (visits ip info n)) := by
  intro n
  induction n with
  | zero =>
    refine ⟨rfl, rfl, rfl, rfl, rfl, rfl, fun k => iff_of_false ?_ List.not_mem_nil, ?_⟩
    · rintro ⟨p, found⟩
      cases found
    · intro k p found
      cases found
  | succ n ih =>
    rw [visits_succ, run_append]
    exact (ih.grow admitted).1

/-- **The last of them is told of all**, in a message that grows with their number. -/
theorem crowd_told (shared : Shared) (now : Nat) (ip : IpAddress) (admitted : config.admits info)
    {n : Nat} (some_came : 0 < n) :
    ∃ m ∈ sentTo ⟨n⟩ ((start config shared now).run (visits ip info n)).deeds,
      m.encode.length =
        n * ((ip.render ++ ":" ++ toString info.listenPort.toInt).length + 3) + 36 := by
  obtain ⟨before, rfl⟩ := Nat.exists_eq_succ_of_ne_zero (Nat.pos_iff_ne_zero.mp some_came)
  obtain ⟨crowd, told⟩ := (crowd_run shared now ip admitted before).grow admitted
  rw [← run_append, ← visits_succ] at crowd told
  refine ⟨_, told, ?_⟩
  rw [crowd.readyAddresses, Message.length_encode_addresses, gossipSize_replicate]
  · exact List.cons_ne_nil _ _
  · intro a listed
    rw [← crowd.readyAddresses] at listed
    obtain ⟨p, reached⟩ := PeerTable.exists_of_mem_readyAddresses listed
    exact Peer.bare_listenAddress reached

/-- 34952 peers have come from one machine and introduced themselves, with as long an address as one
of version four can be: the last of them is told of all in a message that it cannot take. -/
theorem exists_unheard :
    let ip : IpAddress := .v4 ⟨192, 168, 100, 101⟩
    let info : PeerInfo := { (default : PeerInfo) with uid := 1, listenPort := Int32.minValue }
    let r := (start default .empty 0).run (visits ip info 34952)
    r.table.readyCount = 34952 ∧
      ∃ m ∈ sentTo ⟨34952⟩ r.deeds, maxMessageSize < m.encode.length := by
  intro ip info r
  have admitted : (default : ReactorConfig).admits info := by decide
  have long : (ip.render ++ ":" ++ toString info.listenPort.toInt).length = 27 := by decide +kernel
  obtain ⟨m, told, length⟩ := crowd_told .empty 0 ip admitted (n := 34952) (by decide)
  refine ⟨(crowd_run .empty 0 ip admitted 34952).readyCount, m, told, ?_⟩
  rw [length, long]
  decide

end Reactor

end GossipNode
