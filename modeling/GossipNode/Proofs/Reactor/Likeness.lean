import GossipNode.Proofs.Peer.Table
import GossipNode.Proofs.Reactor.Replies
import GossipNode.Proofs.Reactor.Writing

/-!
# Reactors that look alike

Two reactors look alike if nobody but the sockets could tell them apart: the same peers are there,
as far as they have introduced themselves, the same addresses wait, the same has been said to
everybody, and the listeners have been told the same.  Bytes that are on their way do not show, nor
does when a connection was taken over.  Rounds of dialing are only counted, be they over or still
due.

Reactors that look alike act upon an envelope alike.  The argument is the same whether or not the
bytes that have been read and not decoded are to agree as well, so it is made once, for every
relation that the parts of it keep.

## Main definitions

* `Peer.face` — what shows of a peer.
* `otherEvents`, `Reactor.rounds` — what the listeners were told but for rounds of dialing, and how
  many of these there were or are due.
* `Reactor.Alike` — two reactors look alike.
* `Session.Call.Akin` — two calls that come to the same but for what the socket takes.
* `Reactor.Congruent` — what the parts of acting upon an envelope keep.

## Main results

* `Congruent.dispatch` — **what the parts keep is kept when an envelope is acted upon.**
* `Reactor.congruent_alike` — looking alike is kept.
-/

namespace GossipNode

/-! ### What shows of a peer -/

/-- What shows of a peer: neither when it came nor what is due to it, and what has been read and not
decoded only in a view of the whole. -/
def Peer.face (whole : Bool) (p : Peer) : Peer :=
  { p with
    connectedAt := 0
    session := { p.session with
      inbound := if whole then p.session.inbound else []
      outbound := [] } }

namespace Peer

variable {whole : Bool} {p q : Peer}

theorem id_of_face (same : q.face whole = p.face whole) : q.id = p.id :=
  show (q.face whole).id = (p.face whole).id from congrArg Peer.id same

theorem direction_of_face (same : q.face whole = p.face whole) : q.direction = p.direction :=
  show (q.face whole).direction = (p.face whole).direction from congrArg Peer.direction same

theorem state_of_face (same : q.face whole = p.face whole) : q.session.state = p.session.state :=
  show (q.face whole).session.state = (p.face whole).session.state from
    congrArg (fun p => p.session.state) same

theorem inbound_of_face (same : q.face true = p.face true) :
    q.session.inbound = p.session.inbound :=
  show (q.face true).session.inbound = (p.face true).session.inbound from
    congrArg (fun p => p.session.inbound) same

end Peer

/-- Where the peers that have introduced themselves can be reached shows. -/
theorem PeerTable.readyAddresses_of_view {whole : Bool} {t u : PeerTable}
    (same : u.view (Peer.face whole) = t.view (Peer.face whole)) :
    u.readyAddresses = t.readyAddresses := by
  have shown (t : PeerTable) : t.values.map readyAddress? =
      (t.view (Peer.face whole)).map fun e => readyAddress? e.2 := by
    rw [IdMap.values, IdMap.view, List.map_map, List.map_map]
    rfl
  rw [readyAddresses_eq, readyAddresses_eq, shown, shown, same]

/-! ### Calls that come to the same -/

/-- Two calls that come to the same but for what the socket takes. -/
inductive Session.Call.Akin : Session.Call → Session.Call → Prop
  | send (m : Message) (outcomes outcomes' : List WriteOutcome) :
    Akin (.send m outcomes) (.send m outcomes')
  | markReady (info : PeerInfo) : Akin (.markReady info) (.markReady info)
  | nextEnvelope : Akin .nextEnvelope .nextEnvelope
  /-- A socket is read that holds nothing. -/
  | vain : Akin (.fill (.waiting [])) (.fill (.waiting []))

namespace Peer

variable {whole : Bool} {p q : Peer} {c c' : Session.Call}

/-- What is due to a peer does not show. -/
theorem face_send (p : Peer) (m : Message) (outcomes : List WriteOutcome) :
    (p.perform (.send m outcomes)).face whole = p.face whole := by
  unfold face perform Session.perform
  simp only [Session.state_send, Session.identity_send, Session.inbound_send]

/-- Calls that say nothing do not show but in a view of the whole. -/
theorem face_mute (mute : c.isMute = true) (p : Peer) :
    (p.perform c).face false = p.face false := by
  cases c with
  | flush outcomes => rfl
  | fill incoming =>
    unfold face perform Session.perform
    simp only [Session.state_fill, Session.identity_fill, Bool.false_eq_true, if_false]
  | nextEnvelope => rfl
  | send m outcomes => cases mute
  | markReady info => cases mute
  | markClosed => cases mute

/-- Of two peers of which the same shows the same shows after calls that come to the same. -/
theorem face_akin (akin : c.Akin c') (same : q.face whole = p.face whole) :
    (q.perform c').face whole = (p.perform c).face whole := by
  cases akin with
  | send m outcomes outcomes' => rw [face_send, face_send, same]
  | markReady info =>
    -- Whether an introduction is news depends on the state alone.
    have marked (p : Peer) : (p.perform (.markReady info)).face whole =
        (p.face whole).perform (.markReady info) := by
      unfold perform Session.perform Session.markReady face
      simp only
      split <;> rfl
    rw [marked, marked, same]
  | nextEnvelope =>
    cases whole with
    | false => exact (face_mute rfl q).trans (same.trans (face_mute rfl p).symm)
    | true =>
      have taken (p : Peer) : (p.perform .nextEnvelope).face true =
          (p.face true).perform .nextEnvelope := rfl
      rw [taken, taken, same]
  | vain => exact same

theorem said_akin (akin : c.Akin c') (same : q.id = p.id) (k : PeerId) :
    sentTo k (q.record c') = sentTo k (p.record c) := by
  cases akin with
  | send m outcomes outcomes' =>
    simp only [record, sentTo, List.filterMap_cons, List.filterMap_nil, Deed.sent?, same]
  | _ => rfl

theorem events_record (p : Peer) (c : Session.Call) : events (p.record c) = [] := by
  cases c <;> rfl

end Peer

/-! ### What the listeners were told -/

/-- What the listeners were told but for rounds of dialing, in order. -/
def otherEvents (deeds : List Deed) : List Event := (events deeds).filter (· ≠ .tryConnect)

theorem otherEvents_append (new deeds : List Deed) :
    otherEvents (new ++ deeds) = otherEvents deeds ++ otherEvents new := by
  rw [otherEvents, events_append, List.filter_append]
  rfl

namespace Reactor

/-- How many rounds of dialing have been told or are due. -/
def rounds (r : Reactor) : Nat :=
  (events r.deeds).count .tryConnect + r.queue.commands.count .tryConnect

/-! ### Looking alike -/

/-- Two reactors look alike. -/
structure Alike (whole : Bool) (r s : Reactor) : Prop where
  config : s.config = r.config
  peers : s.table.view (Peer.face whole) = r.table.view (Peer.face whole)
  pool : s.shared.pool = r.shared.pool
  said : ∀ k, sentTo k s.deeds = sentTo k r.deeds
  told : otherEvents s.deeds = otherEvents r.deeds
  rounds : s.rounds = r.rounds

variable {whole : Bool} {r s t r' s' : Reactor} {p q : Peer} {c c' : Session.Call}

namespace Alike

theorem refl (whole : Bool) (r : Reactor) : Alike whole r r :=
  ⟨rfl, rfl, rfl, fun _ => rfl, rfl, rfl⟩

theorem symm (h : Alike whole r s) : Alike whole s r :=
  ⟨h.config.symm, h.peers.symm, h.pool.symm, fun k => (h.said k).symm, h.told.symm, h.rounds.symm⟩

theorem trans (h : Alike whole r s) (h' : Alike whole s t) : Alike whole r t :=
  ⟨h'.config.trans h.config, h'.peers.trans h.peers, h'.pool.trans h.pool,
    fun k => (h'.said k).trans (h.said k), h'.told.trans h.told, h'.rounds.trans h.rounds⟩

/-- The same peers are there, and the same shows of each. -/
theorem face (h : Alike whole r s) (k : PeerId) :
    (s.table.get? k).map (Peer.face whole) = (r.table.get? k).map (Peer.face whole) := by
  rw [← IdMap.findEntry_view, ← IdMap.findEntry_view, h.peers]

theorem exists_peer (h : Alike whole r s) {k : PeerId} (there : r.table.get? k = some p) :
    ∃ q, s.table.get? k = some q ∧ q.face whole = p.face whole := by
  have same := h.face k
  rw [there] at same
  exact Option.map_eq_some_iff.mp same

theorem nobody (h : Alike whole r s) {k : PeerId} (unknown : r.table.get? k = none) :
    s.table.get? k = none := by
  have same := h.face k
  rw [unknown] at same
  exact Option.map_eq_none_iff.mp same

theorem face_eq (h : Alike whole r s) (hp : r.Holds p) (hq : s.Holds q) (same : q.id = p.id) :
    q.face whole = p.face whole := by
  have found : s.table.get? p.id = some q := same ▸ hq
  obtain ⟨q', there, shown⟩ := h.exists_peer hp
  rw [found] at there
  cases there
  exact shown

/-- Reactors that look alike still do so when the same shows of what either has put on record, and
the same has become of what it has to do. -/
theorem extend (h : Alike whole r s) (new new' : List Deed) (more : List Command)
    (deeds : r'.deeds = new ++ r.deeds) (deeds' : s'.deeds = new' ++ s.deeds)
    (config : s'.config = r'.config)
    (peers : s'.table.view (Peer.face whole) = r'.table.view (Peer.face whole))
    (pool : s'.shared.pool = r'.shared.pool) (said : ∀ k, sentTo k new' = sentTo k new)
    (told : events new' = events new) (commands : r'.queue.commands = r.queue.commands ++ more)
    (commands' : s'.queue.commands = s.queue.commands ++ more) : Alike whole r' s' where
  config := config
  peers := peers
  pool := pool
  said k := by rw [deeds, deeds', sentTo_append, sentTo_append, h.said, said]
  told := by
    have same : otherEvents new' = otherEvents new := by rw [otherEvents, otherEvents, told]
    rw [deeds, deeds', otherEvents_append, otherEvents_append, h.told, same]
  rounds := by
    have same := h.rounds
    unfold Reactor.rounds at same ⊢
    rw [deeds, deeds', events_append, events_append, told, commands, commands']
    simp only [List.count_append]
    omega

/-- What shows of neither reactor's record and of no peer is not seen. -/
theorem unseen (h : Alike whole r s) (new : List Deed) (deeds : s'.deeds = new ++ s.deeds)
    (config : s'.config = s.config)
    (peers : s'.table.view (Peer.face whole) = s.table.view (Peer.face whole))
    (pool : s'.shared.pool = s.shared.pool) (said : ∀ k, sentTo k new = [])
    (told : events new = []) (queue : s'.queue = s.queue) : Alike whole r s' := by
  refine h.extend [] new [] rfl deeds (config.trans h.config) (peers.trans h.peers)
    (pool.trans h.pool) said told (List.append_nil _).symm ?_
  rw [queue, List.append_nil]

/-- What is watched does not show. -/
theorem watching (h : Alike whole r s) (mux : Multiplexer) : Alike whole r { s with mux } :=
  h.unseen [] rfl rfl rfl rfl (fun _ => rfl) rfl rfl

/-- What has been acted upon does not show. -/
theorem heard (h : Alike whole r s) (k : PeerId) (e : Envelope) :
    Alike whole r (s.note (.dispatched k e)) :=
  h.unseen [_] rfl rfl rfl rfl (fun _ => rfl) rfl rfl

/-- Calls that say nothing do not show but in a view of the whole. -/
theorem mute (h : Alike false r s) (held : s.Holds p) (mute : c.isMute = true) :
    Alike false r (s.perform p c) := by
  have shown : (s.table.insert p.id (p.perform c)).view (Peer.face false) =
      s.table.view (Peer.face false) := IdMap.view_insert_same held (Peer.face_mute mute p)
  refine h.unseen (p.record c) rfl rfl shown rfl (fun k => ?_) (p.events_record c) rfl
  cases c with
  | send m outcomes => cases mute
  | _ => rfl

end Alike

/-! ### What the parts of acting upon an envelope keep -/

/-- What holds between reactors that look alike and is kept by the parts of acting upon an
envelope. -/
structure Congruent (whole : Bool) (R : Reactor → Reactor → Prop) : Prop where
  alike {r s : Reactor} : R r s → Alike whole r s
  heard {r s : Reactor} : R r s → ∀ k e,
    R (r.note (.dispatched k e)) (s.note (.dispatched k e))
  call {r s : Reactor} {p q : Peer} {c c' : Session.Call} : R r s → r.Holds p → s.Holds q →
    q.id = p.id → c.Akin c' → R (r.perform p c) (s.perform q c')
  notify {r s : Reactor} : R r s → ∀ event, R (r.notify event) (s.notify event)
  close {r s : Reactor} : R r s → ∀ id, R (r.closePeer id) (s.closePeer id)
  learn {r s : Reactor} : R r s → ∀ addresses,
    R (r.onDiscovery addresses) (s.onDiscovery addresses)

namespace Congruent

variable {R : Reactor → Reactor → Prop}

/-- Something is said. -/
theorem send (h : Congruent whole R) (rel : R r s) (hp : r.Holds p) (hq : s.Holds q)
    (same : q.id = p.id) (m : Message) (writes writes' : List WriteOutcome) :
    R (r.send p m writes).reactor (s.send q m writes').reactor :=
  h.call rel hp hq same (Session.Call.Akin.send m writes writes')

/-- Whoever is welcome is told so, and who the node is and whom it knows. -/
theorem welcome (h : Congruent whole R) (rel : R r s) (hp : r.Holds p) (hq : s.Holds q)
    (same : q.id = p.id) (talks : p.session.state ≠ .closed) {writes writes' : List WriteOutcome}
    (willing : Willing writes) (willing' : Willing writes') :
    R (r.welcome p writes) (s.welcome q writes') := by
  have shown := (h.alike rel).face_eq hp hq same
  have talks' : q.session.state ≠ .closed := Peer.state_of_face shown ▸ talks
  have told := h.notify rel (.peerWelcome p.id)
  have config : (s.notify (.peerWelcome p.id)).config = (r.notify (.peerWelcome p.id)).config :=
    (h.alike told).config
  have held : (r.notify (.peerWelcome p.id)).Holds p := hp
  have held' : (s.notify (.peerWelcome p.id)).Holds q := hq
  unfold Reactor.welcome
  rw [Peer.direction_of_face shown, same]
  generalize r.notify (.peerWelcome p.id) = t at told config held ⊢
  generalize s.notify (.peerWelcome p.id) = u at told config held' ⊢
  simp only
  split
  · have usable : (t.send p (.peerInfo t.config.ownInfo) writes).usable = true :=
      (p.session.send_willing talks _ willing).1
    have usable' : (u.send q (.peerInfo u.config.ownInfo) writes').usable = true :=
      (q.session.send_willing talks' _ willing').1
    rw [if_pos usable, if_pos usable', config]
    have greeted := h.send told held held' same (.peerInfo t.config.ownInfo) writes writes'
    -- The peers that are known are the same to both, and so are their addresses.
    have known := PeerTable.readyAddresses_of_view (h.alike greeted).peers
    unfold sendDiscovery
    rw [known]
    split
    · exact greeted
    · have met := holds_perform t p (.send (.peerInfo t.config.ownInfo) writes)
      have met' := holds_perform u q (.send (.peerInfo t.config.ownInfo) writes')
      exact h.send greeted met met' same _ _ _
  · exact told

/-- An introduction is accepted or refused alike. -/
theorem onPeerInfo (h : Congruent whole R) (rel : R r s) (hp : r.Holds p) (hq : s.Holds q)
    (same : q.id = p.id) (info : PeerInfo) {writes writes' : List WriteOutcome}
    (willing : Willing writes) (willing' : Willing writes') :
    R (r.onPeerInfo p info writes) (s.onPeerInfo q info writes') := by
  have config := (h.alike rel).config
  have state := Peer.state_of_face ((h.alike rel).face_eq hp hq same)
  by_cases foreign : info.networkId ≠ r.config.ownInfo.networkId
  · rw [onPeerInfo_otherNetwork foreign, onPeerInfo_otherNetwork (config ▸ foreign), same, config]
    exact h.close (h.send rel hp hq same _ writes writes') p.id
  · have native := Classical.not_not.mp foreign
    by_cases own : info.uid = r.config.ownInfo.uid
    · rw [onPeerInfo_self native own, onPeerInfo_self (config ▸ native) (config ▸ own), same]
      exact h.close rel p.id
    · have admitted : r.config.admits info := ⟨native, own⟩
      have admitted' : s.config.admits info := config ▸ admitted
      by_cases new : p.session.state = .unverified
      · rw [onPeerInfo_new admitted new, onPeerInfo_new admitted' (state.trans new)]
        have marked := h.call rel hp hq same (.markReady info)
        have talks : (p.perform (.markReady info)).session.state ≠ .closed := by
          rw [Peer.perform, Session.perform, Session.markReady_unverified new]
          exact fun impossible => by cases impossible
        exact h.welcome marked (holds_put r _) (holds_put s _) same talks willing willing'
      · rw [onPeerInfo_known admitted new, onPeerInfo_known admitted' (state ▸ new)]
        exact rel

/-- **What the parts keep is kept when an envelope is acted upon**, whatever the sockets take in the
meantime, unless they fail. -/
theorem dispatch (h : Congruent whole R) (rel : R r s) (hp : r.Holds p) (hq : s.Holds q)
    (same : q.id = p.id) (e : Envelope) {writes writes' : List WriteOutcome}
    (willing : Willing writes) (willing' : Willing writes') :
    R (r.dispatch p e writes) (s.dispatch q e writes') := by
  have noted := h.heard rel p.id e
  have held : (r.note (.dispatched p.id e)).Holds p := hp
  have held' : (s.note (.dispatched p.id e)).Holds q := hq
  unfold Reactor.dispatch
  rw [same]
  generalize r.note (.dispatched p.id e) = t at noted held ⊢
  generalize s.note (.dispatched p.id e) = u at noted held' ⊢
  simp only
  cases e.message with
  | error error =>
    simp only
    split
    · exact h.close noted p.id
    · exact noted
  | ok m =>
    cases m with
    | peerInfo info => exact h.onPeerInfo noted held held' same info willing willing'
    | discovery addresses => exact h.learn noted addresses
    | disconnect why text => exact h.close noted p.id

end Congruent

/-! ### Looking alike is kept -/

namespace Alike

theorem call (h : Alike whole r s) (hp : r.Holds p) (hq : s.Holds q) (same : q.id = p.id)
    (akin : c.Akin c') : Alike whole (r.perform p c) (s.perform q c') := by
  have shown := Peer.face_akin akin (h.face_eq hp hq same)
  have peers : (s.table.insert q.id (q.perform c')).view (Peer.face whole) =
      (r.table.insert p.id (p.perform c)).view (Peer.face whole) := by
    rw [IdMap.view_insert, IdMap.view_insert, h.peers, shown, same]
  refine h.extend (p.record c) (q.record c') [] rfl rfl h.config peers h.pool
    (Peer.said_akin akin same) ?_ (List.append_nil _).symm (List.append_nil _).symm
  rw [Peer.events_record, Peer.events_record]

theorem notify (h : Alike whole r s) (event : Event) :
    Alike whole (r.notify event) (s.notify event) :=
  h.extend [_] [_] [] rfl rfl h.config h.peers h.pool (fun _ => rfl) rfl
    (List.append_nil _).symm (List.append_nil _).symm

theorem close (h : Alike whole r s) (id : PeerId) :
    Alike whole (r.closePeer id) (s.closePeer id) := by
  cases there : r.table.get? id with
  | none =>
    rw [closePeer_unknown there, closePeer_unknown (h.nobody there)]
    exact (h.symm.watching _).symm.watching _
  | some p =>
    obtain ⟨q, there', -⟩ := h.exists_peer there
    have peers : (s.table.erase id).view (Peer.face whole) =
        (r.table.erase id).view (Peer.face whole) := by
      rw [IdMap.view_erase, IdMap.view_erase, h.peers]
    rw [closePeer_found there, closePeer_found there']
    exact h.extend [_, _] [_, _] [] rfl rfl h.config peers h.pool (fun _ => rfl) rfl
      (List.append_nil _).symm (List.append_nil _).symm

theorem learn (h : Alike whole r s) (addresses : List String) :
    Alike whole (r.onDiscovery addresses) (s.onDiscovery addresses) := by
  have pool : s.shared.pool.extend addresses = r.shared.pool.extend addresses := by rw [h.pool]
  exact h.extend [] [] [.tryConnect] rfl rfl h.config h.peers pool (fun _ => rfl)
    rfl rfl rfl

end Alike

/-- **Looking alike is kept by the parts of acting upon an envelope**, and so by the whole of it. -/
theorem congruent_alike (whole : Bool) : Congruent whole (Alike whole) where
  alike h := h
  heard h k e := (h.heard k e).symm.heard k e |>.symm
  call := Alike.call
  notify := Alike.notify
  close := Alike.close
  learn := Alike.learn

end Reactor

end GossipNode
