import GossipNode.Proofs.Reactor.Run
import GossipNode.Proofs.Reactor.Serving

/-!
# The ways of a handler

What a handler does depends on what the socket does and on what has been read.  Here the ways it may
go are told apart, each with the very reactor it leads to, and whatever the socket does.

## Main definitions

* `Reactor.digest` — the first envelope of what has been read is taken off and acted upon.
* `Reactor.Civil` — what sending, telling and letting go do not break.

## Main results

* `Reactor.serve_cases`, `Reactor.takeInput_cases`, `Reactor.digest_cases` — serving a peer.
* `Reactor.serve_rule` — what serving a peer keeps.
* `Reactor.dispatch_cases`, `Reactor.welcome_cases` — **what is said to an envelope.**
* `Reactor.greet_cases`, `Reactor.dismiss_eq` — introducing the node and taking leave.
* `Reactor.Civil.welcome`, `Reactor.Civil.greet`, `Reactor.Civil.dismiss` — what they keep.
-/

namespace GossipNode

/-! ### What sockets leave undone -/

theorem rest_offer_suffix (outcomes : List WriteOutcome) (accepted due : Bytes) :
    (offer outcomes accepted due).rest <:+ outcomes := by
  fun_induction offer outcomes accepted due with
  | case1 => exact List.suffix_rfl
  | case2 => exact List.suffix_rfl
  | case3 rest => exact List.suffix_cons _ rest
  | case4 n rest accepted due _ _ ih => exact ih.trans (List.suffix_cons _ rest)
  | case5 rest => exact List.suffix_cons _ rest
  | case6 why rest => exact List.suffix_cons _ rest

theorem Session.rest_flush_suffix (s : Session) (outcomes : List WriteOutcome) :
    (s.flush outcomes).rest <:+ outcomes := rest_offer_suffix outcomes [] s.outbound

/-- Whether a call says nothing to the other side that it has not been told already. -/
def Session.Call.isMute : Session.Call → Bool
  | .flush _ | .fill _ | .nextEnvelope => true
  | .send .. | .markReady _ | .markClosed => false

/-- Whether an envelope is an introduction of the node itself. -/
def ReactorConfig.isOwn (config : ReactorConfig) (e : Envelope) : Prop :=
  ∃ info, e.message = .ok (.peerInfo info) ∧ info.networkId = config.ownInfo.networkId ∧
    info.uid = config.ownInfo.uid

namespace Reactor

variable {r : Reactor} {p : Peer}

/-- The first envelope of what has been read from a peer is taken off and acted upon. -/
def digest (r : Reactor) (p : Peer) (writes : List WriteOutcome) : Reactor :=
  (r.perform p .nextEnvelope).actUpon (p.perform .nextEnvelope) p.session.nextEnvelope.1 writes

/-! ### Serving -/

/-- Once output has been offered to a peer, or none was due, it is let go, left alone, or asked for
input. -/
theorem serve_cases (held : r.Holds p) (ready : Readiness) (means : Means) :
    ∃ s q writes, ((s = r ∧ q = p) ∨
        s = r.perform p (.flush means.writes) ∧ q = p.perform (.flush means.writes)) ∧
      writes <:+ means.writes ∧
      (r.serve p.id ready means = s.closePeer q.id ∨
        (ready.readable = false ∧ r.serve p.id ready means = s) ∨
        r.serve p.id ready means = s.takeInput q means.incoming writes) := by
  have found : r.table.get? p.id = some p := held
  unfold serve
  rw [found]
  simp only
  split
  · refine ⟨r.perform p (.flush means.writes), p.perform (.flush means.writes),
      (p.session.flush means.writes).rest, Or.inr ⟨rfl, rfl⟩,
      p.session.rest_flush_suffix means.writes, ?_⟩
    split
    · split
      · exact Or.inr (Or.inr rfl)
      · next silent => exact Or.inr (Or.inl ⟨by simp_all, rfl⟩)
    · exact Or.inl rfl
  · refine ⟨r, p, means.writes, Or.inl ⟨rfl, rfl⟩, List.suffix_rfl, ?_⟩
    rw [if_pos rfl]
    split
    · exact Or.inr (Or.inr rfl)
    · next silent => exact Or.inr (Or.inl ⟨by simp_all, rfl⟩)

/-- What has been read is digested before anything else is read.  Otherwise the socket is read once,
and the peer is let go or what is there then is digested. -/
theorem takeInput_cases (r : Reactor) (p : Peer) (incoming : Incoming)
    (writes : List WriteOutcome) :
    r.takeInput p incoming writes = r.digest p writes ∨
      r.takeInput p incoming writes = (r.perform p (.fill incoming)).closePeer p.id ∨
      r.takeInput p incoming writes =
        (r.perform p (.fill incoming)).digest (p.perform (.fill incoming)) writes := by
  rw [takeInput_eq]
  split
  · rw [readOnce_eq]
    split
    · exact Or.inr (Or.inl rfl)
    · exact Or.inr (Or.inl rfl)
    · exact Or.inr (Or.inr rfl)
  · exact Or.inl rfl

/-- What has been read holds an envelope, which is acted upon, or not enough for one, or something
that is none. -/
theorem digest_cases (r : Reactor) (p : Peer) (writes : List WriteOutcome) :
    (∃ e, r.digest p writes =
        ((r.perform p .nextEnvelope).dispatch (p.perform .nextEnvelope) e writes).requeueBuffered
          p.id) ∨
      (decodeOne p.session.inbound = .ok none ∧ p.perform .nextEnvelope = p ∧
        r.digest p writes = r.perform p .nextEnvelope) ∨
      r.digest p writes = (r.perform p .nextEnvelope).closePeer p.id := by
  unfold digest actUpon
  cases decoded : decodeOne p.session.inbound with
  | error error =>
    have failed : p.session.nextEnvelope.1 = .error error := by
      unfold Session.nextEnvelope takeEnvelope
      rw [decoded]
    rw [failed]
    exact Or.inr (Or.inr rfl)
  | ok found =>
    cases found with
    | none =>
      have short := Session.nextEnvelope_none decoded
      have same : p.perform .nextEnvelope = p := by
        rw [Peer.perform, Session.perform, short]
      rw [short]
      exact Or.inr (Or.inl ⟨rfl, same, rfl⟩)
    | some pair =>
      obtain ⟨e, used⟩ := pair
      rw [Session.nextEnvelope_found decoded]
      exact Or.inl ⟨e, rfl⟩

/-- **Serving a peer is a few calls that say nothing to it, and then it is left alone, let go, or an
envelope of its is acted upon.** -/
theorem serve_rule {Inv : Reactor → Peer → Prop} {Post : Reactor → Prop} {means : Means}
    (mute : ∀ {r p c}, Inv r p → c.isMute = true → Inv (r.perform p c) (p.perform c))
    (left : ∀ {r p}, Inv r p → Post r) (closed : ∀ {r p}, Inv r p → Post (r.closePeer p.id))
    (acted : ∀ {r p} e {writes}, Inv r p → writes <:+ means.writes →
      Post ((r.dispatch p e writes).requeueBuffered p.id))
    (held : r.Holds p) (start : Inv r p) (ready : Readiness) :
    Post (r.serve p.id ready means) := by
  have digested {r : Reactor} {p : Peer} {writes : List WriteOutcome} (h : Inv r p)
      (some_of : writes <:+ means.writes) : Post (r.digest p writes) := by
    have taken := mute (c := .nextEnvelope) h rfl
    rcases digest_cases r p writes with ⟨e, same⟩ | ⟨-, -, same⟩ | same
    · exact same ▸ acted e taken some_of
    · exact same ▸ left taken
    · exact same ▸ closed (p := p.perform .nextEnvelope) taken
  obtain ⟨s, q, writes, offered, some_of, served⟩ := serve_cases held ready means
  have after : Inv s q := by
    rcases offered with ⟨rfl, rfl⟩ | ⟨rfl, rfl⟩
    · exact start
    · exact mute start rfl
  rcases served with same | ⟨-, same⟩ | same
  · exact same ▸ closed after
  · exact same ▸ left after
  · rw [same]
    have filled := mute (c := .fill means.incoming) after rfl
    rcases takeInput_cases s q means.incoming writes with same | same | same
    · exact same ▸ digested after some_of
    · exact same ▸ closed (p := q.perform (.fill means.incoming)) filled
    · exact same ▸ digested filled some_of

/-! ### Acting upon an envelope -/

/-- **What is done about an envelope**: it goes on record and changes nothing else that concerns
connections, or ends the conversation, perhaps with a farewell, or introduces a peer that is
welcome. -/
theorem dispatch_cases (r : Reactor) (p : Peer) (e : Envelope) (writes : List WriteOutcome) :
    (¬ r.config.isOwn e ∧ Idle (r.note (.dispatched p.id e)) (r.dispatch p e writes)) ∨
      r.dispatch p e writes = (r.note (.dispatched p.id e)).closePeer p.id ∨
      (¬ r.config.isOwn e ∧ ∃ why text, r.dispatch p e writes =
        ((r.note (.dispatched p.id e)).perform p
          (.send (.disconnect why text) writes)).closePeer p.id) ∨
      ∃ info, e.message = .ok (.peerInfo info) ∧ r.config.admits info ∧
        p.session.state = .unverified ∧ r.dispatch p e writes =
          ((r.note (.dispatched p.id e)).put (p.perform (.markReady info))).welcome
            (p.perform (.markReady info)) writes := by
  have plain (h : ∀ info, e.message ≠ .ok (.peerInfo info)) : ¬ r.config.isOwn e := by
    rintro ⟨info, introduced, -⟩
    exact h info introduced
  unfold dispatch
  simp only
  split
  · next error failed =>
    split
    · exact Or.inr (Or.inl rfl)
    · refine Or.inl ⟨plain fun info introduced => ?_, Idle.refl _⟩
      rw [failed] at introduced
      cases introduced
  · next info introduced =>
    by_cases network : info.networkId = r.config.ownInfo.networkId
    · by_cases own : info.uid = r.config.ownInfo.uid
      · exact Or.inr (Or.inl (onPeerInfo_self (r := r.note _) network own p writes))
      · have admitted : r.config.admits info := ⟨network, own⟩
        by_cases new : p.session.state = .unverified
        · exact Or.inr (Or.inr (Or.inr ⟨info, introduced, admitted, new,
            onPeerInfo_new (r := r.note _) admitted new writes⟩))
        · refine Or.inl ⟨?_, ?_⟩
          · rintro ⟨info', introduced', -, own'⟩
            rw [introduced] at introduced'
            cases introduced'
            exact own own'
          · rw [onPeerInfo_known (r := r.note _) admitted new]
            exact Idle.refl _
    · have refused := onPeerInfo_otherNetwork (r := r.note (.dispatched p.id e)) network p writes
      refine Or.inr (Or.inr (Or.inl ⟨?_, _, _, refused⟩))
      rintro ⟨info', introduced', network', -⟩
      rw [introduced] at introduced'
      cases introduced'
      exact network network'
  · next addresses discovered =>
    refine Or.inl ⟨plain fun info introduced => ?_, (Move.learn addresses).idle⟩
    rw [discovered] at introduced
    cases introduced
  · exact Or.inr (Or.inl rfl)

/-- What is said to a peer that is welcome: nothing if the node began the connection, for it has
introduced itself already; otherwise who the node is and then whom it knows, unless the socket fails
in between. -/
theorem welcome_cases (r : Reactor) (p : Peer) (writes : List WriteOutcome) :
    (p.direction ≠ .inbound ∧ r.welcome p writes = r.notify (.peerWelcome p.id)) ∨
      (p.direction = .inbound ∧
        ((r.notify (.peerWelcome p.id)).send p (.peerInfo r.config.ownInfo) writes).usable = false ∧
        r.welcome p writes = ((r.notify (.peerWelcome p.id)).send p (.peerInfo r.config.ownInfo)
          writes).reactor.closePeer p.id) ∨
      (p.direction = .inbound ∧ ∃ rest, r.welcome p writes =
        ((r.notify (.peerWelcome p.id)).perform p
          (.send (.peerInfo r.config.ownInfo) writes)).sendDiscovery
            (p.perform (.send (.peerInfo r.config.ownInfo) writes)) rest) := by
  unfold welcome
  simp only
  split
  · next inbound =>
    refine Or.inr ?_
    split
    · exact Or.inr ⟨inbound, _, rfl⟩
    · next broken => exact Or.inl ⟨inbound, Bool.eq_false_iff.2 broken, rfl⟩
  · next other => exact Or.inl ⟨other, rfl⟩

theorem sendDiscovery_eq (some_ready : r.table.readyAddresses ≠ []) (p : Peer)
    (writes : List WriteOutcome) :
    r.sendDiscovery p writes = r.perform p (.send (.discovery r.table.readyAddresses) writes) := by
  unfold sendDiscovery
  split
  · next nobody => exact absurd nobody some_ready
  · rfl

theorem requeueBuffered_cases (r : Reactor) (id : PeerId) :
    r.requeueBuffered id = r ∨ r.requeueBuffered id = { r with mux := r.mux.requeue id } := by
  unfold requeueBuffered
  split
  · split
    · exact Or.inr rfl
    · exact Or.inl rfl
  · exact Or.inl rfl

@[simp] theorem deeds_requeueBuffered (r : Reactor) (id : PeerId) :
    (r.requeueBuffered id).deeds = r.deeds := by
  rcases requeueBuffered_cases r id with same | same <;> rw [same]

@[simp] theorem table_requeueBuffered (r : Reactor) (id : PeerId) :
    (r.requeueBuffered id).table = r.table := by
  rcases requeueBuffered_cases r id with same | same <;> rw [same]
  rfl

/-! ### Introducing the node and taking leave -/

theorem greet_cases (held : r.Holds p) (writes : List WriteOutcome) :
    r.greet p.id writes = r.perform p (.send (.peerInfo r.config.ownInfo) writes) ∨
      r.greet p.id writes =
        (r.perform p (.send (.peerInfo r.config.ownInfo) writes)).closePeer p.id := by
  have found : r.table.get? p.id = some p := held
  unfold greet
  rw [found]
  simp only
  split
  · exact Or.inl rfl
  · exact Or.inr rfl

theorem dismiss_eq (held : r.Holds p) (writes : List WriteOutcome) :
    r.dismiss p.id writes = (r.perform p (.send closedByOperator writes)).closePeer p.id := by
  have found : r.table.get? p.id = some p := held
  unfold dismiss
  rw [found]
  rfl

/-! ### What is kept where nothing is taken in -/

/-- What holds between a reactor and itself later, and is not broken when something is sent to a
peer, the listeners are told something, or somebody is let go. -/
structure Civil (R : Reactor → Reactor → Prop) : Prop where
  refl (r : Reactor) : R r r
  trans {r s t : Reactor} : R r s → R s t → R r t
  send {r : Reactor} {p : Peer} (held : r.Holds p) (m : Message) (outcomes : List WriteOutcome) :
    R r (r.perform p (.send m outcomes))
  notify (r : Reactor) (event : Event) : R r (r.notify event)
  close (r : Reactor) (id : PeerId) : R r (r.closePeer id)

namespace Civil

variable {R : Reactor → Reactor → Prop}

/-- Whoever is welcome is told so. -/
theorem welcome (civil : Civil R) (held : r.Holds p) (writes : List WriteOutcome) :
    R r (r.welcome p writes) := by
  have told := civil.notify r (.peerWelcome p.id)
  have held' : (r.notify (.peerWelcome p.id)).Holds p := held
  have greeted := civil.trans told (civil.send held' (.peerInfo r.config.ownInfo) writes)
  rcases welcome_cases r p writes with ⟨-, same⟩ | ⟨-, -, same⟩ | ⟨-, rest, same⟩
  · rw [same]
    exact told
  · rw [same]
    exact civil.trans greeted (civil.close _ p.id)
  · rw [same]
    unfold sendDiscovery
    split
    · exact greeted
    · exact civil.trans greeted (civil.send (holds_perform _ p _) _ rest)

theorem greet (civil : Civil R) (keyed : r.Keyed) (id : PeerId) (writes : List WriteOutcome) :
    R r (r.greet id writes) := by
  cases there : r.table.get? id with
  | none =>
    rw [greet_unknown there]
    exact civil.refl r
  | some p =>
    have same := keyed id p there
    subst same
    have told := civil.send there (.peerInfo r.config.ownInfo) writes
    rcases greet_cases there writes with same | same
    · exact same ▸ told
    · exact same ▸ civil.trans told (civil.close _ p.id)

theorem dismiss (civil : Civil R) (keyed : r.Keyed) (id : PeerId) (writes : List WriteOutcome) :
    R r (r.dismiss id writes) := by
  cases there : r.table.get? id with
  | none =>
    rw [dismiss_unknown there]
    exact civil.refl r
  | some p =>
    have same := keyed id p there
    subst same
    rw [dismiss_eq there]
    exact civil.trans (civil.send there closedByOperator writes) (civil.close _ p.id)

theorem foldl_close (civil : Civil R) (ids : List PeerId) : ∀ r : Reactor,
    R r (ids.foldl closePeer r) := by
  induction ids with
  | nil => exact civil.refl
  | cons id ids ih => exact fun r => civil.trans (civil.close r id) (ih _)

theorem expireHandshakes (civil : Civil R) (r : Reactor) (now : Nat) :
    R r (r.expireHandshakes now) := by
  unfold Reactor.expireHandshakes
  split
  · exact civil.refl r
  · exact civil.foldl_close _ r

end Civil

end Reactor

end GossipNode
