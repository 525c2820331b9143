import GossipNode.Proofs.Message.Addresses
import GossipNode.Proofs.Reactor.Conversations
import GossipNode.Proofs.Reactor.Delivery

/-!
# Why a node says what it says

A node speaks when an envelope asks for it, when it introduces itself on a connection that it began,
and when it takes leave by command.  Nothing else makes it speak.  So everything it has said can be
accounted for by what it has heard, and cannot be long.

## Main definitions

* `Reactor.Response` — what is said about an envelope.
* `Reactor.Exchange` — some envelopes have been acted upon, and some messages handed over.
* `Message.Warranted` — a message that a node has reason to say.
* `Reactor.Candid` — everything that was said was warranted, and refusals were given.

## Main results

* `Reactor.serve_exchange`, `Reactor.greet_exchange` — what serving a peer comes to, and what
  introducing the node does.
* `Reactor.candid_run` — **a node says nothing without reason, and never fails to refuse.**
* `Reactor.Candid.wrongNetwork_iff` — a peer is told that its network is the wrong one exactly if it
  has introduced itself as of another.
* `Message.Warranted.length_encode` — how long the messages of a node can be.
-/

namespace GossipNode

theorem IdMap.size_insert {α : Type} {m : IdMap α} {id : PeerId} {a : α}
    (found : m.get? id = some a) (b : α) : (m.insert id b).size = m.size := by
  have lengths := congrArg List.length (map_values_insert (fun _ => ()) (b := b) found rfl)
  simpa [values, size] using lengths

/-- A node passes on no more addresses than it has peers. -/
theorem PeerTable.length_readyAddresses (t : PeerTable) : t.readyAddresses.length ≤ t.size := by
  refine Nat.le_trans (List.length_filterMap_le ..) (Nat.le_trans (List.length_filter_le ..) ?_)
  rw [IdMap.values, List.length_map]
  exact Nat.le_refl _

/-- Every address that a node passes on is that of a peer. -/
theorem PeerTable.exists_of_mem_readyAddresses {t : PeerTable} {a : String}
    (h : a ∈ t.readyAddresses) : ∃ p : Peer, p.listenAddress = some a := by
  obtain ⟨p, -, address⟩ := List.mem_filterMap.1 h
  exact ⟨p, address⟩

theorem mem_dispatchedTo {id : PeerId} {deeds : List Deed} {e : Envelope} :
    e ∈ dispatchedTo id deeds ↔ .dispatched id e ∈ deeds := by
  rw [dispatchedTo, List.mem_reverse, List.mem_filterMap]
  constructor
  · rintro ⟨d, hd, acted⟩
    unfold Deed.dispatched? at acted
    split at acted
    · split at acted
      · next same =>
        cases acted
        exact same ▸ hd
      · cases acted
    · cases acted
  · exact fun hd => ⟨_, hd, if_pos rfl⟩

theorem dispatchedTo_append (id : PeerId) (new deeds : List Deed) :
    dispatchedTo id (new ++ deeds) = dispatchedTo id deeds ++ dispatchedTo id new := by
  simp [dispatchedTo]

/-! ### Introductions that were heard -/

/-- Whom an envelope introduces. -/
def Envelope.introduces? (e : Envelope) : Option PeerInfo :=
  match e.message with
  | .ok (.peerInfo info) => some info
  | _ => none

theorem Envelope.introduces?_eq_some {e : Envelope} {info : PeerInfo} :
    e.introduces? = some info ↔ e.message = .ok (.peerInfo info) := by
  unfold introduces?
  split
  · next found => simp [found]
  · next other =>
    constructor
    · intro impossible
      cases impossible
    · exact fun found => absurd found (other info)

/-- The first introduction on a connection is the first among the envelopes that were acted upon. -/
theorem firstIntroduction_eq (id : PeerId) (deeds : List Deed) :
    firstIntroduction id deeds = (dispatchedTo id deeds).findSome? Envelope.introduces? := by
  have each : ∀ d : Deed, d.introduces? id = (d.dispatched? id).bind Envelope.introduces? := by
    intro d
    cases d with
    | dispatched k e =>
      by_cases same : k = id
      · simp only [Deed.introduces?, Deed.dispatched?, same, if_true, Option.bind_some]
        rfl
      · simp only [Deed.introduces?, Deed.dispatched?, same, if_false, Option.bind_none]
        split <;> rfl
    | _ => rfl
  rw [firstIntroduction, funext each, ← List.filterMap_filterMap, ← List.head?_reverse,
    ← List.filterMap_reverse, List.head?_filterMap, dispatchedTo]

namespace Reactor

variable {own : PeerInfo} {peers : Nat} {k : PeerId} {r s t : Reactor} {p : Peer}

/-! ### Acting upon an envelope -/

/-- What is said to a peer about an envelope of its by a node that has so many peers. -/
inductive Response (own : PeerInfo) (peers : Nat) (e : Envelope) : List Message → Prop
  | silence (native : ∀ info, e.message = .ok (.peerInfo info) →
      info.networkId = own.networkId) : Response own peers e []
  /-- The peer has introduced itself as of another network. -/
  | refusal {info : PeerInfo} (introduced : e.message = .ok (.peerInfo info))
      (foreign : info.networkId ≠ own.networkId) :
    Response own peers e [wrongNetwork info.networkId own.networkId]
  /-- The peer is welcome, but its socket has failed. -/
  | introduction {info : PeerInfo} (introduced : e.message = .ok (.peerInfo info))
      (native : info.networkId = own.networkId) : Response own peers e [.peerInfo own]
  /-- The peer is welcome. -/
  | acquaintance {info : PeerInfo} (introduced : e.message = .ok (.peerInfo info))
      (native : info.networkId = own.networkId) {addresses : List String}
      (few : addresses.length ≤ peers)
      (reach : ∀ a ∈ addresses, ∃ p : Peer, p.listenAddress = some a) :
    Response own peers e [.peerInfo own, .discovery addresses]

/-- Some envelopes of a peer have been acted upon, and some messages handed over to it.  Beyond that
nothing is asked of the node but a round of dialing for every list of addresses. -/
structure Exchange (k : PeerId) (r s : Reactor) (es : List Envelope) (ms : List Message) :
    Prop where
  config : s.config = r.config
  deeds : ∃ new, s.deeds = new ++ r.deeds
  heard : dispatchedTo k s.deeds = dispatchedTo k r.deeds ++ es
  said : sentTo k s.deeds = sentTo k r.deeds ++ ms
  dialing : s.dialing = r.dialing
  commands : ∃ new, s.queue.commands = r.queue.commands ++ new ∧ ∀ c ∈ new, c = .tryConnect ∧
    ∃ e ∈ es, ∃ addresses, e.message = .ok (.discovery addresses)

theorem Exchange.trans {es es' : List Envelope} {ms ms' : List Message}
    (h : Exchange k r s es ms) (h' : Exchange k s t es' ms') :
    Exchange k r t (es ++ es') (ms ++ ms') where
  config := h'.config.trans h.config
  deeds := by
    obtain ⟨new, hnew⟩ := h.deeds
    obtain ⟨new', hnew'⟩ := h'.deeds
    exact ⟨new' ++ new, by rw [hnew', hnew, List.append_assoc]⟩
  heard := by rw [h'.heard, h.heard, List.append_assoc]
  said := by rw [h'.said, h.said, List.append_assoc]
  dialing := h'.dialing.trans h.dialing
  commands := by
    obtain ⟨new, hnew, rounds⟩ := h.commands
    obtain ⟨new', hnew', rounds'⟩ := h'.commands
    refine ⟨new ++ new', by rw [hnew', hnew, List.append_assoc], fun c hc => ?_⟩
    rcases List.mem_append.1 hc with early | late
    · obtain ⟨seeks, e, he, discovered⟩ := rounds c early
      exact ⟨seeks, e, List.mem_append_left es' he, discovered⟩
    · obtain ⟨seeks, e, he, discovered⟩ := rounds' c late
      exact ⟨seeks, e, List.mem_append_right es he, discovered⟩

/-- Where the queue stays as it is nothing is asked of the node. -/
theorem exchange_commands {es : List Envelope} (queue : s.queue = r.queue) :
    ∃ new, s.queue.commands = r.queue.commands ++ new ∧ ∀ c ∈ new, c = .tryConnect ∧
      ∃ e ∈ es, ∃ addresses, e.message = .ok (.discovery addresses) := by
  refine ⟨[], ?_, List.forall_mem_nil _⟩
  rw [queue, List.append_nil]

/-- Nothing is said and no envelope acted upon. -/
theorem exchange_quiet {new : List Deed} (config : s.config = r.config)
    (deeds : s.deeds = new ++ r.deeds) (silent : ∀ d ∈ new, d.Silent k)
    (unacted : ∀ d ∈ new, d.dispatched? k = none) (dialing : s.dialing = r.dialing)
    (queue : s.queue = r.queue) : Exchange k r s [] [] where
  config := config
  deeds := ⟨new, deeds⟩
  heard := by
    rw [deeds, dispatchedTo_append, dispatchedTo, dispatchedTo, List.filterMap_eq_nil_iff.2 unacted]
    rfl
  said := by rw [deeds, sentTo_silent silent, List.append_nil]
  dialing := dialing
  commands := exchange_commands queue

theorem exchange_nothing (k : PeerId) (r : Reactor) : Exchange k r r [] [] where
  config := rfl
  deeds := ⟨[], rfl⟩
  heard := (List.append_nil _).symm
  said := (List.append_nil _).symm
  dialing := rfl
  commands := exchange_commands rfl

theorem exchange_dispatched (r : Reactor) (k : PeerId) (e : Envelope) :
    Exchange k r (r.note (.dispatched k e)) [e] [] where
  config := rfl
  deeds := ⟨[_], rfl⟩
  heard := (fed_dispatched r k e).dispatched
  said := (List.append_nil _).symm
  dialing := rfl
  commands := exchange_commands rfl

theorem exchange_send (r : Reactor) (p : Peer) (m : Message) (writes : List WriteOutcome) :
    Exchange p.id r (r.perform p (.send m writes)) [] [m] where
  config := rfl
  deeds := ⟨p.record (.send m writes), rfl⟩
  heard := (fed_send p.id p m writes).dispatched
  said := sentTo_send r p m writes
  dialing := rfl
  commands := exchange_commands rfl

theorem exchange_mute {c : Session.Call} (mute : c.isMute = true) (r : Reactor) (p : Peer)
    (k : PeerId) : Exchange k r (r.perform p c) [] [] where
  config := rfl
  deeds := ⟨p.record c, rfl⟩
  heard := by
    cases c with
    | flush outcomes => exact (fed_flush k p outcomes).dispatched
    | fill incoming => exact (List.append_nil _).symm
    | nextEnvelope => exact (List.append_nil _).symm
    | send m outcomes => cases mute
    | markReady info => cases mute
    | markClosed => cases mute
  said := (sentTo_mute mute k).trans (List.append_nil _).symm
  dialing := rfl
  commands := exchange_commands rfl

theorem dialing_closePeer (r : Reactor) (id : PeerId) : (r.closePeer id).dialing = r.dialing := by
  unfold closePeer
  simp only
  split <;> rfl

theorem exchange_close (held : r.Holds p) (k : PeerId) :
    Exchange k r (r.closePeer p.id) [] [] := by
  have deeds : (r.closePeer p.id).deeds = [.notified (.peerClose p.id) r.shared.listeners.audience,
      .retired (p.perform .markClosed)] ++ r.deeds := deeds_closePeer held
  refine exchange_quiet (config_closePeer r p.id) deeds ?_ ?_ (dialing_closePeer r p.id)
    (queue_closePeer r p.id)
  · simp [Deed.Silent]
  · simp [Deed.dispatched?]

theorem exchange_notify (r : Reactor) (event : Event) (k : PeerId) :
    Exchange k r (r.notify event) [] [] := by
  have deeds : (r.notify event).deeds =
      [.notified event r.shared.listeners.audience] ++ r.deeds := rfl
  refine exchange_quiet rfl deeds ?_ ?_ rfl rfl
  · simp [Deed.Silent]
  · simp [Deed.dispatched?]

/-- Introducing the node. -/
theorem greet_exchange (held : r.Holds p) (writes : List WriteOutcome) :
    Exchange p.id r (r.greet p.id writes) [] [.peerInfo r.config.ownInfo] := by
  have told := exchange_send r p (.peerInfo r.config.ownInfo) writes
  rcases greet_cases held writes with same | same
  · rw [same]
    exact told
  · rw [same]
    have closed := exchange_close (p := p.perform _)
      (holds_perform r p (.send (.peerInfo r.config.ownInfo) writes)) p.id
    exact told.trans closed

/-- Whoever is welcome is told who the node is and whom it knows, if it began the connection. -/
theorem welcome_exchange {q : Peer} (held : r.Holds q) {e : Envelope} {info : PeerInfo}
    (introduced : e.message = .ok (.peerInfo info))
    (native : info.networkId = r.config.ownInfo.networkId) (writes : List WriteOutcome) :
    ∃ said, Response r.config.ownInfo r.table.size e said ∧
      Exchange q.id r (r.welcome q writes) [] said := by
  have told := exchange_notify r (.peerWelcome q.id) q.id
  have greeted := told.trans (exchange_send (r.notify (.peerWelcome q.id)) q
    (.peerInfo r.config.ownInfo) writes)
  rcases welcome_cases r q writes with ⟨-, same⟩ | ⟨-, -, same⟩ | ⟨-, rest, same⟩
  · rw [same]
    refine ⟨[], .silence fun info' h => ?_, told⟩
    cases introduced.symm.trans h
    exact native
  · rw [same]
    have closed := exchange_close (p := q.perform _)
      (holds_perform (r.notify (.peerWelcome q.id)) q (.send (.peerInfo r.config.ownInfo) writes))
      q.id
    exact ⟨_, .introduction introduced native, greeted.trans closed⟩
  · rw [same]
    unfold sendDiscovery
    split
    · exact ⟨_, .introduction introduced native, greeted⟩
    · let t := (r.notify (.peerWelcome q.id)).perform q (.send (.peerInfo r.config.ownInfo) writes)
      have size : t.table.size = r.table.size := IdMap.size_insert held _
      have few : t.table.readyAddresses.length ≤ r.table.size :=
        size ▸ PeerTable.length_readyAddresses t.table
      have passed := exchange_send t (q.perform (.send (.peerInfo r.config.ownInfo) writes))
        (.discovery t.table.readyAddresses) rest
      exact ⟨_, .acquaintance introduced native few
        fun a ha => PeerTable.exists_of_mem_readyAddresses ha, greeted.trans passed⟩

/-- Acting upon an envelope. -/
theorem dispatch_exchange (held : r.Holds p) (e : Envelope) (writes : List WriteOutcome) :
    ∃ said, Response r.config.ownInfo r.table.size e said ∧
      Exchange p.id r (r.dispatch p e writes) [e] said := by
  have noted := exchange_dispatched r p.id e
  have closed := noted.trans (exchange_close (r := r.note (.dispatched p.id e)) held p.id)
  have plain {m : Message} (h : e.message = .ok m) (other : ∀ info, m ≠ .peerInfo info) :
      ∀ info, e.message = .ok (.peerInfo info) → info.networkId = r.config.ownInfo.networkId := by
    intro info h'
    cases h.symm.trans h'
    exact absurd rfl (other info)
  unfold dispatch
  simp only
  split
  · next error failed =>
    have silence : Response r.config.ownInfo r.table.size e [] := .silence fun info h => by
      rw [failed] at h
      cases h
    split
    · exact ⟨[], silence, closed⟩
    · exact ⟨[], silence, noted⟩
  · next info introduced =>
    by_cases native : info.networkId = r.config.ownInfo.networkId
    · have silence : Response r.config.ownInfo r.table.size e [] := .silence fun info' h => by
        cases introduced.symm.trans h
        exact native
      by_cases own : info.uid = r.config.ownInfo.uid
      · rw [onPeerInfo_self (r := r.note _) native own]
        exact ⟨[], silence, closed⟩
      · by_cases new : p.session.state = .unverified
        · rw [onPeerInfo_new (r := r.note _) ⟨native, own⟩ new]
          obtain ⟨said, response, exchange⟩ := welcome_exchange
            (holds_put (r.note (.dispatched p.id e)) (p.perform (.markReady info))) introduced
            native writes
          have size : ((r.note (.dispatched p.id e)).put (p.perform (.markReady info))).table.size =
              r.table.size := IdMap.size_insert held _
          rw [size] at response
          have put : Exchange p.id r
              ((r.note (.dispatched p.id e)).put (p.perform (.markReady info))) [e] [] :=
            { noted with }
          exact ⟨said, response, put.trans exchange⟩
        · rw [onPeerInfo_known (r := r.note _) ⟨native, own⟩ new]
          exact ⟨[], silence, noted⟩
    · rw [onPeerInfo_otherNetwork (r := r.note _) native]
      have told := exchange_send (r.note (.dispatched p.id e)) p
        (wrongNetwork info.networkId r.config.ownInfo.networkId) writes
      have gone := exchange_close (p := p.perform _) (holds_perform (r.note (.dispatched p.id e)) p
        (.send (wrongNetwork info.networkId r.config.ownInfo.networkId) writes)) p.id
      exact ⟨_, .refusal introduced native, (noted.trans told).trans gone⟩
  · next addresses discovered =>
    refine ⟨[], .silence (plain discovered fun _ h => by cases h), ?_⟩
    refine { noted with commands := ⟨[.tryConnect], rfl, fun c hc => ?_⟩ }
    exact ⟨List.mem_singleton.1 hc, e, List.mem_singleton.2 rfl, addresses, discovered⟩
  · next why text left => exact ⟨[], .silence (plain left fun _ h => by cases h), closed⟩

/-- **What serving a peer comes to**: at most one envelope of its is acted upon, and what is said is
about that one. -/
theorem serve_exchange (held : r.Holds p) (ready : Readiness) (means : Means) :
    Exchange p.id r (r.serve p.id ready means) [] [] ∨
      ∃ e said, Response r.config.ownInfo r.table.size e said ∧
        Exchange p.id r (r.serve p.id ready means) [e] said := by
  refine @serve_rule r p (fun t q => t.Holds q ∧ q.id = p.id ∧ t.table.size = r.table.size ∧
    Exchange p.id r t [] []) (fun s => Exchange p.id r s [] [] ∨ ∃ e said,
      Response r.config.ownInfo r.table.size e said ∧ Exchange p.id r s [e] said) means
    ?mute ?left ?closed ?acted held ⟨held, rfl, rfl, exchange_nothing p.id r⟩ ready
  case mute =>
    rintro t q c ⟨held, number, size, exchange⟩ mute
    exact ⟨holds_perform t q c, number, (IdMap.size_insert held _).trans size,
      exchange.trans (exchange_mute mute t q p.id)⟩
  case left =>
    rintro t q ⟨-, -, -, exchange⟩
    exact Or.inl exchange
  case closed =>
    rintro t q ⟨held, -, -, exchange⟩
    exact Or.inl (exchange.trans (exchange_close held p.id))
  case acted =>
    rintro t q e writes ⟨held, number, size, exchange⟩ -
    obtain ⟨said, response, acted⟩ := dispatch_exchange held e writes
    rw [exchange.config, size] at response
    rw [number] at acted ⊢
    refine Or.inr ⟨e, said, response, ?_⟩
    have all := exchange.trans acted
    rcases requeueBuffered_cases (t.dispatch q e writes) p.id with same | same
    · rw [same]
      exact all
    · rw [same]
      exact { all with }

/-! ### What has been said -/

end Reactor

/-- A message that a node has reason to say to a peer, after some envelopes of the peer's have been
acted upon and so many connections have come. -/
inductive Message.Warranted (own : PeerInfo) (came : Nat) (heard : List Envelope) : Message → Prop
  | introduction : Warranted own came heard (.peerInfo own)
  | acquaintance {addresses : List String} (few : addresses.length ≤ came)
      (reach : ∀ a ∈ addresses, ∃ p : Peer, p.listenAddress = some a) :
    Warranted own came heard (.discovery addresses)
  | refusal {e : Envelope} {info : PeerInfo} (acted : e ∈ heard)
      (introduced : e.message = .ok (.peerInfo info))
      (foreign : info.networkId ≠ own.networkId) :
    Warranted own came heard (Reactor.wrongNetwork info.networkId own.networkId)
  | dismissal : Warranted own came heard Reactor.closedByOperator

theorem Message.Warranted.mono {own : PeerInfo} {came came' : Nat} {heard heard' : List Envelope}
    {m : Message} (h : m.Warranted own came heard) (more : came ≤ came')
    (further : ∀ e ∈ heard, e ∈ heard') : m.Warranted own came' heard' := by
  cases h with
  | introduction => exact .introduction
  | acquaintance few reach => exact .acquaintance (Nat.le_trans few more) reach
  | refusal acted introduced foreign => exact .refusal (further _ acted) introduced foreign
  | dismissal => exact .dismissal

/-- How long the messages of a node can be to which so many connections have come. -/
theorem Message.Warranted.length_encode {own : PeerInfo} {came : Nat} {heard : List Envelope}
    {m : Message} (h : m.Warranted own came heard) : m.encode.length ≤ 54 * came + 1024 := by
  cases h with
  | introduction =>
    have bound := Message.length_encode_peerInfo own
    omega
  | @acquaintance addresses few reach =>
    by_cases none_listed : addresses = []
    · have empty : (Message.discovery []).encode.length ≤ 1024 := by decide
      rw [none_listed]
      exact Nat.le_trans empty (Nat.le_add_left ..)
    · have short : ∀ a ∈ addresses, a.length ≤ 51 := by
        intro a ha
        obtain ⟨p, address⟩ := reach a ha
        exact Peer.length_listenAddress_le address
      have bare : ∀ a ∈ addresses, Bare a := by
        intro a ha
        obtain ⟨p, address⟩ := reach a ha
        exact Peer.bare_listenAddress address
      rw [Message.length_encode_addresses none_listed bare]
      have bound := gossipSize_le short
      omega
  | @refusal e info acted introduced foreign =>
    have short : ("network " ++ toString info.networkId.toInt ++ " != "
        ++ toString own.networkId.toInt).length ≤ 34 := by
      have theirs := length_toString_int32 info.networkId
      have ours := length_toString_int32 own.networkId
      have front : "network ".length = 8 := rfl
      have between : " != ".length = 4 := rfl
      rw [String.length_append, String.length_append, String.length_append, front, between]
      omega
    have bound := Message.length_encode_disconnect .wrongNetwork short
    exact Nat.le_trans bound (by omega)
  | dismissal =>
    have short : "closed by operator".length ≤ 18 := by decide
    have bound := Message.length_encode_disconnect .unknown short
    exact Nat.le_trans bound (by omega)

namespace Reactor

variable {own : PeerInfo} {peers : Nat} {k : PeerId} {r s t : Reactor} {p : Peer}

theorem Response.warranted {e : Envelope} {said : List Message}
    (h : Response own peers e said) : ∀ m ∈ said, m.Warranted own peers [e] := by
  intro m hm
  cases h with
  | silence => cases hm
  | refusal introduced foreign =>
    rw [List.mem_singleton.1 hm]
    exact .refusal (List.mem_singleton.2 rfl) introduced foreign
  | introduction =>
    rw [List.mem_singleton.1 hm]
    exact .introduction
  | acquaintance introduced native few reach =>
    rcases List.mem_cons.1 hm with rfl | hm
    · exact .introduction
    · rw [List.mem_singleton.1 hm]
      exact .acquaintance few reach

/-- Everything that was said to a peer was warranted, and whoever has introduced itself as of
another network has been told so. -/
structure Candid (k : PeerId) (r : Reactor) : Prop where
  warranted : ∀ m ∈ sentTo k r.deeds,
    m.Warranted r.config.ownInfo (joinedIds r.deeds).length (dispatchedTo k r.deeds)
  refused : ∀ e ∈ dispatchedTo k r.deeds, ∀ info, e.message = .ok (.peerInfo info) →
    info.networkId ≠ r.config.ownInfo.networkId →
      wrongNetwork info.networkId r.config.ownInfo.networkId ∈ sentTo k r.deeds

/-- A node stays candid if what it says is warranted and it refuses whom it has to. -/
theorem Candid.grow (h : Candid k r) (config : s.config = r.config) {heard : List Envelope}
    {said : List Message} (joined : (joinedIds r.deeds).length ≤ (joinedIds s.deeds).length)
    (acted : dispatchedTo k s.deeds = dispatchedTo k r.deeds ++ heard)
    (told : sentTo k s.deeds = sentTo k r.deeds ++ said)
    (warranted : ∀ m ∈ said, m.Warranted r.config.ownInfo (joinedIds r.deeds).length heard)
    (refused : ∀ e ∈ heard, ∀ info, e.message = .ok (.peerInfo info) →
      info.networkId ≠ r.config.ownInfo.networkId →
        wrongNetwork info.networkId r.config.ownInfo.networkId ∈ said) : Candid k s := by
  constructor
  case warranted =>
    intro m hm
    rw [told] at hm
    rw [config, acted]
    rcases List.mem_append.1 hm with before | now
    · exact (h.warranted m before).mono joined fun e he => List.mem_append_left _ he
    · exact (warranted m now).mono joined fun e he => List.mem_append_right _ he
  case refused =>
    intro e he info introduced foreign
    rw [acted] at he
    rw [config] at foreign ⊢
    rw [told]
    rcases List.mem_append.1 he with before | now
    · exact List.mem_append_left _ (h.refused e before info introduced foreign)
    · exact List.mem_append_right _ (refused e now info introduced foreign)

theorem length_joinedIds_append (new deeds : List Deed) :
    (joinedIds deeds).length ≤ (joinedIds (new ++ deeds)).length := by
  rw [joinedIds, joinedIds, List.filterMap_append, List.length_append]
  omega

theorem Candid.exchange (h : Candid k r) {es : List Envelope} {ms : List Message}
    (exchange : Exchange k r s es ms)
    (warranted : ∀ m ∈ ms, m.Warranted r.config.ownInfo (joinedIds r.deeds).length es)
    (refused : ∀ e ∈ es, ∀ info, e.message = .ok (.peerInfo info) →
      info.networkId ≠ r.config.ownInfo.networkId →
        wrongNetwork info.networkId r.config.ownInfo.networkId ∈ ms) : Candid k s := by
  obtain ⟨new, hnew⟩ := exchange.deeds
  have joined : (joinedIds r.deeds).length ≤ (joinedIds s.deeds).length :=
    hnew ▸ length_joinedIds_append new r.deeds
  exact h.grow exchange.config joined exchange.heard exchange.said warranted refused

/-- A node stays candid that has heard nothing and says nothing. -/
theorem Candid.quiet (h : Candid k r) (exchange : Exchange k r s [] []) : Candid k s :=
  h.exchange exchange (List.forall_mem_nil _) (List.forall_mem_nil _)

theorem Candid.untouched (h : Candid k r) (untouched : Untouched k r s) : Candid k s := by
  obtain ⟨new, hnew, -⟩ := untouched.deeds
  have joined : (joinedIds r.deeds).length ≤ (joinedIds s.deeds).length :=
    hnew ▸ length_joinedIds_append new r.deeds
  have said : sentTo k s.deeds = sentTo k r.deeds ++ [] :=
    untouched.sentTo.trans (List.append_nil _).symm
  exact h.grow untouched.config joined untouched.toSpares.fed.dispatched said
    (List.forall_mem_nil _) (List.forall_mem_nil _)

/-- There are no more peers than connections that have come. -/
theorem Consistent.size_le_joined (h : r.Consistent) :
    r.table.size ≤ (joinedIds r.deeds).length := by
  have same : (r.table.ids).Perm ((joinedIds r.deeds).filter fun id => r.table.contains id) := by
    refine (List.perm_ext_iff_of_nodup r.table.nodup_ids
      (h.accounted.joined_nodup.filter _)).2 fun id => ?_
    rw [List.mem_filter, IdMap.mem_ids_iff, IdMap.contains, Option.isSome_iff_exists]
    constructor
    · rintro ⟨p, there⟩
      exact ⟨h.accounted.entered id p there, p, there⟩
    · exact And.right
  rw [← IdMap.length_ids, same.length_eq]
  exact List.length_filter_le ..

/-- An answer to an envelope is warranted, and refuses whom it has to. -/
theorem Candid.respond (h : Candid k r) (consistent : r.Consistent) {e : Envelope}
    {said : List Message} (response : Response r.config.ownInfo r.table.size e said)
    (exchange : Exchange k r s [e] said) : Candid k s := by
  refine h.exchange exchange (fun m hm => ?_) fun e' he info introduced foreign => ?_
  · exact (response.warranted m hm).mono consistent.size_le_joined fun _ he => he
  · rw [List.mem_singleton.1 he] at introduced
    cases response with
    | silence native => exact absurd (native info introduced) foreign
    | @refusal other introduced' _ =>
      cases introduced'.symm.trans introduced
      exact List.mem_singleton.2 rfl
    | introduction introduced' native =>
      cases introduced'.symm.trans introduced
      exact absurd native foreign
    | acquaintance introduced' native =>
      cases introduced'.symm.trans introduced
      exact absurd native foreign

/-- Whatever happens to a connection, the node stays candid on it. -/
theorem Candid.attends {means : Means} (h : Candid k r) (consistent : r.Consistent)
    (attends : Attends k r means s) : Candid k s := by
  have waited (sight : Sight) : Candid k (r.wait sight).2 := ⟨h.warranted, h.refused⟩
  cases attends with
  | untouched quiet => exact h.untouched quiet
  | comes sight socket remote direction dialed fresh began =>
    have deeds := deeds_insertPeer (r.wait sight).2 socket remote direction dialed means.now
    refine (waited sight).grow (config_insertPeer ..) ?_ ?_ ?_ (List.forall_mem_nil _)
      (List.forall_mem_nil _)
    · rw [deeds]
      exact length_joinedIds_append [_] _
    · rw [deeds, List.append_nil]
      rfl
    · rw [deeds, List.append_nil]
      rfl
  | @greeted sight p there due =>
    have same := consistent.keyed k p there
    subst same
    have held : (r.wait sight).2.Holds p := there
    refine (waited sight).exchange (greet_exchange held means.writes) (fun m hm => ?_)
      (List.forall_mem_nil _)
    rw [List.mem_singleton.1 hm]
    exact .introduction
  | @served sight p ready there due =>
    have same := consistent.keyed k p there
    subst same
    have held : (r.wait sight).2.Holds p := there
    rcases serve_exchange held ready means with quiet | ⟨e, said, response, exchange⟩
    · exact (waited sight).quiet quiet
    · exact (waited sight).respond (consistent.wait sight) response exchange
  | @dismissed t p before consistent' there =>
    have same := consistent'.keyed k p there
    subst same
    have told := exchange_send t p closedByOperator means.writes
    rw [dismiss_eq there]
    have dismissed : Candid p.id (t.perform p (.send closedByOperator means.writes)) := by
      refine (h.untouched before).exchange told (fun m hm => ?_) fun _ he => by cases he
      rw [List.mem_singleton.1 hm]
      exact .dismissal
    exact dismissed.quiet (exchange_close (p := p.perform _) (holds_perform _ _ _) p.id)
  | @expired t s p before consistent' there after =>
    have same := consistent'.keyed k p there
    subst same
    exact ((h.untouched before).quiet (exchange_close there p.id)).untouched after
  | @ended sight p there =>
    obtain ⟨new, deeds, kinds, -⟩ := deeds_teardown (r.wait sight).2
    have silent : ∀ d ∈ new, d.Silent k ∧ d.dispatched? k = none := by
      intro d hd
      rcases kinds d hd with ⟨audience, rfl⟩ | ⟨socket, rfl⟩ | ⟨id, q, -, rfl⟩ <;>
        exact ⟨True.intro, rfl⟩
    have acted : dispatchedTo k (r.wait sight).2.teardown.deeds =
        dispatchedTo k (r.wait sight).2.deeds ++ [] := by
      rw [deeds, dispatchedTo_append, dispatchedTo, dispatchedTo,
        List.filterMap_eq_nil_iff.2 fun d hd => (silent d hd).2]
      rfl
    have told : sentTo k (r.wait sight).2.teardown.deeds =
        sentTo k (r.wait sight).2.deeds ++ [] := by
      rw [deeds, sentTo_silent fun d hd => (silent d hd).1, List.append_nil]
    refine (waited sight).grow rfl ?_ acted told (List.forall_mem_nil _) (List.forall_mem_nil _)
    exact Nat.le_of_eq (congrArg List.length (joinedIds_teardown _)).symm

/-- **A node says nothing without reason, and never fails to refuse**, throughout runs. -/
theorem candid_run (config : ReactorConfig) (shared : Shared) (now : Nat)
    (stimuli : List Stimulus) (k : PeerId) : Candid k ((start config shared now).run stimuli) :=
  lasting_run (fun consistent h attends => h.attends consistent attends)
    (consistent_start config shared now)
    ⟨(fun _ hm => by cases hm), fun _ he => by cases he⟩ stimuli

/-- A peer is told that its network is the wrong one exactly if it has introduced itself as of
another. -/
theorem Candid.wrongNetwork_iff (h : Candid k r) :
    (∃ text, .disconnect .wrongNetwork text ∈ sentTo k r.deeds) ↔
      ∃ e ∈ dispatchedTo k r.deeds, ∃ info, e.message = .ok (.peerInfo info) ∧
        info.networkId ≠ r.config.ownInfo.networkId := by
  constructor
  · rintro ⟨text, told⟩
    generalize hm : Message.disconnect .wrongNetwork text = m at told
    cases h.warranted m told with
    | introduction => cases hm
    | acquaintance => cases hm
    | refusal acted introduced foreign => exact ⟨_, acted, _, introduced, foreign⟩
    | dismissal => cases hm
  · rintro ⟨e, acted, info, introduced, foreign⟩
    exact ⟨_, h.refused e acted info introduced foreign⟩

end Reactor

end GossipNode
