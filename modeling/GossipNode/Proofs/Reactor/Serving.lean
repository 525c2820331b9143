import GossipNode.Proofs.Multiplexer
import GossipNode.Proofs.Reactor.Moves

/-!
# What serving a peer comes to

A peer that is served has output first.  Then at most one envelope of its is acted upon: one that
has been read already if there is one, and otherwise one that is complete after one more read.

## Main definitions

* `WriteOutcome.isWilling` — the socket does not fail.
* `ReactorConfig.closes` — the envelopes that end a conversation.
* `dispatchedTo`, `bytesRead` — what is on record about the input of a peer.
* `Reactor.Fed`, `Reactor.Served` — what serving has done for a peer.

## Main results

* `Reactor.serve_spec` — serving a peer is offering it output and taking input from it.
* `Reactor.dispatch_spec` — an envelope ends the conversation or leaves the peer where it is.
* `Reactor.takeInput_decoded` — **an envelope that has been read comes first.**
* `Reactor.takeInput_complete`, `Reactor.takeInput_incomplete`, `Reactor.takeInput_ended` —
  otherwise the socket is read once.
-/

namespace GossipNode

/-! ### One call on a session -/

/-- Whether a socket takes bytes or asks to wait, and does not fail. -/
def WriteOutcome.isWilling : WriteOutcome → Bool
  | .accepted 0 | .failed _ => false
  | _ => true

/-- A socket that never fails. -/
def Willing (outcomes : List WriteOutcome) : Prop := ∀ w ∈ outcomes, w.isWilling = true

theorem willing_nil : Willing [] := fun _ nothing => absurd nothing List.not_mem_nil

theorem offer_willing {outcomes : List WriteOutcome} (accepted due : Bytes)
    (h : Willing outcomes) : (offer outcomes accepted due).result.isOk = true ∧
      Willing (offer outcomes accepted due).rest := by
  fun_induction offer outcomes accepted due with
  | case1 => exact ⟨rfl, h⟩
  | case2 => exact ⟨rfl, h⟩
  | case3 rest => cases h _ List.mem_cons_self
  | case4 n rest accepted due _ _ ih => exact ih fun w hw => h w (List.mem_cons_of_mem _ hw)
  | case5 rest => exact ⟨rfl, fun w hw => h w (List.mem_cons_of_mem _ hw)⟩
  | case6 why rest => cases h _ List.mem_cons_self

namespace Session

theorem flush_willing (s : Session) {outcomes : List WriteOutcome} (h : Willing outcomes) :
    (s.flush outcomes).result.isOk = true ∧ Willing (s.flush outcomes).rest :=
  offer_willing [] s.outbound h

theorem send_willing {s : Session} (talks : s.state ≠ .closed) (m : Message)
    {outcomes : List WriteOutcome} (h : Willing outcomes) :
    (s.send m outcomes).result.isOk = true ∧ Willing (s.send m outcomes).rest := by
  rw [send, if_neg talks]
  exact flush_willing _ h

theorem nextEnvelope_found {s : Session} {e : Envelope} {used : Nat}
    (found : decodeOne s.inbound = .ok (some (e, used))) :
    s.nextEnvelope = (.ok (some e), { s with inbound := s.inbound.drop used }) := by
  unfold nextEnvelope takeEnvelope
  rw [found]

theorem nextEnvelope_none {s : Session} (short : decodeOne s.inbound = .ok none) :
    s.nextEnvelope = (.ok none, s) := by
  unfold nextEnvelope takeEnvelope
  rw [short]

/-- Where there is room for what comes reading does not fail. -/
theorem fill_waiting {s : Session} (bytes : Bytes)
    (room : s.inbound.length + (bytes.take readChunk).length ≤ maxMessageSize) :
    (bytes = [] ∧ s.fill (.waiting bytes) = (.ok .wouldBlock, s)) ∨
      s.fill (.waiting bytes) = (.ok (.data (bytes.take readChunk).length),
        { s with inbound := s.inbound ++ bytes.take readChunk }) := by
  cases bytes with
  | nil => exact Or.inl ⟨rfl, rfl⟩
  | cons b bytes =>
    refine Or.inr ?_
    unfold fill
    simp only
    rw [List.length_append, if_neg (Nat.not_lt.2 room)]

end Session

/-! ### The record of input -/

/-- Whether an envelope ends the conversation: it says so, or is not what its kind asks for, or
introduces somebody who is not admitted. -/
def ReactorConfig.closes (config : ReactorConfig) (e : Envelope) : Bool :=
  match e.message with
  | .error error => error.isFatal
  | .ok (.peerInfo info) => !decide (config.admits info)
  | .ok (.discovery _) => false
  | .ok (.disconnect _ _) => true

/-- The envelope of a peer that something on record says was acted upon. -/
def Deed.dispatched? (id : PeerId) : Deed → Option Envelope
  | .dispatched k e => if k = id then some e else none
  | _ => none

/-- The number of bytes that something on record says were read from a peer, if it does. -/
def Deed.amount? (id : PeerId) : Deed → Option Nat
  | .read k (.ok (.data n)) => if k = id then some n else none
  | _ => none

/-- The envelopes of a peer that were acted upon, in order. -/
def dispatchedTo (id : PeerId) (deeds : List Deed) : List Envelope :=
  (deeds.filterMap (Deed.dispatched? id)).reverse

/-- How many bytes were read from a peer. -/
def bytesRead (id : PeerId) (deeds : List Deed) : Nat :=
  (deeds.filterMap (Deed.amount? id)).foldr (· + ·) 0

namespace Reactor

/-- Some envelopes of a peer have been acted upon, and some bytes of its read. -/
structure Fed (id : PeerId) (r s : Reactor) (es : List Envelope) (n : Nat) : Prop where
  dispatched : dispatchedTo id s.deeds = dispatchedTo id r.deeds ++ es
  read : bytesRead id s.deeds = bytesRead id r.deeds + n

variable {id : PeerId} {r s t : Reactor} {p : Peer}

theorem Fed.trans {es fs : List Envelope} {n m : Nat} (h : Fed id r s es n) (h' : Fed id s t fs m) :
    Fed id r t (es ++ fs) (n + m) where
  dispatched := by rw [h'.dispatched, h.dispatched, List.append_assoc]
  read := by rw [h'.read, h.read, Nat.add_assoc]

/-- Nothing is said about input. -/
theorem fed_quiet {new : List Deed} (deeds : s.deeds = new ++ r.deeds)
    (h : ∀ d ∈ new, d.dispatched? id = none ∧ d.amount? id = none) : Fed id r s [] 0 := by
  constructor
  · rw [deeds, dispatchedTo, List.filterMap_append,
      List.filterMap_eq_nil_iff.2 fun d hd => (h d hd).1, List.nil_append, List.append_nil,
      dispatchedTo]
  · rw [deeds, bytesRead, List.filterMap_append,
      List.filterMap_eq_nil_iff.2 fun d hd => (h d hd).2, List.nil_append, Nat.add_zero, bytesRead]

theorem fed_single {d : Deed} (deeds : s.deeds = d :: r.deeds)
    (quiet : d.dispatched? id = none ∧ d.amount? id = none) : Fed id r s [] 0 :=
  fed_quiet (show s.deeds = [d] ++ r.deeds from deeds) fun _ hd => List.mem_singleton.1 hd ▸ quiet

theorem fed_nothing (id : PeerId) (r : Reactor) : Fed id r r [] 0 :=
  ⟨(List.append_nil _).symm, rfl⟩

theorem fed_dispatched (r : Reactor) (id : PeerId) (e : Envelope) :
    Fed id r (r.note (.dispatched id e)) [e] 0 := by
  constructor
  · simp [dispatchedTo, note, Deed.dispatched?]
  · rfl

theorem fed_send (id : PeerId) (p : Peer) (m : Message) (outcomes : List WriteOutcome) :
    Fed id r (r.perform p (.send m outcomes)) [] 0 := by
  refine fed_quiet rfl fun d hd => ?_
  simp only [Peer.record, List.mem_cons, List.not_mem_nil, or_false] at hd
  rcases hd with rfl | rfl <;> exact ⟨rfl, rfl⟩

theorem fed_flush (id : PeerId) (p : Peer) (outcomes : List WriteOutcome) :
    Fed id r (r.perform p (.flush outcomes)) [] 0 := fed_single rfl ⟨rfl, rfl⟩

theorem fed_close (id : PeerId) (held : r.Holds p) : Fed id r (r.closePeer p.id) [] 0 := by
  refine fed_quiet (show _ = [_, _] ++ r.deeds from deeds_closePeer held) fun d hd => ?_
  simp only [List.mem_cons, List.not_mem_nil, or_false] at hd
  rcases hd with rfl | rfl <;> exact ⟨rfl, rfl⟩

/-! ### Acting upon an envelope -/

/-- A peer is still there with the same undecoded bytes, and is put back if it was. -/
def Stays (r s : Reactor) (p : Peer) : Prop :=
  ∃ q, s.table.get? p.id = some q ∧ q.session.inbound = p.session.inbound ∧ s.mux = r.mux

theorem stays_send (r : Reactor) (p : Peer) (m : Message) (outcomes : List WriteOutcome) :
    Stays r (r.perform p (.send m outcomes)) p :=
  ⟨p.perform (.send m outcomes), (get?_perform r p _ p.id).trans (if_pos rfl),
    p.session.inbound_send m outcomes, rfl⟩

theorem sendDiscovery_spec (held : r.Holds p) (writes : List WriteOutcome) :
    Stays r (r.sendDiscovery p writes) p ∧ Fed p.id r (r.sendDiscovery p writes) [] 0 := by
  unfold sendDiscovery
  split
  · exact ⟨⟨p, held, rfl, rfl⟩, fed_nothing p.id r⟩
  · exact ⟨stays_send r p _ writes, fed_send p.id p _ writes⟩

/-- Answering an introduction leaves the peer where it is. -/
theorem welcome_spec (h : r.Holds p) (talks : p.session.state ≠ .closed)
    {writes : List WriteOutcome} (willing : Willing writes) :
    Stays r (r.welcome p writes) p ∧ Fed p.id r (r.welcome p writes) [] 0 := by
  have told : Fed p.id r (r.notify (.peerWelcome p.id)) [] 0 := fed_single rfl ⟨rfl, rfl⟩
  have held : (r.notify (.peerWelcome p.id)).Holds p := h
  have same : (r.notify (.peerWelcome p.id)).mux = r.mux := rfl
  unfold welcome
  simp only
  generalize r.notify (.peerWelcome p.id) = t at told held same ⊢
  split
  · have usable : (t.send p (.peerInfo t.config.ownInfo) writes).usable = true :=
      (p.session.send_willing talks _ willing).1
    rw [if_pos usable]
    obtain ⟨⟨q, there, inbound, mux⟩, fed⟩ := sendDiscovery_spec
      (holds_perform t p (.send (.peerInfo t.config.ownInfo) writes))
      (t.send p (.peerInfo t.config.ownInfo) writes).rest
    exact ⟨⟨q, there, inbound.trans (p.session.inbound_send _ _), mux.trans same⟩,
      told.trans ((fed_send p.id p (.peerInfo t.config.ownInfo) writes).trans fed)⟩
  · exact ⟨⟨p, held, rfl, same⟩, told⟩

theorem nobody_closePeer (r : Reactor) (id : PeerId) : (r.closePeer id).table.get? id = none :=
  (get?_closePeer r id id).trans (if_pos rfl)

/-- Whoever is not admitted goes, and whoever is stays. -/
theorem onPeerInfo_spec (held : r.Holds p) (info : PeerInfo)
    {writes : List WriteOutcome} (willing : Willing writes) :
    Fed p.id r (r.onPeerInfo p info writes) [] 0 ∧
      (¬ r.config.admits info → (r.onPeerInfo p info writes).table.get? p.id = none) ∧
      (r.config.admits info → Stays r (r.onPeerInfo p info writes) p) := by
  by_cases admitted : r.config.admits info
  · by_cases new : p.session.state = .unverified
    · rw [onPeerInfo_new admitted new]
      have marked : (p.perform (.markReady info)).session.state ≠ .closed := by
        rw [Peer.perform, Session.perform, Session.markReady_unverified new]
        exact fun impossible => by cases impossible
      obtain ⟨⟨q, there, inbound, mux⟩, fed⟩ :=
        welcome_spec (holds_put r (p.perform (.markReady info))) marked willing
      exact ⟨⟨fed.dispatched, fed.read⟩, fun strange => absurd admitted strange,
        fun _ => ⟨q, there, inbound.trans (p.session.inbound_markReady info), mux⟩⟩
    · rw [onPeerInfo_known admitted new]
      exact ⟨fed_nothing p.id r, fun strange => absurd admitted strange,
        fun _ => ⟨p, held, rfl, rfl⟩⟩
  · rcases onPeerInfo_strange admitted p writes with ⟨m, refused⟩ | refused
    · rw [refused]
      have told := fed_close p.id (holds_perform r p (.send m writes))
      exact ⟨(fed_send p.id p m writes).trans told, fun _ => nobody_closePeer _ _,
        fun fine => absurd fine admitted⟩
    · rw [refused]
      exact ⟨fed_close p.id held, fun _ => nobody_closePeer _ _, fun fine => absurd fine admitted⟩

/-- An envelope that does not end the conversation leaves the peer where it is, and one that does
lets it go. -/
theorem dispatch_spec (held : r.Holds p) (e : Envelope)
    {writes : List WriteOutcome} (willing : Willing writes) :
    Fed p.id r (r.dispatch p e writes) [e] 0 ∧
      (r.config.closes e = true → (r.dispatch p e writes).table.get? p.id = none) ∧
      (r.config.closes e = false → Stays r (r.dispatch p e writes) p) := by
  have noted := fed_dispatched r p.id e
  have held' : (r.note (.dispatched p.id e)).Holds p := held
  have same : (r.note (.dispatched p.id e)).mux = r.mux := rfl
  have config : (r.note (.dispatched p.id e)).config = r.config := rfl
  unfold dispatch ReactorConfig.closes
  simp only
  rw [← config]
  -- From here on only what was just put on record matters of the reactor.
  generalize r.note (.dispatched p.id e) = t at noted held' same ⊢
  have stays : Stays r t p := ⟨p, held', rfl, same⟩
  have closed : Fed p.id r (t.closePeer p.id) [e] 0 := noted.trans (fed_close p.id held')
  have nobody := nobody_closePeer t p.id
  cases e.message with
  | error error =>
    simp only
    split
    · next fatal => exact ⟨closed, fun _ => nobody, fun soft => by cases fatal.symm.trans soft⟩
    · next soft => exact ⟨noted, fun fatal => absurd fatal soft, fun _ => stays⟩
  | ok m =>
    cases m with
    | peerInfo info =>
      simp only
      obtain ⟨fed, gone, left⟩ := onPeerInfo_spec held' info willing
      refine ⟨noted.trans fed, fun strange => gone ?_, fun fine => ?_⟩
      · rw [Bool.not_eq_true'] at strange
        exact of_decide_eq_false strange
      · rw [Bool.not_eq_false'] at fine
        obtain ⟨q, there, inbound, mux⟩ := left (of_decide_eq_true fine)
        exact ⟨q, there, inbound, mux.trans same⟩
    | discovery addresses =>
      simp only
      refine ⟨⟨noted.dispatched, noted.read⟩, fun impossible => ?_, fun _ => ⟨p, held', rfl, same⟩⟩
      cases impossible
    | disconnect why text =>
      simp only
      refine ⟨closed, fun _ => nobody, fun impossible => ?_⟩
      cases impossible

/-! ### Serving -/

/-- An envelope of a peer has been acted upon after so many bytes were read, and some are left to
decode: the peer has gone if the envelope ends the conversation, and otherwise it is still there and
is put back if anything is left. -/
structure Served (r s : Reactor) (id : PeerId) (e : Envelope) (left : Bytes) (n : Nat) : Prop where
  fed : Fed id r s [e] n
  closed : r.config.closes e = true → s.table.get? id = none
  stays : r.config.closes e = false → ∃ q, s.table.get? id = some q ∧ q.session.inbound = left ∧
    (left ≠ [] → id ∈ s.mux.pending)

theorem actUpon_spec (held : r.Holds p) (watched : r.mux.isRegistered p.id = true) (e : Envelope)
    {writes : List WriteOutcome} (willing : Willing writes) :
    Served r (r.actUpon p (.ok (some e)) writes) p.id e p.session.inbound 0 := by
  obtain ⟨fed, gone, left⟩ := dispatch_spec held e willing
  unfold actUpon
  simp only
  generalize r.dispatch p e writes = t at fed gone left ⊢
  refine ⟨?_, fun closes => ?_, fun fine => ?_⟩
  · unfold requeueBuffered
    split
    · split <;> exact ⟨fed.dispatched, fed.read⟩
    · exact fed
  · have nobody := gone closes
    unfold requeueBuffered
    rw [nobody]
    exact nobody
  · obtain ⟨q, there, inbound, mux⟩ := left fine
    unfold requeueBuffered
    rw [there]
    simp only
    -- The peer is put back exactly if bytes are left.
    by_cases something : p.session.inbound = []
    · have done : ¬ (t.mux.isRegistered p.id = true ∧ q.session.hasBufferedInput = true) := by
        rw [Session.hasBufferedInput, inbound, something]
        exact fun both => by cases both.2
      rw [if_neg done]
      exact ⟨q, there, inbound, fun some => absurd something some⟩
    · have more : t.mux.isRegistered p.id = true ∧ q.session.hasBufferedInput = true := by
        rw [Session.hasBufferedInput, inbound, mux]
        refine ⟨watched, ?_⟩
        rwa [Bool.not_eq_true', List.isEmpty_eq_false_iff]
      rw [if_pos more]
      exact ⟨q, there, inbound, fun _ => Multiplexer.mem_requeue.2 (Or.inr ⟨rfl, more.1⟩)⟩

/-! ### Taking input -/

theorem Served.after {e : Envelope} {left : Bytes} {n m : Nat} (earlier : Fed id r s [] n)
    (config : s.config = r.config) (served : Served s t id e left m) :
    Served r t id e left (n + m) where
  fed := earlier.trans served.fed
  closed closes := served.closed (config ▸ closes)
  stays fine := served.stays (config ▸ fine)

/-- Once an envelope has been decoded it is acted upon. -/
theorem actUpon_decoded (watched : r.mux.isRegistered p.id = true) {e : Envelope} {used : Nat}
    (found : decodeOne p.session.inbound = .ok (some (e, used)))
    {writes : List WriteOutcome} (willing : Willing writes) :
    Served r ((r.perform p .nextEnvelope).actUpon (p.perform .nextEnvelope)
      p.session.nextEnvelope.1 writes) p.id e (p.session.inbound.drop used) 0 := by
  have taken := Session.nextEnvelope_found found
  have left : (p.perform .nextEnvelope).session.inbound = p.session.inbound.drop used := by
    rw [Peer.perform, Session.perform, taken]
  have served := actUpon_spec (holds_perform r p .nextEnvelope) watched e willing
  rw [left] at served
  have fed : Fed p.id r (r.perform p .nextEnvelope) [] 0 := ⟨(List.append_nil _).symm, rfl⟩
  rw [taken]
  exact served.after fed rfl

/-- An envelope that has been read is acted upon, and nothing is read. -/
theorem takeInput_decoded (watched : r.mux.isRegistered p.id = true) {e : Envelope} {used : Nat}
    (found : decodeOne p.session.inbound = .ok (some (e, used)))
    (incoming : Incoming) {writes : List WriteOutcome} (willing : Willing writes) :
    Served r (r.takeInput p incoming writes) p.id e (p.session.inbound.drop used) 0 := by
  have served := actUpon_decoded watched found willing
  rw [Session.nextEnvelope_found found] at served
  rw [takeInput_eq, Session.nextEnvelope_found found]
  exact served

/-- Where no envelope has been read the socket is read. -/
theorem takeInput_short (r : Reactor) {p : Peer} (short : decodeOne p.session.inbound = .ok none)
    (incoming : Incoming) (writes : List WriteOutcome) :
    r.takeInput p incoming writes = r.readOnce p incoming writes := by
  rw [takeInput_eq, Session.nextEnvelope_none short]

/-- Reading a chunk enters it. -/
theorem readOnce_waiting (r : Reactor) {p : Peer} (bytes : Bytes)
    (room : p.session.inbound.length + readChunk ≤ maxMessageSize) :
    (p.perform (.fill (.waiting bytes))).session.inbound =
        p.session.inbound ++ bytes.take readChunk ∧
      Fed p.id r (r.perform p (.fill (.waiting bytes))) [] (bytes.take readChunk).length ∧
      ∀ writes, r.readOnce p (.waiting bytes) writes =
        ((r.perform p (.fill (.waiting bytes))).perform (p.perform (.fill (.waiting bytes)))
          .nextEnvelope).actUpon ((p.perform (.fill (.waiting bytes))).perform .nextEnvelope)
          (p.perform (.fill (.waiting bytes))).session.nextEnvelope.1 writes := by
  have chunk : (bytes.take readChunk).length ≤ readChunk := List.length_take_le _ _
  rcases Session.fill_waiting (s := p.session) bytes (by omega) with ⟨rfl, blocked⟩ | full
  · refine ⟨?_, ?_, fun writes => ?_⟩
    · rw [Peer.perform, Session.perform, blocked]
      exact (List.append_nil _).symm
    · exact fed_single rfl ⟨rfl, rfl⟩
    · rw [readOnce_eq, blocked]
  · refine ⟨?_, ⟨?_, ?_⟩, fun writes => ?_⟩
    · rw [Peer.perform, Session.perform, full]
    · rw [perform, Peer.record, full, List.append_nil]
      rfl
    · rw [perform, Peer.record, full]
      simp only [bytesRead, List.cons_append, List.nil_append, List.filterMap_cons, Deed.amount?,
        if_pos, List.foldr_cons, Nat.add_comm]
    · rw [readOnce_eq, full]

/-- A chunk that completes an envelope lets it be acted upon. -/
theorem takeInput_complete (watched : r.mux.isRegistered p.id = true)
    (short : decodeOne p.session.inbound = .ok none) {bytes : Bytes}
    (room : p.session.inbound.length + readChunk ≤ maxMessageSize) {e : Envelope} {used : Nat}
    (found : decodeOne (p.session.inbound ++ bytes.take readChunk) = .ok (some (e, used)))
    {writes : List WriteOutcome} (willing : Willing writes) :
    Served r (r.takeInput p (.waiting bytes) writes) p.id e
      ((p.session.inbound ++ bytes.take readChunk).drop used) (bytes.take readChunk).length := by
  obtain ⟨filled, fed, read⟩ := readOnce_waiting r bytes room
  rw [takeInput_short r short, read]
  rw [← filled] at found ⊢
  have served := actUpon_decoded (r := r.perform p (.fill (.waiting bytes)))
    (p := p.perform (.fill (.waiting bytes))) watched found willing
  exact served.after fed rfl

/-- A chunk that completes no envelope is kept. -/
theorem takeInput_incomplete (r : Reactor) {p : Peer}
    (short : decodeOne p.session.inbound = .ok none) {bytes : Bytes}
    (room : p.session.inbound.length + readChunk ≤ maxMessageSize)
    (still : decodeOne (p.session.inbound ++ bytes.take readChunk) = .ok none)
    (writes : List WriteOutcome) :
    ∃ q, (r.takeInput p (.waiting bytes) writes).table.get? p.id = some q ∧
      q.session.inbound = p.session.inbound ++ bytes.take readChunk ∧
      Fed p.id r (r.takeInput p (.waiting bytes) writes) [] (bytes.take readChunk).length := by
  obtain ⟨filled, fed, read⟩ := readOnce_waiting r bytes room
  rw [takeInput_short r short, read]
  rw [← filled] at still
  have taken := Session.nextEnvelope_none still
  rw [taken]
  refine ⟨_, holds_perform _ _ .nextEnvelope, ?_, fed.dispatched, fed.read⟩
  rw [Peer.perform, Session.perform, taken]
  exact filled

/-- A peer that sends no more goes. -/
theorem takeInput_ended (short : decodeOne p.session.inbound = .ok none)
    (writes : List WriteOutcome) :
    (r.takeInput p .ended writes).table.get? p.id = none ∧
      Fed p.id r (r.takeInput p .ended writes) [] 0 := by
  rw [takeInput_short r short, readOnce_eq]
  refine ⟨nobody_closePeer _ _, ?_⟩
  have read : Fed p.id r (r.perform p (.fill .ended)) [] 0 := fed_single rfl ⟨rfl, rfl⟩
  exact read.trans (fed_close (p := p.perform _) p.id (holds_perform r p (.fill .ended)))

/-! ### Turns of a peer -/

/-- Serving a peer is taking input from it once output has been offered. -/
theorem serve_spec (held : r.Holds p) (ready : Readiness) {means : Means}
    (willing : Willing means.writes) :
    ∃ s q writes, s.Holds q ∧ q.id = p.id ∧ q.session.inbound = p.session.inbound ∧
      s.mux = r.mux ∧ s.config = r.config ∧ Fed p.id r s [] 0 ∧ Willing writes ∧
      r.serve p.id ready means = if ready.readable ∨ ready.readClosed then
        s.takeInput q means.incoming writes else s := by
  have found : r.table.get? p.id = some p := held
  unfold serve
  rw [found]
  simp only
  by_cases writable : ready.writable = true
  · obtain ⟨usable, rest⟩ := p.session.flush_willing willing
    have flushed : (r.flush p means.writes).usable = true := usable
    rw [if_pos writable, if_pos flushed]
    exact ⟨_, _, _, holds_perform r p (.flush means.writes), rfl, rfl, rfl, rfl,
      fed_flush p.id p means.writes, rest, rfl⟩
  · rw [if_neg writable, if_pos rfl]
    exact ⟨r, p, means.writes, held, rfl, rfl, rfl, rfl, fed_nothing p.id r, willing, rfl⟩

/-- Nobody is served who is not there. -/
theorem serve_unknown {id : PeerId} (unknown : r.table.get? id = none) (ready : Readiness)
    (means : Means) : r.serve id ready means = { r with mux := r.mux.deregister id } := by
  unfold serve
  rw [unknown]

/-- Introducing the node to a peer is output. -/
theorem greet_spec (held : r.Holds p) (talks : p.session.state ≠ .closed)
    {writes : List WriteOutcome} (willing : Willing writes) :
    Stays r (r.greet p.id writes) p ∧ Fed p.id r (r.greet p.id writes) [] 0 := by
  have found : r.table.get? p.id = some p := held
  unfold greet
  rw [found]
  simp only
  have usable : (r.send p (.peerInfo r.config.ownInfo) writes).usable = true :=
    (p.session.send_willing talks _ willing).1
  rw [if_pos usable]
  exact ⟨stays_send r p _ writes, fed_send p.id p _ writes⟩

theorem greet_unknown {id : PeerId} (unknown : r.table.get? id = none)
    (writes : List WriteOutcome) : r.greet id writes = r := by
  unfold greet
  rw [unknown]

theorem dismiss_unknown {id : PeerId} (unknown : r.table.get? id = none)
    (writes : List WriteOutcome) : r.dismiss id writes = r := by
  unfold dismiss
  rw [unknown]

end Reactor

end GossipNode
