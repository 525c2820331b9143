import GossipNode.Proofs.Peer.Table
import GossipNode.Proofs.Reactor.Connections
import GossipNode.Proofs.Reactor.Introductions
import GossipNode.Proofs.Reactor.Transcript

/-!
# What a node says on a connection

Messages are handed over by four handlers, in answer to whatever the other side sends, and one of
them acts by way of the queue of commands.  On every connection it is nonetheless the same few
messages, in the same order, each when its time has come.

What makes it so is how far a conversation has come.  On a connection that the other side began
nothing has been said before it is welcome, and everything but the farewell once it is.  On one that
the node began its introduction is due in the queue, exactly once, and the queue comes before the
sockets; until then nothing is read.

## Main definitions

* `Reactor.Stage` — how far a conversation has come, and what has been said.
* `Reactor.Speaks`, `Reactor.Ungreeted`, `Reactor.Gone`, `Reactor.Conduct` — what is true of a
  connection between turns.
* `Reactor.Replied` — an introduction has been answered.
* `Reactor.Conversed` — what has been said on a connection, and when.

## Main results

* `Reactor.dispatch_heeds`, `Reactor.serve_heeds` — serving a peer keeps to this.
* `Reactor.Conduct.attends` — so does everything that may happen to a connection.
* `Reactor.output_protocol` — **what is said on a connection, throughout runs.**
-/

namespace GossipNode

namespace Reactor

/-! ### How far a conversation has come -/

/-- How far a conversation with a peer that is there has come, and what has been said. -/
inductive Stage (own : PeerInfo) (p : Peer) : List Message → Prop
  /-- The other side began the connection and has not introduced itself. -/
  | strange (inbound : p.direction = .inbound) (state : p.session.state = .unverified) :
    Stage own p []
  /-- The other side began the connection and is welcome. -/
  | answered (inbound : p.direction = .inbound) (state : p.session.state = .ready)
      (addresses : List String) : Stage own p [.peerInfo own, .discovery addresses]
  /-- The node began the connection and has introduced itself. -/
  | greeted (outbound : p.direction = .outbound) : Stage own p [.peerInfo own]

variable {own : PeerInfo} {k : PeerId} {r s t : Reactor} {p q : Peer} {ms : List Message}
  {direction : Direction} {means : Means}

theorem Stage.carry (h : Stage own p ms) (direction : q.direction = p.direction)
    (state : q.session.state = p.session.state) : Stage own q ms := by
  cases h with
  | strange inbound unverified => exact .strange (direction.trans inbound) (state.trans unverified)
  | answered inbound ready addresses =>
    exact .answered (direction.trans inbound) (state.trans ready) addresses
  | greeted outbound => exact .greeted (direction.trans outbound)

/-- What has been said may be said. -/
theorem Stage.script (h : Stage own p ms) : p.direction.Script own ms := by
  cases h with
  | strange inbound _ =>
    rw [inbound]
    exact Or.inl ⟨[], .unknown, "", List.nil_prefix⟩
  | answered inbound _ addresses =>
    rw [inbound]
    exact Or.inl ⟨addresses, .unknown, "", List.prefix_append _ _⟩
  | greeted outbound =>
    rw [outbound]
    exact Or.inl ⟨.unknown, "", List.prefix_append _ _⟩

/-- A farewell may be said at any time. -/
theorem Stage.farewell (h : Stage own p ms) (why : DisconnectReason) (text : String) :
    p.direction.Script own (ms ++ [.disconnect why text]) := by
  cases h with
  | strange inbound _ =>
    rw [inbound]
    exact Or.inr ⟨why, text, rfl⟩
  | answered inbound _ addresses =>
    rw [inbound]
    exact Or.inl ⟨addresses, why, text, List.prefix_rfl⟩
  | greeted outbound =>
    rw [outbound]
    exact Or.inl ⟨why, text, List.prefix_rfl⟩

/-- As long as the other side has not introduced itself, nothing has been said if it began the
connection, and otherwise who the node is. -/
theorem Stage.of_unverified (h : Stage own p ms) (new : p.session.state = .unverified) :
    (p.direction = .inbound ∧ ms = []) ∨ (p.direction = .outbound ∧ ms = [.peerInfo own]) := by
  cases h with
  | strange inbound _ => exact Or.inl ⟨inbound, rfl⟩
  | answered _ ready _ => exact absurd (new.symm.trans ready) (by decide)
  | greeted outbound => exact Or.inr ⟨outbound, rfl⟩

/-- A peer is there and the conversation with it goes on: no introduction of the node is due any
more. -/
structure Speaks (r : Reactor) (p : Peer) : Prop where
  held : r.Holds p
  proper : Proper r.config p.direction p.id r.deeds
  stage : Stage r.config.ownInfo p (sentTo p.id r.deeds)
  due : r.greetingsDue p.id = 0

/-- A peer is there on a connection that the node began, nothing has been said, and the introduction
of the node is due. -/
structure Ungreeted (r : Reactor) (p : Peer) : Prop where
  held : r.Holds p
  outbound : p.direction = .outbound
  proper : Proper r.config p.direction p.id r.deeds
  unsaid : sentTo p.id r.deeds = []
  due : r.greetingsDue p.id = 1
  waiting : p.id ∉ r.mux.pending

/-- A connection has been let go. -/
structure Gone (k : PeerId) (direction : Direction) (r : Reactor) : Prop where
  nobody : r.table.get? k = none
  retired : ∃ q, .retired q ∈ r.deeds ∧ q.id = k
  began : ∀ q, .retired q ∈ r.deeds → q.id = k → q.direction = direction
  orderly : Orderly r.config direction k r.deeds
  script : direction.Script r.config.ownInfo (sentTo k r.deeds)

/-- What is true of a connection between turns. -/
inductive Conduct (k : PeerId) (r : Reactor) : Prop
  /-- It has not been taken over yet. -/
  | fresh (nobody : r.table.get? k = none) (unheard : ∀ d ∈ r.deeds, d.about ≠ some k)
  | ungreeted {p : Peer} (number : p.id = k) (h : Ungreeted r p)
  | speaks {p : Peer} (number : p.id = k) (h : Speaks r p)
  | gone {direction : Direction} (h : Gone k direction r)

/-! ### Steps that say nothing -/

/-- A conversation goes on where nothing is said and the peer stays as far as it has come. -/
theorem Speaks.step (h : Speaks r p) (held : s.Holds q) (number : q.id = p.id)
    (direction : q.direction = p.direction) (state : q.session.state = p.session.state)
    (config : s.config = r.config) (due : s.greetingsDue p.id = r.greetingsDue p.id)
    (proper : Proper r.config p.direction p.id s.deeds)
    (said : sentTo p.id s.deeds = sentTo p.id r.deeds) : Speaks s q where
  held := held
  proper := by
    rw [config, direction, number]
    exact proper
  stage := by
    rw [config, number, said]
    exact h.stage.carry direction state
  due := by
    rw [number, due]
    exact h.due

theorem Speaks.mute (h : Speaks r p) {c : Session.Call} (mute : c.isMute = true) :
    Speaks (r.perform p c) (p.perform c) := by
  have held := holds_perform r p c
  cases c with
  | flush outcomes =>
    have mild : ∀ d ∈ p.record (.flush outcomes), d.Mild p.id := by
      simp [Peer.record, Deed.Mild]
    exact h.step held rfl rfl rfl rfl rfl (h.proper.mild mild)
      (sentTo_silent fun d hd => (mild d hd).silent)
  | nextEnvelope => exact h.step held rfl rfl rfl rfl rfl h.proper rfl
  | fill incoming =>
    have greeted : p.direction = .outbound →
        .sent p.id (.peerInfo r.config.ownInfo) ∈ r.deeds := by
      intro outbound
      rw [← mem_sentTo]
      -- No introduction is due any more, so it has been made.
      cases hsaid : sentTo p.id r.deeds with
      | nil =>
        have stage := h.stage
        rw [hsaid] at stage
        cases stage with
        | strange inbound _ => exact absurd (inbound.symm.trans outbound) (by decide)
      | cons m ms =>
        have stage := h.stage
        rw [hsaid] at stage
        cases stage <;> exact List.mem_cons_self
    exact h.step held rfl rfl (p.session.state_fill incoming) rfl rfl
      (h.proper.read greeted _) rfl
  | send m outcomes => cases mute
  | markReady info => cases mute
  | markClosed => cases mute

theorem sentTo_mute {c : Session.Call} (mute : c.isMute = true) (k : PeerId) :
    sentTo k (r.perform p c).deeds = sentTo k r.deeds := by
  cases c with
  | flush outcomes => rfl
  | fill incoming => rfl
  | nextEnvelope => rfl
  | send m outcomes => cases mute
  | markReady info => cases mute
  | markClosed => cases mute

theorem Untouched.sentTo (h : Untouched k r s) : sentTo k s.deeds = sentTo k r.deeds := by
  obtain ⟨new, deeds, about⟩ := h.deeds
  rw [deeds]
  exact sentTo_silent fun d hd => (mild_of_about (about d hd)).silent

theorem Untouched.proper (h : Untouched k r s) (proper : Proper r.config direction k r.deeds) :
    Proper s.config direction k s.deeds := by
  obtain ⟨new, deeds, about⟩ := h.deeds
  rw [h.config, deeds]
  exact proper.mild fun d hd => mild_of_about (about d hd)

theorem Speaks.untouched (h : Speaks r p) (untouched : Untouched p.id r s) : Speaks s p := by
  have proper := untouched.proper h.proper
  rw [untouched.config] at proper
  exact h.step (untouched.entry.trans h.held) rfl rfl rfl untouched.config
    (untouched.due p h.held) proper untouched.sentTo

theorem Gone.untouched (h : Gone k direction r) (untouched : Untouched k r s) :
    Gone k direction s := by
  obtain ⟨new, deeds, about⟩ := untouched.deeds
  constructor
  case nobody => exact untouched.entry.trans h.nobody
  case retired =>
    obtain ⟨q, hq, number⟩ := h.retired
    exact ⟨q, by rw [deeds]; exact List.mem_append_right new hq, number⟩
  case began =>
    intro q hq number
    rw [deeds] at hq
    rcases List.mem_append.1 hq with hq | hq
    · exact absurd (congrArg some number) (about _ hq)
    · exact h.began q hq number
  case orderly =>
    rw [untouched.config, deeds]
    exact h.orderly.silent fun d hd => (mild_of_about (about d hd)).silent
  case script =>
    rw [untouched.config, untouched.sentTo]
    exact h.script

theorem Conduct.untouched (h : Conduct k r) (untouched : Untouched k r s) : Conduct k s := by
  cases h with
  | fresh nobody unheard =>
    obtain ⟨new, deeds, about⟩ := untouched.deeds
    refine .fresh (untouched.entry.trans nobody) fun d hd => ?_
    rw [deeds] at hd
    exact (List.mem_append.1 hd).elim (about d) (unheard d)
  | @ungreeted p number h =>
    subst number
    exact .ungreeted rfl
      { held := untouched.entry.trans h.held
        outbound := h.outbound
        proper := untouched.proper h.proper
        unsaid := untouched.sentTo.trans h.unsaid
        due := (untouched.due p h.held).trans h.due
        waiting := fun later => h.waiting (untouched.pending.1 later) }
  | @speaks p number h =>
    subst number
    exact .speaks rfl (h.untouched untouched)
  | gone h => exact .gone (h.untouched untouched)

/-! ### A connection is let go -/

theorem gone_close (held : r.Holds p) (orderly : Orderly r.config p.direction p.id r.deeds)
    (unretired : ∀ q, .retired q ∈ r.deeds → q.id ≠ p.id)
    (script : p.direction.Script r.config.ownInfo (sentTo p.id r.deeds)) :
    Gone p.id p.direction (r.closePeer p.id) := by
  have deeds := deeds_closePeer held
  have silent : ∀ d ∈ [Deed.notified (.peerClose p.id) r.shared.listeners.audience,
      .retired (p.perform .markClosed)], d.Silent p.id := by simp [Deed.Silent]
  constructor
  case nobody => exact nobody_closePeer r p.id
  case retired => exact ⟨_, (retired_closePeer held).2 (Or.inl rfl), rfl⟩
  case began =>
    intro q hq number
    rcases (retired_closePeer held).1 hq with rfl | hq
    · rfl
    · exact absurd number (unretired q hq)
  case orderly =>
    rw [config_closePeer, deeds]
    exact orderly.silent silent
  case script =>
    rw [config_closePeer, deeds]
    exact (sentTo_silent silent).symm ▸ script

theorem Speaks.close (h : Speaks r p) : Gone p.id p.direction (r.closePeer p.id) :=
  gone_close h.held h.proper.orderly h.proper.unretired h.stage.script

theorem sentTo_closePeer (held : r.Holds p) :
    sentTo k (r.closePeer p.id).deeds = sentTo k r.deeds := by
  rw [deeds_closePeer held]
  have silent : ∀ d ∈ [.notified (.peerClose p.id) r.shared.listeners.audience,
      .retired (p.perform .markClosed)], Deed.Silent k d := by
    simp [Deed.Silent]
  exact sentTo_silent silent

/-! ### Something is said -/

theorem sentTo_send (r : Reactor) (p : Peer) (m : Message) (writes : List WriteOutcome) :
    sentTo p.id (r.perform p (.send m writes)).deeds = sentTo p.id r.deeds ++ [m] :=
  sentTo_sent p.id m r.deeds

/-- A message is handed over that may be. -/
theorem proper_send {config : ReactorConfig} (h : Proper config direction p.id r.deeds)
    {m : Message} (writes : List WriteOutcome)
    (welcome : direction = .inbound → m.isFarewell = false → ∃ e info,
      .dispatched p.id e ∈ r.deeds ∧ e.message = .ok (.peerInfo info) ∧ config.admits info) :
    Proper config direction p.id (r.perform p (.send m writes)).deeds := by
  have mild : ∀ d ∈ [.wrote p.id (p.session.send m writes).2], Deed.Mild p.id d := by
    simp [Deed.Mild]
  exact (h.sent welcome).mild mild

theorem proper_note_dispatched {config : ReactorConfig} (h : Proper config direction p.id r.deeds)
    {e : Envelope} (foreign : ¬ config.isOwn e) :
    Proper config direction p.id (r.note (.dispatched p.id e)).deeds := h.dispatched foreign

/-- A peer is told something that may be said last, and let go. -/
theorem gone_send_close (proper : Proper r.config p.direction p.id r.deeds)
    {m : Message} (writes : List WriteOutcome)
    (welcome : p.direction = .inbound → m.isFarewell = false → ∃ e info,
      .dispatched p.id e ∈ r.deeds ∧ e.message = .ok (.peerInfo info) ∧ r.config.admits info)
    (script : p.direction.Script r.config.ownInfo (sentTo p.id r.deeds ++ [m])) :
    Gone p.id p.direction ((r.perform p (.send m writes)).closePeer p.id) := by
  have said := proper_send proper writes welcome
  rw [← sentTo_send r p m writes] at script
  exact gone_close (p := p.perform (.send m writes)) (holds_perform r p _) said.orderly
    said.unretired script

/-- The answer to an introduction: the other side is told who the node is and whom it knows, or the
socket has failed in between and the peer has been let go. -/
inductive Replied (own : PeerInfo) (k : PeerId) (means : Means) (s : Reactor) : Prop
  | told {q : Peer} {a : String} (there : s.table.get? k = some q) (ready : q.isReady = true)
      (address : q.listenAddress = some a) (listed : a ∈ s.table.readyAddresses)
      (said : sentTo k s.deeds = [.peerInfo own, .discovery s.table.readyAddresses])
  | broken {t : Reactor} {p : Peer} {writes : List WriteOutcome} (number : p.id = k)
      (offered : writes <:+ means.writes)
      (failed : (t.send p (.peerInfo own) writes).usable = false)
      (closed : s = (t.send p (.peerInfo own) writes).reactor.closePeer k)
      (said : sentTo k s.deeds = [.peerInfo own])

/-- A conversation goes on, or is over. -/
def Spoken (k : PeerId) (direction : Direction) (s : Reactor) : Prop :=
  (∃ q, q.id = k ∧ q.direction = direction ∧ Speaks s q) ∨ Gone k direction s

/-- A peer has been served as it should: the conversation goes on or is over, and if the node has
introduced itself it had done so before or has just answered an introduction. -/
def Heeds (own : PeerInfo) (k : PeerId) (direction : Direction) (before : List Message)
    (means : Means) (s : Reactor) : Prop :=
  Spoken k direction s ∧ (.peerInfo own ∈ sentTo k s.deeds →
    .peerInfo own ∈ before ∨ Replied own k means s)

theorem heeds_speaks {before : List Message} (h : Speaks s q) (number : q.id = k)
    (began : q.direction = direction) (said : sentTo k s.deeds = before) :
    Heeds own k direction before means s :=
  ⟨Or.inl ⟨q, number, began, h⟩, fun told => Or.inl (said ▸ told)⟩

theorem heeds_gone {before : List Message} (h : Gone k direction s)
    (said : ∀ m ∈ sentTo k s.deeds, m ∈ before ∨ m.isFarewell = true) :
    Heeds own k direction before means s := by
  refine ⟨Or.inr h, fun told => ?_⟩
  rcases said _ told with earlier | impossible
  · exact Or.inl earlier
  · cases impossible

/-- Nothing is said when a peer is put back. -/
theorem Heeds.requeueBuffered {before : List Message} (h : Heeds own k direction before means s) :
    Heeds own k direction before means (s.requeueBuffered k) := by
  rcases requeueBuffered_cases s k with same | same
  · exact same.symm ▸ h
  · obtain ⟨spoken, replied⟩ := h
    rw [same]
    constructor
    · rcases spoken with ⟨q, number, began, speaks⟩ | gone
      · exact Or.inl ⟨q, number, began, speaks.step speaks.held rfl rfl rfl rfl rfl speaks.proper
          rfl⟩
      · exact Or.inr ⟨gone.nobody, gone.retired, gone.began, gone.orderly, gone.script⟩
    · intro told
      refine (replied told).imp_right fun reply => ?_
      cases reply with
      | told there ready address listed said => exact .told there ready address listed said
      | @broken t p writes number offered failed closed said =>
        -- Nobody is there who could be put back.
        have nobody : s.table.get? k = none := closed ▸ nobody_closePeer _ k
        have kept : s.requeueBuffered k = s := by
          unfold Reactor.requeueBuffered
          rw [nobody]
        exact .broken number offered failed (same.symm.trans (kept.trans closed)) said

theorem not_isOwn {config : ReactorConfig} {e : Envelope} {info : PeerInfo}
    (introduced : e.message = .ok (.peerInfo info)) (admitted : config.admits info) :
    ¬ config.isOwn e := by
  rintro ⟨info', introduced', -, own'⟩
  rw [introduced] at introduced'
  cases introduced'
  exact admitted.2 own'

section Reply

variable {info : PeerInfo}

/-- A peer that has been told who the node is is told whom it knows.  That is at least the peer
itself. -/
theorem discovery_heeds (held : t.Holds q) (inbound : q.direction = .inbound)
    (ready : q.session.state = .ready) (identity : q.session.identity = some info)
    (proper : Proper t.config q.direction q.id t.deeds)
    (welcome : ∃ e info, .dispatched q.id e ∈ t.deeds ∧ e.message = .ok (.peerInfo info) ∧
      t.config.admits info)
    (told : sentTo q.id t.deeds = [.peerInfo t.config.ownInfo]) (due : t.greetingsDue q.id = 0)
    {before : List Message} (writes : List WriteOutcome) :
    Heeds t.config.ownInfo q.id q.direction before means (t.sendDiscovery q writes) := by
  have isReady : q.isReady = true := decide_eq_true ready
  obtain ⟨a, address⟩ : ∃ a, q.listenAddress = some a := by
    rw [Peer.listenAddress, identity]
    exact ⟨_, rfl⟩
  have listed : a ∈ t.table.readyAddresses := PeerTable.mem_readyAddresses held isReady address
  rw [sendDiscovery_eq (List.ne_nil_of_mem listed)]
  have said := sentTo_send t q (.discovery t.table.readyAddresses) writes
  rw [told] at said
  have held' := holds_perform t q (.send (.discovery t.table.readyAddresses) writes)
  have isReady' : (q.perform (.send (.discovery t.table.readyAddresses) writes)).isReady = true :=
    decide_eq_true ((Session.state_send ..).trans ready)
  have address' : (q.perform (.send (.discovery t.table.readyAddresses) writes)).listenAddress =
      q.listenAddress := by
    unfold Peer.listenAddress
    rw [show (q.perform (.send (.discovery t.table.readyAddresses) writes)).session.identity = _
      from Session.identity_send ..]
    rfl
  -- Handing over a message changes nobody's address.
  have same :
      (t.perform q (.send (.discovery t.table.readyAddresses) writes)).table.readyAddresses =
        t.table.readyAddresses :=
    PeerTable.readyAddresses_insert held (isReady'.trans isReady.symm) address'
  refine ⟨Or.inl ⟨q.perform (.send (.discovery t.table.readyAddresses) writes), rfl, rfl, held', ?_,
    ?_, due⟩, fun _ => Or.inr ?_⟩
  · exact proper_send proper writes fun _ _ => welcome
  · have began : (q.perform (.send (.discovery t.table.readyAddresses) writes)).direction =
        .inbound := inbound
    exact said ▸ .answered began ((Session.state_send ..).trans ready) _
  · refine .told held' isReady' (address'.trans address) (same.symm ▸ listed) ?_
    rw [same]
    exact said

/-- A peer that is welcome is told who the node is, and then whom it knows. -/
theorem told_heeds (inbound : q.direction = .inbound) (ready : q.session.state = .ready)
    (identity : q.session.identity = some info)
    (proper : Proper t.config q.direction q.id t.deeds)
    (welcome : ∃ e info, .dispatched q.id e ∈ t.deeds ∧ e.message = .ok (.peerInfo info) ∧
      t.config.admits info)
    (unsaid : sentTo q.id t.deeds = []) (due : t.greetingsDue q.id = 0) {before : List Message}
    (writes rest : List WriteOutcome) :
    Heeds t.config.ownInfo q.id q.direction before means
      ((t.perform q (.send (.peerInfo t.config.ownInfo) writes)).sendDiscovery
        (q.perform (.send (.peerInfo t.config.ownInfo) writes)) rest) := by
  have told := sentTo_send t q (.peerInfo t.config.ownInfo) writes
  rw [unsaid] at told
  obtain ⟨e, info', dispatched, introduced, admitted⟩ := welcome
  exact discovery_heeds (q := q.perform (.send (.peerInfo t.config.ownInfo) writes))
    (holds_perform t q _) inbound ((Session.state_send ..).trans ready)
    ((Session.identity_send ..).trans identity)
    (proper_send proper writes fun _ _ => ⟨e, info', dispatched, introduced, admitted⟩)
    ⟨e, info', List.mem_append_right _ dispatched, introduced, admitted⟩ told due rest

/-- The socket of a peer that is welcome fails before the peer has been told whom the node knows. -/
theorem broken_heeds (inbound : q.direction = .inbound)
    (proper : Proper t.config q.direction q.id t.deeds)
    (welcome : ∃ e info, .dispatched q.id e ∈ t.deeds ∧ e.message = .ok (.peerInfo info) ∧
      t.config.admits info)
    (unsaid : sentTo q.id t.deeds = []) {before : List Message} {writes : List WriteOutcome}
    (offered : writes <:+ means.writes)
    (failed : (t.send q (.peerInfo t.config.ownInfo) writes).usable = false) :
    Heeds t.config.ownInfo q.id q.direction before means
      ((t.send q (.peerInfo t.config.ownInfo) writes).reactor.closePeer q.id) := by
  have said : sentTo q.id ((t.perform q (.send (.peerInfo t.config.ownInfo) writes)).closePeer
      q.id).deeds = [.peerInfo t.config.ownInfo] := by
    have held := holds_perform t q (.send (.peerInfo t.config.ownInfo) writes)
    refine (sentTo_closePeer held).trans ?_
    rw [sentTo_send, unsaid]
    rfl
  refine ⟨Or.inr ?_, fun _ => Or.inr (.broken rfl offered failed rfl said)⟩
  refine gone_send_close proper writes (fun _ _ => welcome) ?_
  rw [inbound, unsaid]
  exact Or.inl ⟨[], .unknown, "", List.prefix_append _ _⟩

/-- A peer that is welcome is told who the node is and whom it knows if it began the connection
itself, and nothing otherwise. -/
theorem welcome_heeds (h : Speaks r p) {e : Envelope}
    (introduced : e.message = .ok (.peerInfo info)) (admitted : r.config.admits info)
    (new : p.session.state = .unverified) {writes : List WriteOutcome}
    (offered : writes <:+ means.writes) :
    Heeds r.config.ownInfo p.id p.direction (sentTo p.id r.deeds) means
      (((r.note (.dispatched p.id e)).put (p.perform (.markReady info))).welcome
        (p.perform (.markReady info)) writes) := by
  have marked : (p.perform (.markReady info)).session =
      { p.session with state := .ready, identity := some info } := by
    rw [Peer.perform, Session.perform, Session.markReady_unverified new]
  have ready : (p.perform (.markReady info)).session.state = .ready := by rw [marked]
  have identity : (p.perform (.markReady info)).session.identity = some info := by rw [marked]
  have ways := welcome_cases ((r.note (.dispatched p.id e)).put (p.perform (.markReady info)))
    (p.perform (.markReady info)) writes
  -- Of the reactor that has told its listeners it matters whom it holds and what is on record.
  have held : (((r.note (.dispatched p.id e)).put (p.perform (.markReady info))).notify
      (.peerWelcome p.id)).Holds (p.perform (.markReady info)) :=
    holds_put (r.note (.dispatched p.id e)) (p.perform (.markReady info))
  have quiet : ∀ d ∈ [Deed.notified (.peerWelcome p.id) r.shared.listeners.audience],
    d.Mild p.id := by simp [Deed.Mild]
  have proper : Proper r.config p.direction p.id
      (((r.note (.dispatched p.id e)).put (p.perform (.markReady info))).notify
        (.peerWelcome p.id)).deeds :=
    (h.proper.dispatched (not_isOwn introduced admitted)).mild quiet
  have welcome : ∃ e' info', .dispatched p.id e' ∈
      (((r.note (.dispatched p.id e)).put (p.perform (.markReady info))).notify
        (.peerWelcome p.id)).deeds ∧ e'.message = .ok (.peerInfo info') ∧
        r.config.admits info' :=
    ⟨e, info, List.mem_cons_of_mem _ List.mem_cons_self, introduced, admitted⟩
  rcases h.stage.of_unverified new with ⟨inbound, unsaid⟩ | ⟨outbound, told⟩
  · rcases ways with ⟨other, same⟩ | ⟨-, failed, same⟩ | ⟨-, rest, same⟩
    · exact absurd inbound other
    · rw [same]
      exact broken_heeds (q := p.perform (.markReady info)) inbound proper welcome unsaid offered
        failed
    · rw [same]
      exact told_heeds (q := p.perform (.markReady info)) inbound ready identity proper welcome
        unsaid h.due writes rest
  · rcases ways with ⟨-, same⟩ | ⟨inbound, -⟩ | ⟨inbound, -⟩
    · rw [same]
      refine heeds_speaks (q := p.perform (.markReady info)) ⟨held, proper, ?_, h.due⟩ rfl rfl rfl
      exact told ▸ .greeted outbound
    · exact absurd (outbound.symm.trans inbound) (by decide)
    · exact absurd (outbound.symm.trans inbound) (by decide)

end Reply

/-! ### Serving -/

/-- **An envelope of a peer is heeded as it should be**: it is answered if it introduces the peer,
and otherwise nothing is said but perhaps a farewell. -/
theorem dispatch_heeds (h : Speaks r p) (e : Envelope) {writes : List WriteOutcome}
    (offered : writes <:+ means.writes) :
    Heeds r.config.ownInfo p.id p.direction (sentTo p.id r.deeds) means
      (r.dispatch p e writes) := by
  have held : (r.note (.dispatched p.id e)).Holds p := h.held
  have orderly : Orderly r.config p.direction p.id (r.note (.dispatched p.id e)).deeds :=
    ⟨True.intro, h.proper.orderly⟩
  have unretired : ∀ q, .retired q ∈ (r.note (.dispatched p.id e)).deeds → q.id ≠ p.id := by
    intro q hq
    exact h.proper.unretired q ((retired_note rfl).1 hq)
  have said : sentTo p.id (r.note (.dispatched p.id e)).deeds = sentTo p.id r.deeds := rfl
  rcases dispatch_cases r p e writes with
    ⟨foreign, idle⟩ | closed | ⟨foreign, why, text, refused⟩ |
      ⟨info, introduced, admitted, new, welcomed⟩
  · have quiet := idle.untouched p.id
    have proper := quiet.proper (h.proper.dispatched foreign)
    rw [quiet.config] at proper
    have later : Speaks (r.dispatch p e writes) p := h.step (quiet.entry.trans held) rfl rfl rfl
      quiet.config (quiet.due p held) proper quiet.sentTo
    exact heeds_speaks later rfl rfl quiet.sentTo
  · rw [closed]
    refine heeds_gone (gone_close held orderly unretired h.stage.script) fun m told => Or.inl ?_
    rwa [sentTo_closePeer held] at told
  · rw [refused]
    have proper := proper_note_dispatched h.proper foreign
    refine heeds_gone (gone_send_close proper writes (fun _ talkative => by cases talkative)
      (h.stage.farewell why text)) fun m told => ?_
    have held' := holds_perform (r.note (.dispatched p.id e)) p
      (.send (.disconnect why text) writes)
    have told' := (sentTo_closePeer held').subst told
    rw [sentTo_send, said] at told'
    rcases List.mem_append.1 told' with earlier | last
    · exact Or.inl earlier
    · exact Or.inr (List.mem_singleton.1 last ▸ rfl)
  · rw [welcomed]
    exact welcome_heeds h introduced admitted new offered

/-- A peer is being served, and until now nothing has been said. -/
structure Listens (r : Reactor) (p : Peer) (t : Reactor) (q : Peer) : Prop where
  speaks : Speaks t q
  number : q.id = p.id
  began : q.direction = p.direction
  config : t.config = r.config
  said : sentTo p.id t.deeds = sentTo p.id r.deeds

/-- **A peer that is served is heeded as it should be.** -/
theorem serve_heeds (h : Speaks r p) (ready : Readiness) (means : Means) :
    Heeds r.config.ownInfo p.id p.direction (sentTo p.id r.deeds) means
      (r.serve p.id ready means) := by
  refine @serve_rule r p (Listens r p) _ means ?mute ?left ?closed ?acted h.held
    ⟨h, rfl, rfl, rfl, rfl⟩ ready
  case mute =>
    intro t q c listens mute
    exact ⟨listens.speaks.mute mute, listens.number, listens.began, listens.config,
      (sentTo_mute mute p.id).trans listens.said⟩
  case left =>
    intro t q listens
    exact heeds_speaks listens.speaks listens.number listens.began listens.said
  case closed =>
    intro t q listens
    have gone := listens.speaks.close
    rw [listens.number, listens.began] at gone
    rw [listens.number]
    refine heeds_gone gone fun m told => Or.inl ?_
    rw [← listens.number, sentTo_closePeer listens.speaks.held, listens.number,
      listens.said] at told
    exact told
  case acted =>
    intro t q e writes listens offered
    have heeds := (dispatch_heeds listens.speaks e offered).requeueBuffered
    rw [listens.config, listens.number, listens.began, listens.said] at heeds
    rw [listens.number]
    exact heeds

/-! ### Coming, greeting and going -/

/-- Nobody has the next number yet. -/
theorem Consistent.unassigned (h : r.Consistent) : r.table.get? r.nextId = none := by
  cases hp : r.table.get? r.nextId with
  | none => rfl
  | some p => exact absurd (h.numbered hp) (Nat.lt_irrefl _)

section Insert

variable (socket : SocketId) (remote : SocketAddress) (dialed : Option String) (now : Nat)

/-- On a connection that is taken over nothing has been said, and an introduction is due if the node
began it. -/
theorem conduct_insert (h : r.Consistent) (unheard : ∀ d ∈ r.deeds, d.about ≠ some r.nextId)
    (began : direction ≠ .unknown) :
    Conduct r.nextId (r.insertPeer socket remote direction dialed now) := by
  have held : (r.insertPeer socket remote direction dialed now).Holds
      (r.newPeer socket remote direction dialed now) :=
    (get?_insertPeer r ..).trans (if_pos rfl)
  have none_due : r.greetingsDue r.nextId = 0 :=
    List.count_eq_zero.2 fun due => Nat.lt_irrefl _ (h.queued r.nextId due)
  have due := greetingsDue_insertPeer (r := r) socket remote direction dialed now r.nextId
  rw [none_due] at due
  have mild : ∀ d ∈ .joined (r.newPeer socket remote direction dialed now) :: r.deeds,
      d.Mild r.nextId := by
    intro d hd
    rcases List.mem_cons.1 hd with rfl | hd
    · exact True.intro
    · exact mild_of_about (unheard d hd)
  have nothing : Proper r.config direction r.nextId [] := {
    orderly := True.intro
    foreign := fun e he => absurd he List.not_mem_nil
    unretired := fun q hq => absurd hq List.not_mem_nil }
  have proper : Proper (r.insertPeer socket remote direction dialed now).config direction r.nextId
      (r.insertPeer socket remote direction dialed now).deeds := by
    rw [config_insertPeer, deeds_insertPeer, ← List.append_nil (_ :: r.deeds)]
    exact nothing.mild mild
  have unsaid : sentTo r.nextId (r.insertPeer socket remote direction dialed now).deeds = [] := by
    rw [deeds_insertPeer, ← List.append_nil (_ :: r.deeds)]
    exact sentTo_silent fun d hd => (mild d hd).silent
  cases direction with
  | unknown => exact absurd rfl began
  | inbound => exact .speaks rfl ⟨held, proper, unsaid.symm ▸ .strange rfl rfl, due⟩
  | outbound =>
    rw [if_pos ⟨rfl, rfl⟩] at due
    refine .ungreeted rfl ⟨held, rfl, proper, unsaid, due, ?_⟩
    rw [mux_insertPeer]
    exact h.not_pending h.unassigned

end Insert

/-- Once its introduction is no longer due a node has introduced itself, unless the socket has
failed over it. -/
theorem greet_spoken (h : Ungreeted r p) (due : s.greetingsDue p.id = 0) (table : s.table = r.table)
    (deeds : s.deeds = r.deeds) (config : s.config = r.config) (writes : List WriteOutcome) :
    Spoken p.id .outbound (s.greet p.id writes) := by
  have held : s.Holds p := by
    rw [Holds, table]
    exact h.held
  have proper : Proper s.config p.direction p.id s.deeds := by
    rw [config, deeds]
    exact h.proper
  have not_inbound (inbound : p.direction = .inbound) : False := by
    rw [h.outbound] at inbound
    cases inbound
  have said := sentTo_send s p (.peerInfo s.config.ownInfo) writes
  rw [deeds, h.unsaid] at said
  rcases greet_cases held writes with told | closed
  · rw [told]
    refine Or.inl ⟨p.perform (.send (.peerInfo s.config.ownInfo) writes), rfl, h.outbound,
      holds_perform s p _, ?_, ?_, due⟩
    · exact proper_send proper writes fun inbound => (not_inbound inbound).elim
    · have began : (p.perform (.send (.peerInfo s.config.ownInfo) writes)).direction = .outbound :=
        h.outbound
      exact said ▸ .greeted began
  · rw [closed, ← h.outbound]
    refine Or.inr (gone_send_close proper writes (fun inbound => (not_inbound inbound).elim) ?_)
    rw [deeds, h.unsaid, h.outbound]
    exact Or.inl ⟨.unknown, "", List.prefix_append _ _⟩

/-- A peer is dismissed with a farewell. -/
theorem dismiss_gone (proper : Proper r.config p.direction p.id r.deeds)
    (script : ∀ why text, p.direction.Script r.config.ownInfo
      (sentTo p.id r.deeds ++ [.disconnect why text])) (held : r.Holds p)
    (writes : List WriteOutcome) : Gone p.id p.direction (r.dismiss p.id writes) := by
  rw [dismiss_eq held]
  exact gone_send_close proper writes (fun _ talkative => by cases talkative) (script _ _)

/-- The end of a run says nothing. -/
theorem teardown_gone (held : r.Holds p) (proper : Proper r.config p.direction p.id r.deeds)
    (script : p.direction.Script r.config.ownInfo (sentTo p.id r.deeds)) (keyed : r.Keyed) :
    Gone p.id p.direction r.teardown := by
  obtain ⟨new, deeds, kinds, all⟩ := deeds_teardown r
  have silent : ∀ d ∈ new, d.Silent p.id := by
    intro d hd
    rcases kinds d hd with ⟨audience, rfl⟩ | ⟨socket, rfl⟩ | ⟨id, q, -, rfl⟩ <;> exact True.intro
  constructor
  case nobody => rfl
  case retired =>
    exact ⟨p.perform .markClosed, retired_teardown.2 (Or.inl ⟨p.id, p, held, rfl⟩), rfl⟩
  case began =>
    intro q hq number
    rcases retired_teardown.1 hq with ⟨id, p', found, rfl⟩ | hq
    · have same : id = p.id := (keyed id p' found).symm.trans number
      subst same
      have same : p' = p := Option.some.inj (found.symm.trans held)
      subst same
      rfl
    · exact absurd number (proper.unretired q hq)
  case orderly =>
    rw [deeds]
    exact proper.orderly.silent silent
  case script =>
    rw [deeds]
    exact (sentTo_silent silent).symm ▸ script

/-! ### Runs -/

/-- Of a peer that is there it is known how far the conversation has come. -/
theorem Conduct.present (h : Conduct k r) (there : r.table.get? k = some p) :
    p.id = k ∧ (Ungreeted r p ∨ Speaks r p) := by
  cases h with
  | fresh nobody unheard =>
    rw [nobody] at there
    cases there
  | @ungreeted q number h =>
    subst number
    have same : q = p := Option.some.inj (h.held.symm.trans there)
    exact same ▸ ⟨rfl, Or.inl h⟩
  | @speaks q number h =>
    subst number
    have same : q = p := Option.some.inj (h.held.symm.trans there)
    exact same ▸ ⟨rfl, Or.inr h⟩
  | gone h =>
    rw [h.nobody] at there
    cases there

/-- Nothing is on record about the next connection. -/
theorem Conduct.unheard (h : Conduct r.nextId r) (consistent : r.Consistent) :
    ∀ d ∈ r.deeds, d.about ≠ some r.nextId := by
  cases h with
  | fresh nobody unheard => exact unheard
  | @ungreeted p number h =>
    have held : r.table.get? p.id = some p := h.held
    rw [number, consistent.unassigned] at held
    cases held
  | @speaks p number h =>
    have held : r.table.get? p.id = some p := h.held
    rw [number, consistent.unassigned] at held
    cases held
  | gone h =>
    obtain ⟨q, retired, number⟩ := h.retired
    have came := (consistent.accounted.gone q retired).1
    exact absurd (number ▸ consistent.accounted.joined_lt q.id came) (Nat.lt_irrefl _)

/-- What is known of a peer that is there, whether the node has introduced itself or not. -/
theorem proper_and_script (h : Ungreeted r p ∨ Speaks r p) :
    Proper r.config p.direction p.id r.deeds ∧
      p.direction.Script r.config.ownInfo (sentTo p.id r.deeds) ∧
      ∀ why text, p.direction.Script r.config.ownInfo
        (sentTo p.id r.deeds ++ [.disconnect why text]) := by
  rcases h with h | h
  · rw [h.unsaid, h.outbound]
    exact ⟨h.outbound ▸ h.proper, Or.inl ⟨.unknown, "", List.nil_prefix⟩,
      fun why text => Or.inr ⟨why, text, rfl⟩⟩
  · exact ⟨h.proper, h.stage.script, h.stage.farewell⟩

theorem Spoken.conduct (h : Spoken k direction s) : Conduct k s := by
  rcases h with ⟨q, number, -, speaks⟩ | gone
  · exact .speaks number speaks
  · exact .gone gone

/-- On a connection on which the introduction of the node is due it is made, and the node began
it. -/
theorem Conduct.greeted (h : Conduct k r) {sight : Sight} (there : r.table.get? k = some p)
    (due : (r.wait sight).1 = some (.control (some (.sendHandshake k))))
    (writes : List WriteOutcome) : Spoken k .outbound ((r.wait sight).2.greet k writes) := by
  have left := greetingsDue_wait due
  obtain ⟨rfl, ungreeted | speaks⟩ := h.present there
  · have none_left : (r.wait sight).2.greetingsDue p.id = 0 := by
      have one := ungreeted.due
      omega
    exact greet_spoken ungreeted none_left rfl rfl rfl writes
  · have none := speaks.due
    omega

/-- Nobody is served before the node has introduced itself, if that is due. -/
theorem Conduct.served (h : Conduct k r) {sight : Sight} {ready : Readiness}
    (there : r.table.get? k = some p) (due : (r.wait sight).1 = some (.peer k ready)) :
    p.id = k ∧ Speaks (r.wait sight).2 p := by
  obtain ⟨served, queue⟩ := wait_peer due
  obtain ⟨rfl, ungreeted | speaks⟩ := h.present there
  · -- The queue comes before the sockets, and the peer has not been put back.
    have one := ungreeted.due
    rcases served with putBack | none_waits
    · exact absurd putBack ungreeted.waiting
    · rw [greetingsDue, none_waits] at one
      cases one
  · have same : (r.wait sight).2.greetingsDue p.id = r.greetingsDue p.id := by
      rw [greetingsDue, greetingsDue, queue]
    exact ⟨rfl, speaks.step speaks.held rfl rfl rfl rfl same speaks.proper rfl⟩

/-- **Everything that may happen to a connection keeps to what may be said on it.** -/
theorem Conduct.attends (h : Conduct k r) (consistent : r.Consistent)
    (attends : Attends k r means s) : Conduct k s := by
  cases attends with
  | untouched quiet => exact h.untouched quiet
  | comes sight socket remote direction dialed fresh began =>
    subst fresh
    exact conduct_insert (r := (r.wait sight).2) socket remote dialed means.now
      (consistent.wait sight) (h.unheard consistent) began
  | greeted sight there due => exact (h.greeted there due means.writes).conduct
  | @served sight p ready there due =>
    obtain ⟨rfl, speaks⟩ := h.served there due
    exact (serve_heeds speaks ready means).1.conduct
  | @dismissed t p before consistent' there =>
    obtain ⟨rfl, known⟩ := (h.untouched before).present there
    obtain ⟨proper, -, farewell⟩ := proper_and_script known
    exact .gone (dismiss_gone proper farewell there means.writes)
  | @expired t s p before consistent' there after =>
    obtain ⟨rfl, known⟩ := (h.untouched before).present there
    obtain ⟨proper, script, -⟩ := proper_and_script known
    exact .gone ((gone_close there proper.orderly proper.unretired script).untouched after)
  | @ended sight p there =>
    obtain ⟨rfl, known⟩ := h.present there
    obtain ⟨proper, script, -⟩ := proper_and_script known
    exact .gone (teardown_gone (r := (r.wait sight).2) there proper script consistent.keyed)

/-- What has been said on a connection, and when.  The record has the last thing first. -/
structure Conversed (config : ReactorConfig) (id : PeerId) (direction : Direction)
    (deeds : List Deed) : Prop where
  /-- What has been said is the beginning of what may be said. -/
  script : direction.Script config.ownInfo (sentTo id deeds)
  /-- On a connection that the other side began it has introduced itself and is welcome before
  anything but a farewell is said. -/
  introduced : direction = .inbound → ∀ later m earlier, deeds = later ++ .sent id m :: earlier →
    m.isFarewell = false → ∃ e info, .dispatched id e ∈ earlier ∧
      e.message = .ok (.peerInfo info) ∧ config.admits info
  /-- Nothing is said after an introduction of the node itself. -/
  unanswered : ∀ later e earlier, deeds = later ++ .dispatched id e :: earlier → config.isOwn e →
    ∀ m, .sent id m ∉ later
  /-- On a connection that the node began it has introduced itself before anything is read. -/
  greeted : direction = .outbound → ∀ later outcome earlier,
    deeds = later ++ .read id outcome :: earlier →
      .sent id (.peerInfo config.ownInfo) ∈ earlier

theorem conversed_of_orderly {config : ReactorConfig} {deeds : List Deed}
    (orderly : Orderly config direction k deeds)
    (script : direction.Script config.ownInfo (sentTo k deeds)) :
    Conversed config k direction deeds where
  script := script
  introduced inbound later m earlier split := by
    rw [split] at orderly
    exact (orderly.split rfl).2 inbound
  unanswered later e earlier split own m said := by
    obtain ⟨late, early, rfl⟩ := List.append_of_mem said
    rw [split, List.append_assoc, List.cons_append] at orderly
    exact (orderly.split rfl).1 e (List.mem_append_right early List.mem_cons_self) own
  greeted outbound later outcome earlier split := by
    rw [split] at orderly
    exact orderly.split rfl outbound

/-- Of every connection that has been taken over it is known what has been said. -/
theorem Conduct.conversed (h : Conduct k r) (consistent : r.Consistent) (known : r.Known k q) :
    Conversed r.config k q.direction r.deeds := by
  rcases known with there | ⟨retired, number⟩
  · obtain ⟨rfl, known⟩ := h.present there
    obtain ⟨proper, script, -⟩ := proper_and_script known
    exact conversed_of_orderly proper.orderly script
  · have nobody := (consistent.accounted.gone q retired).2.2
    rw [number] at nobody
    cases h with
    | fresh _ unheard => exact absurd (congrArg some number) (unheard _ retired)
    | @ungreeted p same h =>
      subst same
      exact absurd number (h.proper.unretired q retired)
    | @speaks p same h =>
      subst same
      exact absurd number (h.proper.unretired q retired)
    | gone h =>
      rw [h.began q retired number]
      exact conversed_of_orderly h.orderly h.script

theorem Spoken.began (h : Spoken k direction s) (known : s.Known k q) :
    q.direction = direction := by
  rcases h with ⟨p, number, began, speaks⟩ | gone
  · subst number
    rcases known with there | ⟨retired, number⟩
    · have same : p = q := Option.some.inj (speaks.held.symm.trans there)
      exact same ▸ began
    · exact absurd number (speaks.proper.unretired q retired)
  · rcases known with there | ⟨retired, number⟩
    · rw [gone.nobody] at there
      cases there
    · exact gone.began q retired number

/-- Where the node introduces itself to a peer that began the connection, it answers an
introduction. -/
theorem Conduct.replied (h : Conduct k r) (attends : Attends k r means s)
    (known : s.Known k q) (inbound : q.direction = .inbound)
    (unsaid : .sent k (.peerInfo r.config.ownInfo) ∉ r.deeds)
    (said : .sent k (.peerInfo r.config.ownInfo) ∈ s.deeds) :
    Replied r.config.ownInfo k means s := by
  rw [← mem_sentTo] at unsaid said
  cases attends with
  | untouched quiet => exact absurd (quiet.sentTo ▸ said) unsaid
  | comes sight socket remote direction dialed fresh began =>
    rw [deeds_insertPeer] at said
    exact absurd said unsaid
  | greeted sight there due =>
    have outbound := (h.greeted there due means.writes).began known
    rw [inbound] at outbound
    cases outbound
  | @served sight p ready there due =>
    obtain ⟨rfl, speaks⟩ := h.served there due
    exact ((serve_heeds speaks ready means).2 said).resolve_left unsaid
  | @dismissed t p before consistent' there =>
    have same := consistent'.keyed k p there
    subst same
    have held := holds_perform t p (.send closedByOperator means.writes)
    rw [dismiss_eq there] at said
    have told := (sentTo_closePeer held).subst said
    rw [sentTo_send, before.sentTo] at told
    rcases List.mem_append.1 told with earlier | last
    · exact absurd earlier unsaid
    · cases List.mem_singleton.1 last
  | @expired t s p before consistent' there after =>
    have same := consistent'.keyed k p there
    subst same
    rw [after.sentTo, sentTo_closePeer there, before.sentTo] at said
    exact absurd said unsaid
  | @ended sight p there =>
    obtain ⟨new, deeds, kinds, -⟩ := deeds_teardown (r.wait sight).2
    have silent : ∀ d ∈ new, d.Silent k := by
      intro d hd
      rcases kinds d hd with ⟨audience, rfl⟩ | ⟨socket, rfl⟩ | ⟨id, q, -, rfl⟩ <;> exact True.intro
    rw [deeds, sentTo_silent silent] at said
    exact absurd said unsaid

/-- The addresses a node passes on are those of the peers that are ready. -/
theorem Introduced.listsReady (h : r.Introduced) : r.table.ListsReady r.table.readyAddresses := by
  refine PeerTable.readyAddresses_spec h.consistent.keyed fun id p hp ready => ?_
  have state := h.state id p hp
  rw [h.identity id p (Or.inl hp)]
  rw [of_decide_eq_true ready] at state
  split at state
  · next accepted => exact accepted
  · cases state

/-- **What is said on a connection, throughout runs.**

On a connection that the other side began a node introduces itself, passes on addresses and takes
leave, in this order, as far as it comes, or it does nothing but take leave; and it waits for the
other side to introduce itself.  On a connection that it began it introduces itself before it reads
anything, and takes leave.  If the other side turns out to be the node itself, nothing more is said.

When a node introduces itself to a peer that began the connection it passes on, in the same turn,
the addresses of all peers that are ready, in the order of their numbers, that peer's among them;
unless the socket fails, which is the end of the connection. -/
theorem output_protocol (config : ReactorConfig) (shared : Shared) (now : Nat)
    (stimuli : List Stimulus) :
    let r := (start config shared now).run stimuli
    (∀ id q, r.Known id q → Conversed config id q.direction r.deeds) ∧
      ∀ sight means id q,
        let s := r.turn sight means
        s.Known id q → q.direction = .inbound →
          .sent id (.peerInfo config.ownInfo) ∉ r.deeds →
          .sent id (.peerInfo config.ownInfo) ∈ s.deeds →
            Replied config.ownInfo id means s ∧ s.table.ListsReady s.table.readyAddresses := by
  intro r
  have consistent : r.Consistent := kept_consistent.run (consistent_start config shared now) stimuli
  have same : r.config = config := config_run config shared now stimuli
  have conduct (id : PeerId) : Conduct id r :=
    lasting_run (fun consistent h attends => h.attends consistent attends)
      (consistent_start config shared now) (.fresh rfl fun d hd => absurd hd List.not_mem_nil)
      stimuli
  constructor
  · intro id q known
    have conversed := (conduct id).conversed consistent known
    rwa [same] at conversed
  · intro sight means id q s known inbound unsaid said
    have introduced : s.Introduced := by
      have reached := introduced_run config shared now (stimuli ++ [.turn sight means])
      rwa [run_append] at reached
    rw [← same] at unsaid said ⊢
    exact ⟨(conduct id).replied (attends_turn consistent sight means id) known inbound
      unsaid said, introduced.listsReady⟩

/-- A connection comes and introduces itself: it is told who the node is and, in the same turn, whom
the node knows. -/
theorem output_protocol_welcome :
    let stranger : PeerInfo := { (default : PeerInfo) with uid := 7 }
    let idle : Means := ⟨0, .waiting [], [], []⟩
    let r := (start default .empty 0).run [.turn ⟨0, 0, .connection ⟨3⟩ .elsewhere, []⟩ idle]
    let s := r.turn ⟨0, 0, .none, [(⟨1⟩, .ok .read)]⟩ { idle with
      incoming := .waiting (Message.peerInfo stranger).encode, writes := [.accepted 999] }
    sentTo ⟨1⟩ s.deeds = [.peerInfo default, .discovery s.table.readyAddresses] := by
  intro stranger idle r s
  have there : (s.table.get? ⟨1⟩).map (·.direction) = some .inbound := by decide +kernel
  obtain ⟨q, hq, inbound⟩ := Option.map_eq_some_iff.1 there
  have unsaid : .peerInfo default ∉ sentTo ⟨1⟩ r.deeds := by decide +kernel
  have said : .peerInfo default ∈ sentTo ⟨1⟩ s.deeds := by decide +kernel
  rw [mem_sentTo] at unsaid said
  have replied :=
    ((output_protocol default .empty 0 _).2 _ _ ⟨1⟩ q (Or.inl hq) inbound unsaid said).1
  cases replied with
  | told there ready address listed said => exact said
  | broken number offered failed closed _ =>
    rw [show s = _ from closed, nobody_closePeer] at hq
    cases hq

end Reactor

end GossipNode
