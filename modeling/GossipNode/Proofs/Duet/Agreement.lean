import GossipNode.Proofs.Duet.Basic

/-!
# What two nodes come to

When nothing is left to do for two nodes one of which has dialed the other, they either have each
other as peers or have let the connection go, both of them.  Which of the two it is depends on who
they are, and not on the order of their turns or on how the bytes between them are split.

The caller has said who it is by then, for that was due in its queue, and the callee has heard it,
for its buffer would hold an envelope otherwise.  So the verdict of the callee is out.  If it is
favourable the callee has answered; the caller has heard that as well, and its verdict is the same.

## Main definitions

* `Reactor.Still`, `Duet.Quiet` — nothing is left to do.
* `Reactor.Acquainted`, `Reactor.Parted` — what the connection has come to.
* `Reactor.Unwelcoming` — nobody is welcome or has been.

## Main results

* `Reactor.Awaits.settled` — a node to which nothing is on its way has heard everything.
* `Duet.Concord.acquainted`, `Duet.Concord.parted` — what it comes to if the callee stays, and if it
  does not.
* `Duet.handshake_agreement` — **both sides come to the same, and to the right thing.**
-/

namespace GossipNode

/-! ### The news of a connection -/

/-- Whether an event tells of a connection. -/
def Event.isNews : Event → Bool
  | .peerWelcome _ | .peerClose _ => true
  | _ => false

/-- What the listeners were told of connections, in order. -/
def news (deeds : List Deed) : List Event := (events deeds).filter Event.isNews

/-- What is told once is all the news there is if nothing else is news. -/
theorem news_eq_singleton {deeds : List Deed} {event : Event} (told : event ∈ events deeds)
    (isNews : event.isNews = true) (once : (events deeds).count event ≤ 1)
    (only : ∀ other ∈ events deeds, other.isNews = true → other = event) :
    news deeds = [event] := by
  have same : ∀ other ∈ news deeds, other = event := fun other h =>
    only other (List.mem_filter.1 h).1 (List.mem_filter.1 h).2
  have all := List.eq_replicate_of_mem same
  have here : event ∈ news deeds := List.mem_filter.2 ⟨told, isNews⟩
  have some_news := List.length_pos_of_mem here
  have few : (news deeds).count event ≤ 1 := by
    rw [news, List.count_filter isNews]
    exact once
  rw [List.count_eq_length.2 fun other h => (same other h).symm] at few
  rw [all, show (news deeds).length = 1 by omega]
  rfl

namespace Reactor

/-! ### Nothing is left to do -/

/-- Nothing is left to do for a node: no command waits, nobody has been put back, nothing is due to
a socket, and unless the node has let the connection go nothing is on its way to it, nor the end. -/
structure Still (far near : Reactor) : Prop where
  obeyed : near.queue.commands = []
  settled : near.mux.pending = []
  written : ∀ id p, near.table.get? id = some p → p.session.outbound = []
  read : near.hasLeft = false → inFlight far near = [] ∧ far.hasLeft = false

/-- The connection has come to this: the node has a single peer, which is ready, and has told so and
nothing else. -/
structure Acquainted (direction : Direction) (info : PeerInfo) (r : Reactor) : Prop where
  alone : ∃ p, r.table.entries = [(.first, p)] ∧ p.session.state = .ready ∧
    p.direction = direction ∧ p.session.identity = some info
  told : news r.deeds = [.peerWelcome .first]

/-- The connection has come to this: the node has no peer, and has told that it closed it and
nothing else. -/
structure Parted (r : Reactor) : Prop where
  nobody : r.table.entries = []
  told : news r.deeds = [.peerClose .first]

/-- Nobody is ready, and nobody has ever been welcomed. -/
structure Unwelcoming (r : Reactor) : Prop where
  ready : ∀ id p, r.table.get? id = some p → p.session.state ≠ .ready
  told : ∀ id, .peerWelcome id ∉ events r.deeds

variable {far near : Reactor} {p : Peer} {rest : List Envelope}

/-- **A node to which nothing is on its way has heard everything**, if the other node has got rid of
all that it said. -/
theorem Awaits.settled (h : Awaits far near p rest)
    (written : wroteTo .first far.deeds = renderAll far.sayings)
    (read : inFlight far near = []) (settled : near.mux.pending = []) :
    dispatchedTo .first near.deeds = far.sayings := by
  have stream := h.stream
  rw [← written] at stream
  -- What is buffered is all that is left, and it is less than the next envelope.
  rw [show (wroteTo .first far.deeds).drop (bytesRead .first near.deeds) = [] from read,
    List.append_nil] at stream
  have short : Short p.session.inbound rest := h.due.resolve_right (by simp [settled])
  rw [stream] at short
  rw [h.split, short.eq_nil, List.append_nil]

namespace Party

variable {config : ReactorConfig} {direction : Direction} {came : Bool} {r : Reactor} {m : Message}
  {info : PeerInfo}

/-- Whoever was welcomed came by the first connection and introduced itself as somebody who is
admitted. -/
theorem welcomed (h : Party config direction came r) {id : PeerId}
    (told : .peerWelcome id ∈ events r.deeds) :
    id = .first ∧ ∃ e ∈ dispatchedTo .first r.deeds, ∃ info,
      e.message = .ok (.peerInfo info) ∧ config.admits info := by
  obtain ⟨info, accepted⟩ := Option.isSome_iff_exists.1 ((h.introduced.mem_peerWelcome id).1 told)
  obtain ⟨first, admitted⟩ := accepted_eq_some.1 accepted
  obtain rfl := h.sole id (h.introduced.came id info first)
  rw [firstIntroduction_eq] at first
  obtain ⟨e, heard, introduces⟩ := List.exists_of_findSome?_eq_some first
  exact ⟨rfl, e, heard, info, Envelope.introduces?_eq_some.1 introduces, h.config_eq ▸ admitted⟩

/-- A node that has heard of nobody whom it admits has never welcomed anybody. -/
theorem unwelcoming (h : Party config direction came r)
    (strange : ∀ e ∈ dispatchedTo .first r.deeds, ∀ info,
      e.message = .ok (.peerInfo info) → ¬ config.admits info) : Unwelcoming r := by
  have untold : ∀ id, .peerWelcome id ∉ events r.deeds := by
    intro id told
    obtain ⟨-, e, heard, info, introduced, admitted⟩ := h.welcomed told
    exact strange e heard info introduced admitted
  refine ⟨fun id p there ready => ?_, untold⟩
  exact untold id ((h.chronicle.ready h.running id).1 ⟨p, there, ready⟩).1

/-- What was told of connections is about the first one. -/
theorem news_first (h : Party config direction came r) {event : Event}
    (told : event ∈ events r.deeds) (isNews : event.isNews = true) :
    event = .peerWelcome .first ∨ event = .peerClose .first := by
  cases event with
  | peerWelcome id => exact Or.inl (congrArg Event.peerWelcome (h.welcomed told).1)
  | peerClose id =>
    obtain ⟨shared, now, stimuli, same⟩ := h.reached
    have ledger : r.Ledger := same ▸ kept_ledger.run (ledger_start config shared now) stimuli
    obtain ⟨q, gone, rfl⟩ := ledger.closed_gone id (mem_closedIds.2 told)
    have came := (h.consistent.accounted.gone q gone).1
    exact Or.inr (congrArg Event.peerClose (h.sole q.id came))
  | _ => cases isNews

/-- Whoever is there and has introduced itself was accepted, for whoever is refused is not there any
more. -/
theorem accepted (h : Party config direction came r) (there : r.table.get? .first = some p)
    {e : Envelope} (heard : e ∈ dispatchedTo .first r.deeds)
    (introduced : e.message = .ok (.peerInfo info))
    (only : ∀ e ∈ dispatchedTo .first r.deeds, ∀ other,
      e.message = .ok (.peerInfo other) → other = info) : r.accepted .first = some info := by
  have first : firstIntroduction .first r.deeds = some info := by
    rw [firstIntroduction_eq]
    cases found : (dispatchedTo .first r.deeds).findSome? Envelope.introduces? with
    | none =>
      have nobody := List.findSome?_eq_none_iff.1 found e heard
      rw [Envelope.introduces?_eq_some.2 introduced] at nobody
      cases nobody
    | some other =>
      obtain ⟨e', heard', introduces⟩ := List.exists_of_findSome?_eq_some found
      rw [only e' heard' other (Envelope.introduces?_eq_some.1 introduces)]
  refine accepted_eq_some.2 ⟨first, ?_⟩
  -- Somebody who is not admitted would have been let go over it.
  apply Decidable.byContradiction
  intro strange
  have nobody := h.introduced.refused .first info first strange
  rw [there] at nobody
  cases nobody

/-- **A node whose peer is there and was accepted has got acquainted.** -/
theorem acquainted (h : Party config direction came r) (there : r.table.get? .first = some p)
    (accepted : r.accepted .first = some info) :
    p.session.state = .ready ∧ Acquainted direction info r := by
  have ready : p.session.state = .ready := by
    rw [h.introduced.state .first p there, accepted]
    rfl
  have identity : p.session.identity = some info :=
    (h.introduced.identity .first p (Or.inl there)).trans accepted
  obtain ⟨welcomed, still⟩ := (h.chronicle.ready h.running .first).1 ⟨p, there, ready⟩
  refine ⟨ready, ⟨p, ?_, ready, h.began p (Or.inl there), identity⟩, ?_⟩
  · exact IdMap.entries_eq_singleton there fun _ _ => h.toSole.eq_first
  · refine news_eq_singleton welcomed rfl (h.chronicle.welcomed_once .first)
      fun event told isNews => ?_
    exact (h.news_first told isNews).resolve_right fun closed => still (closed ▸ told)

/-- **A node that has let the connection go and welcomed nobody has parted.** -/
theorem parted (h : Party config direction came r) (left : r.hasLeft = true)
    (unwelcoming : Unwelcoming r) : Parted r := by
  obtain ⟨joined, nobody⟩ := h.absent left
  constructor
  · refine IdMap.entries_eq_nil fun id => ?_
    cases there : r.table.get? id with
    | none => rfl
    | some p =>
      obtain rfl := h.toSole.eq_first there
      cases nobody.symm.trans there
  · have closed : .peerClose .first ∈ events r.deeds := by
      apply Decidable.byContradiction
      intro still
      obtain ⟨p, there⟩ := (h.chronicle.there h.running .first).2 ⟨joined, still⟩
      cases nobody.symm.trans there
    refine news_eq_singleton closed rfl (h.chronicle.closed_once .first) fun event told isNews => ?_
    exact (h.news_first told isNews).resolve_left fun welcomed =>
      unwelcoming.told .first (welcomed ▸ told)

/-- A node whose socket has taken everything has written all that it said. -/
theorem wrote_all (h : Party config direction came r) (there : r.table.get? .first = some p)
    (written : p.session.outbound = []) : wroteTo .first r.deeds = renderAll r.sayings := by
  have balance := h.balanced.balance .first p (Or.inl there)
  rw [written, List.append_nil, encodeAll_eq] at balance
  exact balance

/-- Where no command waits the conversation with a peer that is there has begun. -/
theorem stage (h : Party config direction came r) (there : r.table.get? .first = some p)
    (obeyed : r.queue.commands = []) : Stage config.ownInfo p (sentTo .first r.deeds) := by
  obtain ⟨same, ungreeted | speaks⟩ := h.conduct.present there
  · have due := ungreeted.due
    rw [greetingsDue, obeyed] at due
    cases due
  · have stage := speaks.stage
    rwa [same, h.config_eq] at stage

/-- Where no command waits a node that began the connection has said who it is. -/
theorem greeted (h : Party config .outbound came r) (there : r.table.get? .first = some p)
    (obeyed : r.queue.commands = []) : sentTo .first r.deeds = [.peerInfo config.ownInfo] := by
  have stage := h.stage there obeyed
  have outbound := h.began p (Or.inl there)
  generalize sentTo .first r.deeds = ms at stage
  cases stage with
  | strange inbound state => cases inbound.symm.trans outbound
  | answered inbound state addresses => cases inbound.symm.trans outbound
  | greeted _ => rfl

/-- Where no command waits a node has said who it is to a peer that began the connection and is
ready. -/
theorem answered (h : Party config .inbound came r) (there : r.table.get? .first = some p)
    (obeyed : r.queue.commands = []) (ready : p.session.state = .ready) :
    .peerInfo config.ownInfo ∈ sentTo .first r.deeds := by
  have stage := h.stage there obeyed
  have inbound := h.began p (Or.inl there)
  generalize sentTo .first r.deeds = ms at stage
  cases stage with
  | strange _ state => cases ready.symm.trans state
  | answered _ state addresses => exact List.mem_cons_self
  | greeted outbound => cases inbound.symm.trans outbound

end Party

end Reactor

namespace Duet

open Reactor

variable {ours theirs : ReactorConfig} {d : Duet} {e : Envelope} {info : PeerInfo}

/-- Nothing is left to do for either node, and the caller has been handed the connection. -/
structure Quiet (d : Duet) : Prop where
  handed : d.handed = true
  caller : Still d.callee d.caller
  callee : Still d.caller d.callee

/-- Two nodes that are not compatible never welcome each other. -/
theorem Rapport.unwelcoming (h : Rapport ours theirs d)
    (strangers : ¬ Compatible ours.ownInfo theirs.ownInfo) :
    Unwelcoming d.caller ∧ Unwelcoming d.callee := by
  constructor
  · refine h.caller.unwelcoming fun e heard info introduced _ => ?_
    exact strangers (h.callerHeard heard introduced).2
  · refine h.callee.unwelcoming fun e heard info introduced admitted => ?_
    cases introduced.symm.trans (h.calleeHeard heard)
    exact strangers admitted

namespace Concord

/-- **If both have let the connection go they have parted**, and the callee has told the caller that
its network is the wrong one if it is. -/
theorem parted (h : Concord ours theirs d) (left : d.callee.hasLeft = true)
    (left' : d.caller.hasLeft = true) :
    Parted d.caller ∧ Parted d.callee ∧
      ((∃ text, .disconnect .wrongNetwork text ∈ sentTo .first d.callee.deeds) ↔
        ours.ownInfo.networkId ≠ theirs.ownInfo.networkId) := by
  obtain ⟨caller, callee⟩ := h.unwelcoming (h.incompatible left)
  refine ⟨h.caller.parted left' caller, h.callee.parted left callee, ?_⟩
  rw [h.callee.candid.wrongNetwork_iff, h.callee.config_eq]
  constructor
  · rintro ⟨e, heard, info, introduced, foreign⟩
    cases introduced.symm.trans (h.calleeHeard heard)
    exact foreign
  · intro foreign
    obtain ⟨e, heard, -⟩ := h.refused left
    exact ⟨e, heard, _, h.calleeHeard heard, foreign⟩

/-- A caller to which the connection has been handed has taken it over when no command waits. -/
theorem caller_came (h : Concord ours theirs d) (handed : d.handed = true)
    (obeyed : d.caller.queue.commands = []) : joinedIds d.caller.deeds ≠ [] := by
  intro alone
  have count := h.caller.count
  rw [handed, adoptions, obeyed, alone] at count
  cases count

/-- The callee has taken the connection over if nothing of what the caller has written is in flight,
unless it has let the connection go. -/
theorem callee_present (h : Concord ours theirs d) (stays : d.callee.hasLeft = false)
    (unread : inFlight d.caller d.callee = []) (written : wroteTo .first d.caller.deeds ≠ []) :
    ∃ q, d.callee.table.get? .first = some q := by
  rcases h.callee.presence with ⟨alone, -, -⟩ | ⟨q, there, -⟩ | ⟨-, -, left⟩
  · obtain ⟨-, none_read⟩ := input_unheard (h.callee.unheard alone)
    rw [inFlight, none_read] at unread
    exact absurd unread written
  · exact ⟨q, there⟩
  · cases stays.symm.trans left

/-- **If the caller has its peer when nothing is left to do, the two are acquainted.** -/
theorem acquainted (h : Concord ours theirs d) (quiet : Quiet d) {p : Peer}
    (there : d.caller.table.get? .first = some p) (stays : d.caller.hasLeft = false) :
    Compatible ours.ownInfo theirs.ownInfo ∧ Acquainted .outbound theirs.ownInfo d.caller ∧
      Acquainted .inbound ours.ownInfo d.callee := by
  obtain ⟨callerRead, stays'⟩ := quiet.caller.read stays
  obtain ⟨calleeRead, -⟩ := quiet.callee.read stays'
  -- The caller has said who it is, and its socket has taken that.
  have said : d.caller.sayings = [(Message.peerInfo ours.ownInfo).envelope] := by
    rw [Reactor.sayings, h.caller.greeted there quiet.caller.obeyed]
    rfl
  have written := h.caller.wrote_all there (quiet.caller.written .first p there)
  obtain ⟨q, there'⟩ := h.callee_present stays' calleeRead <| by
    rw [written, said, renderAll_cons, renderAll_nil, List.append_nil]
    exact Envelope.render_ne_nil _
  -- The callee has heard that, and has answered, for it would have refused otherwise.
  obtain ⟨rest, awaits⟩ := h.calleeHears.awaits q there'
  have heard := awaits.settled written calleeRead quiet.callee.settled
  rw [said] at heard
  have accepted := h.callee.accepted there' (heard ▸ List.mem_cons_self)
    (Message.message_envelope _) fun e acted other introduced => by
      cases introduced.symm.trans (h.calleeHeard acted)
      rfl
  obtain ⟨ready, callee⟩ := h.callee.acquainted there' accepted
  have answered := h.callee.answered there' quiet.callee.obeyed ready
  -- The caller has heard the answer.
  obtain ⟨rest', awaits'⟩ := h.callerHears.awaits p there
  have written' := h.callee.wrote_all there' (quiet.callee.written .first q there')
  have heard' := awaits'.settled written' callerRead quiet.caller.settled
  have introduced : (Message.peerInfo theirs.ownInfo).envelope ∈
      dispatchedTo .first d.caller.deeds := by
    rw [heard']
    exact List.mem_map_of_mem answered
  have accepted' := h.caller.accepted there introduced (Message.message_envelope _)
    fun e acted other introduced => (h.callerHeard acted introduced).1
  have compatible := (h.callerHeard introduced (Message.message_envelope _)).2
  exact ⟨compatible, (h.caller.acquainted there accepted').2, callee⟩

end Concord

/-- **Two nodes, one of which has dialed the other, come to the same verdict, whatever the order of
their turns and however the bytes between them are split.**

If they are not compatible neither of them ever welcomes the other.  Once the caller has its
connection neither of them dials.  And when nothing is left to do, either they are of the same
network and are not the same, and each of them has the other as its only peer, knows who it is, and
has told that and nothing else; or each of them has let the connection go, and has told that and
nothing else, and the caller was told that its network is the wrong one exactly if it is. -/
theorem handshake_agreement {ours theirs : ReactorConfig} {d : Duet} (few : ours.target ≤ 1)
    (reached : Reached ours theirs d) :
    (¬ Compatible ours.ownInfo theirs.ownInfo → Unwelcoming d.caller ∧ Unwelcoming d.callee) ∧
      (d.handed = true → d.caller.dialing = [] ∧ d.callee.dialing = []) ∧
      (Quiet d →
        (Compatible ours.ownInfo theirs.ownInfo ∧ Acquainted .outbound theirs.ownInfo d.caller ∧
          Acquainted .inbound ours.ownInfo d.callee) ∨
        (¬ Compatible ours.ownInfo theirs.ownInfo ∧ Parted d.caller ∧ Parted d.callee ∧
          ((∃ text, .disconnect .wrongNetwork text ∈ sentTo .first d.callee.deeds) ↔
            ours.ownInfo.networkId ≠ theirs.ownInfo.networkId))) := by
  have concord := reached.concord few
  refine ⟨concord.unwelcoming, fun handed => ⟨concord.settled handed, concord.passive⟩, ?_⟩
  intro quiet
  -- The caller knows least about the other side, so what has become of it says most.
  rcases concord.caller.presence with ⟨alone, -, -⟩ | ⟨p, there, stays⟩ | ⟨-, -, left⟩
  · exact absurd alone (concord.caller_came quiet.handed quiet.caller.obeyed)
  · exact Or.inl (concord.acquainted quiet there stays)
  · have left' := concord.followed left
    exact Or.inr ⟨concord.incompatible left', concord.parted left' left⟩

/-- Two nodes of the same network meet: the caller says who it is, the callee answers, and both have
a peer that is ready. -/
theorem handshake_agreement_neighbours :
    let ours : ReactorConfig := { (default : ReactorConfig) with target := 1 }
    let theirs : ReactorConfig := { ours with ownInfo := { ours.ownInfo with uid := 7 } }
    let look : Sight := ⟨0, 0, .none, []⟩
    let hear : Sight := ⟨0, 0, .none, [(.first, .ok .read)]⟩
    let means (bytes : Bytes) : Means := ⟨0, .waiting bytes, [.accepted 999, .accepted 999], []⟩
    let dialed := (start ours .empty 0).react (.request (.adopt ⟨3⟩ default "there"))
    let taken := (start theirs .empty 0).turn ⟨0, 0, .connection ⟨4⟩ .elsewhere, []⟩ (means [])
    let greeted := (dialed.turn look (means [])).turn look (means [])
    let answered := taken.turn hear (means (inFlight greeted taken))
    let welcomed := greeted.turn hear (means (inFlight answered greeted))
    let told := (welcomed.turn look (means [])).turn look (means [])
    Reached ours theirs ⟨told, answered, true, true⟩ ∧ Quiet ⟨told, answered, true, true⟩ ∧
      Acquainted .outbound theirs.ownInfo told ∧ Acquainted .inbound ours.ownInfo answered := by
  intro ours theirs look hear means dialed taken greeted answered welcomed told
  have fresh (config : ReactorConfig) : Fresh config (start config .empty 0) :=
    ⟨⟨.empty, 0, [], rfl⟩, rfl, rfl, rfl⟩
  have willing : Willing [.accepted 999, .accepted 999] := by simp [Willing, WriteOutcome.isWilling]
  have begun : Reached ours theirs ⟨start ours .empty 0, start theirs .empty 0, false, false⟩ :=
    .start (fresh ours) (fresh theirs) rfl
  have arrives : ((start theirs .empty 0).wait ⟨0, 0, .connection ⟨4⟩ .elsewhere, []⟩).1 =
      some (.accept ⟨4⟩ .elsewhere) := by decide +kernel
  have connected : Reached ours theirs ⟨dialed, taken, true, true⟩ :=
    (begun.step (.connects rfl (.asked ⟨3⟩ default "there" rfl))).step
      (.accepts rfl arrives (means []))
  have adopts : Undisturbed taken dialed look (means []) :=
    .of_due (w := .control (some (.adopt ⟨3⟩ default "there"))) (by decide +kernel) True.intro
      fun _ _ => nofun
  have greets : Undisturbed taken (dialed.turn look (means [])) look (means []) :=
    .of_due (w := .control (some (.sendHandshake .first))) (by decide +kernel) (fun _ => willing)
      fun _ _ => nofun
  have introduced : Reached ours theirs ⟨greeted, taken, true, true⟩ :=
    ((connected.calls adopts).calls greets :)
  have asks : Undisturbed greeted taken hear (means (inFlight greeted taken)) :=
    .of_due (w := .peer .first .read) (by decide +kernel)
      (fun _ => ⟨List.prefix_rfl, willing⟩) fun _ _ => nofun
  have replied : Reached ours theirs ⟨greeted, answered, true, true⟩ :=
    (introduced.answers asks :)
  have hears : Undisturbed answered greeted hear (means (inFlight answered greeted)) :=
    .of_due (w := .peer .first .read) (by decide +kernel)
      (fun _ => ⟨List.prefix_rfl, willing⟩) fun _ _ => nofun
  have heard : Reached ours theirs ⟨welcomed, answered, true, true⟩ :=
    (replied.calls hears :)
  have goes_on : Undisturbed answered welcomed look (means []) :=
    .of_due (w := .peer .first .read) (by decide +kernel)
      (fun _ => ⟨List.nil_prefix, willing⟩) fun _ _ => nofun
  have seeks : Undisturbed answered (welcomed.turn look (means [])) look (means []) :=
    .of_due (w := .control (some .tryConnect)) (by decide +kernel) True.intro fun _ _ => nofun
  have reached : Reached ours theirs ⟨told, answered, true, true⟩ :=
    ((heard.calls goes_on).calls seeks :)
  have written : (∀ p ∈ told.table.values, p.session.outbound = []) ∧
      ∀ p ∈ answered.table.values, p.session.outbound = [] := by decide +kernel
  have caller_still : Still answered told := {
    obeyed := by decide +kernel
    settled := by decide +kernel
    written := fun id p there => written.1 p (IdMap.mem_values_iff.2 ⟨id, there⟩)
    read := fun _ => by decide +kernel }
  have callee_still : Still told answered := {
    obeyed := by decide +kernel
    settled := by decide +kernel
    written := fun id p there => written.2 p (IdMap.mem_values_iff.2 ⟨id, there⟩)
    read := fun _ => by decide +kernel }
  -- From here on it does not matter what the two are.
  clear_value told answered
  have quiet : Quiet ⟨told, answered, true, true⟩ := ⟨rfl, caller_still, callee_still⟩
  refine ⟨reached, quiet, ?_⟩
  rcases (handshake_agreement (by decide) reached).2.2 quiet with ⟨-, acquainted⟩ | ⟨strangers, -⟩
  · exact acquainted
  · exact absurd ⟨rfl, by decide⟩ strangers

/-- Two nodes of different networks part: the callee refuses and lets go, and the caller follows. -/
example :
    let ours : ReactorConfig := default
    let theirs : ReactorConfig := { ours with ownInfo := { ours.ownInfo with networkId := 7 } }
    let look : Sight := ⟨0, 0, .none, []⟩
    let hear : Sight := ⟨0, 0, .none, [(.first, .ok .read)]⟩
    let means (bytes : Bytes) : Means := ⟨0, .waiting bytes, [.accepted 999], []⟩
    let dialed := (start ours .empty 0).react (.request (.adopt ⟨3⟩ default "there"))
    let taken := (start theirs .empty 0).turn ⟨0, 0, .connection ⟨4⟩ .elsewhere, []⟩ (means [])
    let greeted := (dialed.turn look (means [])).turn look (means [])
    let refused := taken.turn hear (means (inFlight greeted taken))
    let told := greeted.turn hear (means (inFlight refused greeted))
    sentTo .first refused.deeds = [wrongNetwork 0 7] ∧ news refused.deeds = [.peerClose .first] ∧
      told.table.entries.length = 0 ∧ news told.deeds = [.peerClose .first] := by
  decide +kernel

end Duet

end GossipNode
