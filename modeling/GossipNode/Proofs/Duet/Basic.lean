import GossipNode.Proofs.Duet.Hearing

/-!
# Two nodes and a connection between them

One node has dialed another, and nothing else happens to either of them: nobody else connects and
nobody asks for anything.  The two take their turns in any order.  What the socket of the one takes
arrives at the other in any portions and as late as it likes, and so does the end once one of them
has let the connection go.

What the two have said and heard determines everything, but each of them knows only its own part.
What holds between them from turn to turn is gathered here.

## Main definitions

* `Duet`, `Duet.Step`, `Duet.Reached` — two nodes, what can happen to them, and what can come of it.
* `Duet.Compatible` — two nodes of the same network that are not the same.
* `Duet.Rapport`, `Duet.Concord` — what holds between the two.

## Main results

* `Duet.Rapport.compatible` — the callee says nothing but farewells unless the two are compatible.
* `Duet.Rapport.callerSays` — the caller says nothing but who it is.
* `Duet.Reached.concord` — **what holds between the two holds whatever happens.**
-/

namespace GossipNode

open Reactor

/-- Two running nodes, one of which has dialed the other. -/
structure Duet where
  caller : Reactor
  callee : Reactor
  /-- The caller has been handed its end of the connection. -/
  handed : Bool
  /-- The callee has taken its end over. -/
  taken : Bool

namespace Duet

/-! ### What can happen -/

/-- A running node that has had no connection yet, and has nothing to obey. -/
structure Fresh (config : ReactorConfig) (r : Reactor) : Prop where
  reached : ∃ shared now stimuli, r = (start config shared now).run stimuli
  running : r.running = true
  lonely : joinedIds r.deeds = []
  idle : r.queue = .empty

/-- A node is handed the connection that it has dialed, while it dials nobody else. -/
inductive Connected (r : Reactor) : Reactor → Prop
  /-- Somebody else has dialed on its behalf. -/
  | asked (socket : SocketId) (remote : SocketAddress) (address : String)
      (alone : r.dialing = []) :
    Connected r (r.react (.request (.adopt socket remote address)))
  /-- It has dialed in the background. -/
  | sought (socket : SocketId) (remote : SocketAddress) (address : String)
      (alone : r.dialing = [address]) :
    Connected r (r.react (.dialEnded address (some (socket, remote))))

/-- Nothing gets into the way of a turn: what is read is some of what is in flight, or the end if
nothing is and the other node has let the connection go; no socket fails, the peer has time left to
introduce itself, and no other connection arrives. -/
structure Undisturbed (far near : Reactor) (sight : Sight) (means : Means) : Prop where
  suits : (Stimulus.turn sight means).Suits .first (inFlight far near) far.hasLeft near
  alone : ∀ socket remote, (near.wait sight).1 ≠ some (.accept socket remote)

/-- Whether something gets into the way of a turn depends on what is served. -/
theorem Undisturbed.of_due {far near : Reactor} {sight : Sight} {means : Means} {w : Wakeup}
    (due : (near.wait sight).1 = some w)
    (suits : w.Suits .first (inFlight far near) far.hasLeft near means)
    (alone : ∀ socket remote, w ≠ .accept socket remote) : Undisturbed far near sight means := by
  constructor
  · intro w' due'
    cases due.symm.trans due'
    exact suits
  · intro socket remote due'
    exact alone socket remote (Option.some.inj (due.symm.trans due'))

/-- What can happen to the two. -/
inductive Step (d : Duet) : Duet → Prop
  /-- The caller is handed its end of the connection. -/
  | connects {caller : Reactor} (first : d.handed = false) (dialed : Connected d.caller caller) :
    Step d { d with caller, handed := true }
  /-- The callee takes its end over. -/
  | accepts {sight : Sight} {socket : SocketId} {remote : SocketAddress}
      (first : d.taken = false)
      (due : (d.callee.wait sight).1 = some (.accept socket remote)) (means : Means) :
    Step d { d with callee := d.callee.turn sight means, taken := true }
  /-- The caller takes another turn. -/
  | calls {sight : Sight} {means : Means} (h : Undisturbed d.callee d.caller sight means) :
    Step d { d with caller := d.caller.turn sight means }
  /-- The callee takes another turn. -/
  | answers {sight : Sight} {means : Means} (h : Undisturbed d.caller d.callee sight means) :
    Step d { d with callee := d.callee.turn sight means }

/-- What can come of two fresh nodes of given configurations, the second of which dials nobody. -/
inductive Reached (ours theirs : ReactorConfig) : Duet → Prop
  | start {caller callee : Reactor} (calling : Fresh ours caller) (called : Fresh theirs callee)
      (passive : callee.dialing = []) : Reached ours theirs ⟨caller, callee, false, false⟩
  | step {d d' : Duet} (earlier : Reached ours theirs d) (step : Step d d') : Reached ours theirs d'

/-- Two nodes of the same network that are not the same. -/
def Compatible (ours theirs : PeerInfo) : Prop :=
  ours.networkId = theirs.networkId ∧ ours.uid ≠ theirs.uid

/-! ### What holds between the two -/

/-- Each of the two is a node with a single connection, and hears what the other says. -/
structure Rapport (ours theirs : ReactorConfig) (d : Duet) : Prop where
  caller : Party ours .outbound d.handed d.caller
  callee : Party theirs .inbound d.taken d.callee
  callerHears : Hears d.callee d.caller
  calleeHears : Hears d.caller d.callee

/-- What holds between the two: each hears what the other says, the callee only lets the connection
go over something it has heard, the caller only after the callee, and neither of them dials. -/
structure Concord (ours theirs : ReactorConfig) (d : Duet) : Prop
    extends Rapport ours theirs d where
  refused : d.callee.hasLeft = true →
    ∃ e ∈ dispatchedTo .first d.callee.deeds, theirs.closes e = true
  followed : d.caller.hasLeft = true → d.callee.hasLeft = true
  settled : d.handed = true → d.caller.dialing = []
  passive : d.callee.dialing = []

end Duet

namespace Reactor.Party

variable {config : ReactorConfig} {direction : Direction} {came : Bool} {r : Reactor} {m : Message}

/-- Nobody has come whose connection does not wait either. -/
theorem lonely (h : Party config direction false r) : joinedIds r.deeds = [] := by
  have count := h.count
  rw [Bool.toNat_false] at count
  exact List.eq_nil_of_length_eq_zero (by omega)

/-- A connection that has not come is heard of as little as it says. -/
theorem hears (h : Party config direction came r) (far : Reactor)
    (alone : joinedIds r.deeds = []) : Hears far r := by
  obtain ⟨dispatched, -⟩ := input_unheard (h.unheard alone)
  refine ⟨dispatched ▸ List.nil_prefix, fun p there => ?_⟩
  have joined := h.consistent.accounted.entered .first p there
  rw [alone] at joined
  cases joined

/-- What is said on a single connection is small enough to leave room for a chunk. -/
theorem small (h : Party config direction came r) :
    ∀ e ∈ r.sayings, e.render.length + readChunk ≤ maxMessageSize := by
  have count := h.count
  have bound := came.toNat_le
  exact h.candid.small (by omega)

/-- What was said to a peer was said on the connection. -/
theorem conversed (h : Party config direction came r) (said : m ∈ sentTo .first r.deeds) :
    Conversed config .first direction r.deeds := by
  have joined := h.balanced.attested _ (mem_sentTo.1 said) .first rfl
  obtain ⟨q, known⟩ : ∃ q, r.Known .first q := by
    cases there : r.table.get? .first with
    | some p => exact ⟨p, Or.inl there⟩
    | none =>
      obtain ⟨q, gone⟩ := h.consistent.accounted.left .first joined there
      exact ⟨q, Or.inr gone⟩
  have conversed := h.conduct.conversed h.consistent known
  rwa [h.config_eq, h.began q known] at conversed

/-- On a connection that the node began it says who it is, and farewells. -/
theorem says_outbound (h : Party config .outbound came r) (said : m ∈ sentTo .first r.deeds) :
    m = .peerInfo config.ownInfo ∨ m.isFarewell = true := by
  rcases (h.conversed said).script with ⟨why, text, early⟩ | ⟨why, text, same⟩
  · have among := early.subset said
    simp only [List.mem_cons, List.not_mem_nil, or_false] at among
    rcases among with same | same
    · exact Or.inl same
    · exact Or.inr (same ▸ rfl)
  · rw [same] at said
    exact Or.inr (List.mem_singleton.1 said ▸ rfl)

/-- On a connection that the other side began the node says who it is, whom it knows, and
farewells. -/
theorem says_inbound (h : Party config .inbound came r) (said : m ∈ sentTo .first r.deeds) :
    m = .peerInfo config.ownInfo ∨ (∃ addresses, m = .discovery addresses) ∨
      m.isFarewell = true := by
  rcases (h.conversed said).script with ⟨addresses, why, text, early⟩ | ⟨why, text, same⟩
  · have among := early.subset said
    simp only [List.mem_cons, List.not_mem_nil, or_false] at among
    rcases among with same | same | same
    · exact Or.inl same
    · exact Or.inr (Or.inl ⟨addresses, same⟩)
    · exact Or.inr (Or.inr (same ▸ rfl))
  · rw [same] at said
    exact Or.inr (Or.inr (List.mem_singleton.1 said ▸ rfl))

/-- A node that has let nobody go has taken leave of nobody. -/
theorem not_farewell (h : Party config direction came r) (stays : r.hasLeft = false)
    (said : m ∈ sentTo .first r.deeds) : m.isFarewell = false := by
  rcases h.presence with ⟨alone, -, -⟩ | ⟨p, there, -⟩ | ⟨-, -, left⟩
  · exact absurd rfl (h.unheard alone _ (mem_sentTo.1 said))
  · obtain ⟨same, ungreeted | speaks⟩ := h.conduct.present there
    · rw [← same, ungreeted.unsaid] at said
      cases said
    · have stage := speaks.stage
      rw [same] at stage
      generalize sentTo .first r.deeds = ms at said stage
      cases stage with
      | strange inbound state => cases said
      | answered inbound state addresses =>
        simp only [List.mem_cons, List.not_mem_nil, or_false] at said
        rcases said with rfl | rfl <;> rfl
      | greeted outbound => rw [List.mem_singleton.1 said]; rfl
  · rw [stays] at left
    cases left

end Reactor.Party

namespace Duet

/-- A fresh node has a single connection, once that has come. -/
theorem Fresh.party {config : ReactorConfig} {r : Reactor} (h : Fresh config r)
    (direction : Direction) : Party config direction false r := by
  have balanced : r.Balanced := by
    obtain ⟨shared, now, stimuli, same⟩ := h.reached
    exact same ▸ kept_balanced.run (balanced_start config shared now) stimuli
  have accounted := balanced.consistent.accounted
  have none_came : .first ∉ joinedIds r.deeds := by
    rw [h.lonely]
    exact List.not_mem_nil
  -- All that a party promises is about a connection that has not come.
  refine ⟨h.reached, h.running, fun id hid => ?_, ?_, fun q known => ?_, fun c hc => ?_,
    fun m hm _ => ?_⟩
  · rw [h.lonely] at hid
    cases hid
  · rw [adoptions, h.idle, h.lonely]
    rfl
  · rcases known with there | ⟨retired, number⟩
    · exact absurd (accounted.entered .first q there) none_came
    · exact absurd (number ▸ (accounted.gone q retired).1) none_came
  · rw [h.idle] at hc
    cases hc
  · exact absurd (balanced.attested _ (mem_sentTo.1 hm) .first rfl) none_came

/-- What being handed the connection comes to. -/
theorem Connected.spec {config : ReactorConfig} {r s : Reactor} (h : Connected r s)
    (party : Party config .outbound false r) :
    ∃ socket remote address, (∃ shared now stimuli, s = (start config shared now).run stimuli) ∧
      Idle r s ∧ s.queue.commands = r.queue.commands ++ [.adopt socket remote address] ∧
      s.dialing = [] := by
  cases h with
  | asked socket remote address alone =>
    have same : r.react (.request (.adopt socket remote address)) =
        r.command (.adopt socket remote address) := if_pos party.running
    refine ⟨socket, remote, address, party.reached_react _,
      (react_idle r fun _ _ impossible => by cases impossible), ?_, ?_⟩
    · rw [same]
      rfl
    · rw [same]
      exact alone
  | sought socket remote address alone =>
    have same : r.react (.dialEnded address (some (socket, remote))) =
        ({ r with dialing := r.dialing.erase address } : Reactor).command
          (.adopt socket remote address) := if_pos party.running
    refine ⟨socket, remote, address, party.reached_react _,
      (react_idle r fun _ _ impossible => by cases impossible), ?_, ?_⟩
    · rw [same]
      rfl
    · rw [same]
      show r.dialing.erase address = []
      rw [alone, List.erase_cons_head]

variable {ours theirs : ReactorConfig} {d d' : Duet} {e : Envelope} {m : Message}

/-- Whatever comes of two nodes, the caller may take another turn. -/
theorem Reached.calls {caller callee : Reactor} {handed taken : Bool}
    (h : Reached ours theirs ⟨caller, callee, handed, taken⟩) {sight : Sight} {means : Means}
    (turn : Undisturbed callee caller sight means) :
    Reached ours theirs ⟨caller.turn sight means, callee, handed, taken⟩ :=
  h.step (.calls turn)

/-- Whatever comes of two nodes, the callee may take another turn. -/
theorem Reached.answers {caller callee : Reactor} {handed taken : Bool}
    (h : Reached ours theirs ⟨caller, callee, handed, taken⟩) {sight : Sight} {means : Means}
    (turn : Undisturbed caller callee sight means) :
    Reached ours theirs ⟨caller, callee.turn sight means, handed, taken⟩ :=
  h.step (.answers turn)

/-- Whatever is heard has been said. -/
theorem exists_said {far near : Reactor} (h : Hears far near)
    (heard : e ∈ dispatchedTo .first near.deeds) :
    ∃ m ∈ sentTo .first far.deeds, e.message = .ok m := by
  obtain ⟨m, hm, rfl⟩ := List.mem_map.1 (h.heard.subset heard)
  exact ⟨m, hm, m.message_envelope⟩

namespace Rapport

/-- **The callee says nothing but farewells unless the two are compatible**: it is told who the
caller is before it says anything else. -/
theorem compatible (h : Rapport ours theirs d) (said : m ∈ sentTo .first d.callee.deeds)
    (talkative : m.isFarewell = false) : Compatible ours.ownInfo theirs.ownInfo := by
  obtain ⟨later, earlier, split⟩ := List.append_of_mem (mem_sentTo.1 said)
  obtain ⟨e, info, heard, introduced, admitted⟩ :=
    (h.callee.conversed said).introduced rfl later m earlier split talkative
  have acted : e ∈ dispatchedTo .first d.callee.deeds := by
    rw [mem_dispatchedTo, split]
    exact List.mem_append_right later (List.mem_cons_of_mem _ heard)
  obtain ⟨m', said', same⟩ := exists_said h.calleeHears acted
  cases introduced.symm.trans same
  rcases h.caller.says_outbound said' with own | farewell
  · cases own
    exact admitted
  · cases farewell

/-- If the caller hears an introduction it is the callee's, and the two are compatible. -/
theorem callerHeard (h : Rapport ours theirs d)
    (heard : e ∈ dispatchedTo .first d.caller.deeds) {info : PeerInfo}
    (introduced : e.message = .ok (.peerInfo info)) :
    info = theirs.ownInfo ∧ Compatible ours.ownInfo theirs.ownInfo := by
  obtain ⟨m, said, same⟩ := exists_said h.callerHears heard
  cases introduced.symm.trans same
  refine ⟨?_, h.compatible said rfl⟩
  rcases h.callee.says_inbound said with own | ⟨addresses, other⟩ | farewell
  · cases own
    rfl
  · cases other
  · cases farewell

/-- **The caller says nothing but who it is**: it takes leave of nobody, for it hears of no other
network. -/
theorem callerSays (h : Rapport ours theirs d) (said : m ∈ sentTo .first d.caller.deeds) :
    m = .peerInfo ours.ownInfo := by
  rcases h.caller.says_outbound said with own | farewell
  · exact own
  · obtain ⟨e, heard, info, introduced, foreign⟩ := h.caller.farewells m said farewell
    obtain ⟨rfl, compatible⟩ := h.callerHeard heard introduced
    exact absurd compatible.1.symm foreign

/-- Whatever the callee hears is who the caller is. -/
theorem calleeHeard (h : Rapport ours theirs d)
    (heard : e ∈ dispatchedTo .first d.callee.deeds) :
    e.message = .ok (.peerInfo ours.ownInfo) := by
  obtain ⟨m, said, same⟩ := exists_said h.calleeHears heard
  rw [same, h.callerSays said]

/-- What the caller hears ends the conversation only if the callee has let the connection go. -/
theorem left_of_closes (h : Rapport ours theirs d)
    (heard : e ∈ dispatchedTo .first d.caller.deeds) (closes : ours.closes e = true) :
    d.callee.hasLeft = true := by
  obtain ⟨m, said, same⟩ := exists_said h.callerHears heard
  rw [ReactorConfig.closes, same] at closes
  -- An introduction of the callee is admitted, and the callee leaves with its farewell.
  cases m with
  | peerInfo info =>
    obtain ⟨rfl, network, uid⟩ := h.callerHeard heard same
    have admitted : ours.admits theirs.ownInfo := ⟨network.symm, uid.symm⟩
    simp only [decide_eq_true admitted] at closes
    cases closes
  | discovery addresses => cases closes
  | disconnect why text =>
    cases left : d.callee.hasLeft with
    | true => rfl
    | false =>
      have talkative := h.callee.not_farewell left said
      cases talkative

end Rapport

namespace Concord

/-- If the callee has let the connection go the two are not compatible. -/
theorem incompatible (h : Concord ours theirs d) (left : d.callee.hasLeft = true) :
    ¬ Compatible ours.ownInfo theirs.ownInfo := by
  obtain ⟨e, heard, closes⟩ := h.refused left
  rw [ReactorConfig.closes, h.calleeHeard heard] at closes
  simp only [Bool.not_eq_true', decide_eq_false_iff_not] at closes
  exact closes

/-- A caller that has heard of addresses has its peer. -/
theorem caller_present (h : Concord ours theirs d)
    (heard : e ∈ dispatchedTo .first d.caller.deeds) {addresses : List String}
    (discovered : e.message = .ok (.discovery addresses)) :
    ∃ p, d.caller.table.get? .first = some p := by
  obtain ⟨m, said, same⟩ := exists_said h.callerHears heard
  cases discovered.symm.trans same
  have compatible := h.compatible said rfl
  rcases h.caller.presence with ⟨alone, -, -⟩ | ⟨p, there, -⟩ | ⟨-, -, left⟩
  · exact absurd rfl (h.caller.unheard alone _ (mem_dispatchedTo.1 heard))
  · exact ⟨p, there⟩
  · exact absurd compatible (h.incompatible (h.followed left))

/-! ### It holds whatever happens -/

/-- A caller whose target is no more than one peer does not go on to dial. -/
theorem picks_eq_nil (h : Concord ours theirs d) (few : ours.target ≤ 1)
    (seeks : .tryConnect ∈ d.caller.queue.commands) (words : List UInt64) :
    d.caller.picks words = [] := by
  -- A round is due only because addresses were heard of, and then the callee is a peer.
  rcases h.caller.orders _ seeks with ⟨impossible | impossible, -⟩ |
    ⟨-, e, heard, addresses, discovered⟩
  · cases impossible
  · cases impossible
  · obtain ⟨p, there⟩ := h.caller_present heard discovered
    have one : 0 < d.caller.table.size := by
      rw [← IdMap.length_ids]
      exact List.length_pos_of_mem (IdMap.mem_ids_iff.2 ⟨p, there⟩)
    have most := d.caller.length_picks words
    rw [h.caller.config_eq] at most
    exact List.eq_nil_of_length_eq_zero (by omega)

/-- A callee does not dial: it hears of nobody. -/
theorem not_seeks (h : Concord ours theirs d) : .tryConnect ∉ d.callee.queue.commands := by
  intro seeks
  rcases h.callee.orders _ seeks with ⟨impossible | impossible, -⟩ |
    ⟨-, e, heard, addresses, discovered⟩
  · cases impossible
  · cases impossible
  · cases discovered.symm.trans (h.calleeHeard heard)

theorem connects (h : Concord ours theirs d) (first : d.handed = false) {caller : Reactor}
    (dialed : Connected d.caller caller) :
    Concord ours theirs { d with caller, handed := true } := by
  obtain ⟨socket, remote, address, reached, idle, commands, dialing⟩ :=
    dialed.spec (first ▸ h.caller)
  have quiet := idle.untouched .first
  exact {
    caller := (first ▸ h.caller).handOver reached idle commands
    callee := h.callee
    callerHears := h.callerHears.untouched quiet
    calleeHears := h.calleeHears.grow h.caller.balanced (idle.deeds.imp fun _ => And.left)
    refused := h.refused
    followed := fun left => h.followed (quiet.hasLeft.symm.trans left)
    settled := fun _ => dialing
    passive := h.passive }

theorem accepts (h : Concord ours theirs d) (first : d.taken = false) {sight : Sight}
    {socket : SocketId} {remote : SocketAddress}
    (due : (d.callee.wait sight).1 = some (.accept socket remote)) (means : Means) :
    Concord ours theirs { d with callee := d.callee.turn sight means, taken := true } := by
  have callee : Party theirs .inbound false d.callee := first ▸ h.callee
  have deeds := deeds_react h.callee.consistent (.turn sight means)
  have came := callee.accept due means
  have alone := callee.lonely
  have number : (d.callee.wait sight).2.nextId = .first := callee.nextId alone
  have taken : d.callee.turn sight means =
      (d.callee.wait sight).2.insertPeer socket remote .inbound none means.now :=
    turn_eq callee.running due means
  exact {
    caller := h.caller
    callee := came
    callerHears := h.callerHears.grow callee.balanced deeds
    calleeHears := by
      show Hears d.caller (d.callee.turn sight means)
      rw [taken]
      exact hears_insert d.caller (d.callee.wait sight).2 (callee.unheard alone) number ..
    refused := fun left => by
      have nobody := (came.absent left).2
      rw [taken, get?_insertPeer, if_pos number] at nobody
      cases nobody
    followed := fun left => hasLeft_grow deeds (h.followed left)
    settled := h.settled
    passive := by
      show (d.callee.turn sight means).dialing = []
      rw [taken, dialing_insertPeer]
      exact h.passive }

theorem calls (h : Concord ours theirs d) (few : ours.target ≤ 1) {sight : Sight} {means : Means}
    (turn : Undisturbed d.callee d.caller sight means) :
    Concord ours theirs { d with caller := d.caller.turn sight means } := by
  have deeds := deeds_react h.caller.consistent (.turn sight means)
  obtain ⟨hears, reasons⟩ := h.callerHears.turn h.caller h.callee.balanced h.callee.small
    turn.suits turn.alone
  have rapport : Rapport ours theirs { d with caller := d.caller.turn sight means } := {
    caller := h.caller.turn turn.suits turn.alone
    callee := h.callee
    callerHears := hears
    calleeHears := h.calleeHears.grow h.caller.balanced deeds }
  refine { rapport with refused := h.refused, followed := ?_, settled := ?_, passive := h.passive }
  · -- Whatever makes the caller let go, the callee has done so before.
    intro left
    rcases reasons left with before | ⟨e, heard, closes⟩ | after
    · exact h.followed before
    · exact rapport.left_of_closes heard closes
    · exact after
  · intro handed
    show (d.caller.turn sight means).dialing = []
    rcases h.caller.dialing_turn turn.suits with same | ⟨seeks, words, same⟩
    · rw [same]
      exact h.settled handed
    · rw [same, h.settled handed, h.picks_eq_nil few seeks]
      rfl

theorem answers (h : Concord ours theirs d) {sight : Sight} {means : Means}
    (turn : Undisturbed d.caller d.callee sight means) :
    Concord ours theirs { d with callee := d.callee.turn sight means } := by
  have deeds := deeds_react h.callee.consistent (.turn sight means)
  obtain ⟨hears, reasons⟩ := h.calleeHears.turn h.callee h.caller.balanced h.caller.small
    turn.suits turn.alone
  -- What the callee has heard stays on record.
  have refused_still (left : d.callee.hasLeft = true) :
      ∃ e ∈ dispatchedTo .first (d.callee.turn sight means).deeds, theirs.closes e = true := by
    obtain ⟨e, heard, closes⟩ := h.refused left
    obtain ⟨new, hnew⟩ := deeds
    refine ⟨e, ?_, closes⟩
    rw [show (d.callee.turn sight means).deeds = new ++ d.callee.deeds from hnew,
      dispatchedTo_append]
    exact List.mem_append_left _ heard
  exact {
    caller := h.caller
    callee := h.callee.turn turn.suits turn.alone
    callerHears := h.callerHears.grow h.callee.balanced deeds
    calleeHears := hears
    refused := fun left => by
      rcases reasons left with before | told | after
      · exact refused_still before
      · exact told
      · exact refused_still (h.followed after)
    followed := fun left => hasLeft_grow deeds (h.followed left)
    settled := h.settled
    passive := by
      show (d.callee.turn sight means).dialing = []
      rcases h.callee.dialing_turn turn.suits with same | ⟨seeks, -⟩
      · rw [same]
        exact h.passive
      · exact absurd seeks h.not_seeks }

end Concord

/-- Nothing has happened between two fresh nodes. -/
theorem concord_start {caller callee : Reactor} (calling : Fresh ours caller)
    (called : Fresh theirs callee) (passive : callee.dialing = []) :
    Concord ours theirs ⟨caller, callee, false, false⟩ := by
  have calling' := calling.party .outbound
  have called' := called.party .inbound
  exact {
    caller := calling'
    callee := called'
    callerHears := calling'.hears callee calling.lonely
    calleeHears := called'.hears caller called.lonely
    refused := fun left => by
      have came := (called'.absent left).1
      rw [called.lonely] at came
      cases came
    followed := fun left => by
      have came := (calling'.absent left).1
      rw [calling.lonely] at came
      cases came
    settled := fun handed => by cases handed
    passive := passive }

/-- **What holds between the two holds whatever happens.** -/
theorem Reached.concord (h : Reached ours theirs d) (few : ours.target ≤ 1) :
    Concord ours theirs d := by
  induction h with
  | start calling called passive => exact concord_start calling called passive
  | step earlier step ih =>
    cases step with
    | connects first dialed => exact ih.connects first dialed
    | accepts first due means => exact ih.accepts first due means
    | calls turn => exact ih.calls few turn
    | answers turn => exact ih.answers turn

end Duet

end GossipNode
