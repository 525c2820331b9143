import GossipNode.Proofs.Reactor.Frames
import GossipNode.Proofs.Reactor.Introductions

/-!
# What the listeners are told

The listeners of a node are told when a peer becomes ready, when a peer is let go and when the run
ends.  A peer is let go in many places, some of them inside others, and peers that are there at the
end of a run go without a word of their own.  What the listeners have been told nevertheless is an
exact account: whoever has counted along knows who is there and who is ready.

## Main definitions

* `events` — what the listeners were told, in order.
* `closedIds` — the connections they were told are closed.
* `Reactor.Ledger` — the news of connections that were closed is what is on record of them.
* `Reactor.Concluded` — the end of the run is told when it has come, and nothing after it.
* `Reactor.Chronicle` — what can be read off the events.

## Main results

* `Reactor.kept_ledger` — every move keeps the account.
* `Reactor.Concluded.run` — the end is told once.
* `Reactor.event_history` — **what the listeners were told is an exact account of the peers.**
-/

namespace GossipNode

/-! ### When a session becomes ready -/

/-- How many of some calls make a session ready that was not. -/
def Session.turnsReady : Session → List Session.Call → Nat
  | _, [] => 0
  | s, c :: calls =>
    (if s.state ≠ .ready ∧ (s.perform c).state = .ready then 1 else 0) +
      turnsReady (s.perform c) calls

theorem Session.turnsReady_eq_acceptances (calls : List Session.Call) : ∀ s : Session,
    s.turnsReady calls = s.acceptances calls := by
  induction calls with
  | nil => intro s; rfl
  | cons c calls ih =>
    intro s
    rw [turnsReady, acceptances, ih]
    by_cases accepted : s.accepts c = true
    · rw [if_pos ((s.accepts_iff c).1 accepted), accepted]
      rfl
    · rw [if_neg (fun h => accepted ((s.accepts_iff c).2 h)), Bool.eq_false_iff.2 accepted]
      rfl

/-! ### Events on record -/

/-- The event that something on record says was told. -/
def Deed.event? : Deed → Option Event
  | .notified event _ => some event
  | _ => none

/-- What the listeners were told, in order. -/
def events (deeds : List Deed) : List Event := (deeds.filterMap Deed.event?).reverse

/-- The connection that an event says is closed, if it does. -/
def Event.closedId? : Event → Option PeerId
  | .peerClose id => some id
  | _ => none

/-- The connections that the listeners were told are closed, in order. -/
def closedIds (deeds : List Deed) : List PeerId := (events deeds).filterMap Event.closedId?

/-- Whether something on record is the news of a welcome or of a closing, or a connection that was
let go. -/
def Deed.isTiding : Deed → Bool
  | .retired _ | .notified (.peerWelcome _) _ | .notified (.peerClose _) _ => true
  | _ => false

@[simp] theorem events_nil : events [] = [] := rfl

@[simp] theorem events_notified (event : Event) (audience : List String) (deeds : List Deed) :
    events (.notified event audience :: deeds) = events deeds ++ [event] := by
  simp [events, Deed.event?]

theorem events_cons_silent {d : Deed} (h : d.event? = none) (deeds : List Deed) :
    events (d :: deeds) = events deeds := by
  simp [events, h]

theorem events_append (new deeds : List Deed) :
    events (new ++ deeds) = events deeds ++ events new := by
  simp [events]

theorem mem_events {event : Event} {deeds : List Deed} :
    event ∈ events deeds ↔ ∃ audience, .notified event audience ∈ deeds := by
  rw [events, List.mem_reverse, List.mem_filterMap]
  constructor
  · rintro ⟨d, hd, told⟩
    cases d with
    | notified event' audience =>
      cases told
      exact ⟨audience, hd⟩
    | _ => cases told
  · rintro ⟨audience, hd⟩
    exact ⟨_, hd, rfl⟩

theorem mem_closedIds {id : PeerId} {deeds : List Deed} :
    id ∈ closedIds deeds ↔ .peerClose id ∈ events deeds := by
  rw [closedIds, List.mem_filterMap]
  constructor
  · rintro ⟨event, told, closes⟩
    cases event with
    | peerClose k =>
      cases closes
      exact told
    | _ => cases closes
  · exact fun told => ⟨_, told, rfl⟩

theorem closedIds_append (new deeds : List Deed) :
    closedIds (new ++ deeds) = closedIds deeds ++ closedIds new := by
  simp [closedIds, events_append]

theorem closedIds_eq_nil {new : List Deed} (h : ∀ d ∈ new, d.isTiding = false) :
    closedIds new = [] := by
  refine List.eq_nil_iff_forall_not_mem.2 fun id hid => ?_
  obtain ⟨audience, told⟩ := mem_events.1 (mem_closedIds.1 hid)
  cases h _ told

theorem count_peerClose (id : PeerId) (deeds : List Deed) :
    (events deeds).count (.peerClose id) = (closedIds deeds).count id := by
  rw [closedIds, List.count_filterMap, List.count]
  refine List.countP_congr fun event _ => ?_
  cases event <;> simp [Event.closedId?]

/-- How often a welcome was told is how often it is on record. -/
theorem count_peerWelcome (id : PeerId) (deeds : List Deed) :
    (events deeds).count (.peerWelcome id) = welcomes id deeds := by
  induction deeds with
  | nil => rfl
  | cons d deeds ih =>
    rw [welcomes, List.countP_cons] at *
    cases d with
    | notified event audience =>
      rw [events_notified, List.count_append, ih]
      cases event <;> simp [Deed.welcomes, List.count_singleton]
    | _ => rw [events_cons_silent rfl, ih]; rfl

namespace Reactor

variable {r s : Reactor}

/-! ### Who was closed -/

/-- The news of connections that were closed is what is on record of them: nobody is closed twice,
whoever is closed was let go, while the run goes on whoever was let go is closed, and nobody is
welcomed afterwards. -/
structure Ledger (r : Reactor) : Prop where
  consistent : r.Consistent
  closed_nodup : (closedIds r.deeds).Nodup
  closed_gone : ∀ id ∈ closedIds r.deeds, ∃ q, .retired q ∈ r.deeds ∧ q.id = id
  gone_closed : r.running = true → ∀ q, .retired q ∈ r.deeds → q.id ∈ closedIds r.deeds
  settled : (events r.deeds).Pairwise fun earlier later =>
    ∀ id, earlier = .peerClose id → later ≠ .peerWelcome id

/-- Nobody who is there was closed. -/
theorem Ledger.not_closed (h : r.Ledger) {id : PeerId} {p : Peer}
    (there : r.table.get? id = some p) : id ∉ closedIds r.deeds := by
  intro closed
  obtain ⟨q, gone, same⟩ := h.closed_gone id closed
  have nobody := (h.consistent.accounted.gone q gone).2.2
  rw [same, there] at nobody
  cases nobody

/-- The account is kept where nobody comes to be ready or goes. -/
theorem Ledger.quiet (h : r.Ledger) (consistent : s.Consistent) (running : s.running = r.running)
    (deeds : ∃ new, s.deeds = new ++ r.deeds ∧ ∀ d ∈ new, d.isTiding = false) : s.Ledger := by
  obtain ⟨new, hnew, quiet⟩ := deeds
  have closed : closedIds s.deeds = closedIds r.deeds := by
    rw [hnew, closedIds_append, closedIds_eq_nil quiet, List.append_nil]
  have retired {q : Peer} (hq : .retired q ∈ s.deeds) : .retired q ∈ r.deeds := by
    rw [hnew] at hq
    exact (List.mem_append.1 hq).resolve_left fun recent => by cases quiet _ recent
  constructor
  case consistent => exact consistent
  case closed_nodup => exact closed ▸ h.closed_nodup
  case closed_gone =>
    intro id hid
    obtain ⟨q, gone, same⟩ := h.closed_gone id (closed ▸ hid)
    exact ⟨q, hnew ▸ List.mem_append_right new gone, same⟩
  case gone_closed =>
    intro goes_on q hq
    rw [closed]
    exact h.gone_closed (running ▸ goes_on) q (retired hq)
  case settled =>
    -- What is told now is neither a closing nor a welcome.
    have unheard {event : Event} (told : event ∈ events new) (id : PeerId) :
        event ≠ .peerClose id ∧ event ≠ .peerWelcome id := by
      obtain ⟨audience, recent⟩ := mem_events.1 told
      have silent := quiet _ recent
      constructor <;> rintro rfl <;> cases silent
    rw [hnew, events_append, List.pairwise_append]
    refine ⟨h.settled, List.pairwise_of_forall_mem_list fun a ha b _ id closes => ?_, ?_⟩
    · exact absurd closes (unheard ha id).1
    · intro a _ b hb id _
      exact (unheard hb id).2

/-- The account is kept when a peer is let go. -/
theorem Ledger.close (h : r.Ledger) {p : Peer} (held : r.Holds p) : (r.closePeer p.id).Ledger := by
  have deeds := deeds_closePeer held
  have told : events (r.closePeer p.id).deeds = events r.deeds ++ [.peerClose p.id] := by
    rw [deeds, events_notified, events_cons_silent rfl]
  have closed : closedIds (r.closePeer p.id).deeds = closedIds r.deeds ++ [p.id] := by
    rw [closedIds, told, List.filterMap_append]
    rfl
  constructor
  case consistent => exact h.consistent.close held
  case closed_nodup =>
    rw [closed, List.nodup_append]
    refine ⟨h.closed_nodup, List.pairwise_singleton _ _, ?_⟩
    rintro id hid k hk rfl
    exact h.not_closed held (List.mem_singleton.1 hk ▸ hid)
  case closed_gone =>
    intro id hid
    rw [closed] at hid
    rcases List.mem_append.1 hid with before | now
    · obtain ⟨q, gone, same⟩ := h.closed_gone id before
      exact ⟨q, (retired_closePeer held).2 (Or.inr gone), same⟩
    · exact ⟨_, (retired_closePeer held).2 (Or.inl rfl), (List.mem_singleton.1 now).symm⟩
  case gone_closed =>
    intro goes_on q hq
    rw [running_closePeer] at goes_on
    rw [closed, List.mem_append]
    rcases (retired_closePeer held).1 hq with rfl | gone
    · exact Or.inr (List.mem_singleton.2 rfl)
    · exact Or.inl (h.gone_closed goes_on q gone)
  case settled =>
    rw [told, List.pairwise_append]
    refine ⟨h.settled, List.pairwise_singleton _ _, fun a _ b hb id _ => ?_⟩
    rw [List.mem_singleton.1 hb]
    exact Event.noConfusion

/-- The account is kept when a peer is welcomed that is there. -/
theorem Ledger.welcome (h : r.Ledger) (consistent : s.Consistent)
    (running : s.running = r.running) {p : Peer} (held : r.Holds p) {e : Envelope}
    (deeds : s.deeds = .notified (.peerWelcome p.id) r.shared.listeners.audience ::
      .dispatched p.id e :: r.deeds) : s.Ledger := by
  have told : events s.deeds = events r.deeds ++ [.peerWelcome p.id] := by
    rw [deeds, events_notified, events_cons_silent rfl]
  have closed : closedIds s.deeds = closedIds r.deeds := by
    rw [closedIds, told, List.filterMap_append]
    exact List.append_nil _
  have retired (q : Peer) : .retired q ∈ s.deeds ↔ .retired q ∈ r.deeds := by
    rw [deeds]
    simp
  constructor
  case consistent => exact consistent
  case closed_nodup => exact closed ▸ h.closed_nodup
  case closed_gone =>
    intro id hid
    obtain ⟨q, gone, same⟩ := h.closed_gone id (closed ▸ hid)
    exact ⟨q, (retired q).2 gone, same⟩
  case gone_closed =>
    intro goes_on q hq
    rw [closed]
    exact h.gone_closed (running ▸ goes_on) q ((retired q).1 hq)
  case settled =>
    rw [told, List.pairwise_append]
    refine ⟨h.settled, List.pairwise_singleton _ _, ?_⟩
    rintro a ha b hb id rfl
    rw [List.mem_singleton.1 hb]
    rintro ⟨⟩
    exact h.not_closed held (mem_closedIds.2 ha)

theorem Ledger.note (h : r.Ledger) {p : Peer} (held : r.Holds p) (e : Envelope) :
    (r.note (.dispatched p.id e)).Ledger :=
  h.quiet (h.consistent.note held rfl) rfl
    ⟨[.dispatched p.id e], rfl, fun _ hd => List.mem_singleton.1 hd ▸ rfl⟩

theorem Ledger.perform (h : r.Ledger) {p : Peer} {c : Session.Call} (held : r.Holds p)
    (traffic : c.isTraffic = true) : (r.perform p c).Ledger := by
  refine h.quiet (h.consistent.perform held traffic) rfl ⟨p.record c, rfl, fun d hd => ?_⟩
  cases c <;> simp only [Peer.record, List.mem_cons, List.not_mem_nil, or_false] at hd
  · rcases hd with rfl | rfl <;> rfl
  · rw [hd]; rfl
  · rw [hd]; rfl

theorem Ledger.move (h : r.Ledger) (running : r.running = true) {id : PeerId}
    (move : Move r (some id) s) : s.Ledger := by
  have consistent := h.consistent.move running move
  have nothing_new : ∀ d ∈ ([] : List Deed), d.isTiding = false := fun _ hd => by cases hd
  cases move with
  | stray unknown => exact h.quiet consistent rfl ⟨[], rfl, nothing_new⟩
  | requeue id => exact h.quiet consistent rfl ⟨[], rfl, nothing_new⟩
  | call held traffic => exact h.perform held traffic
  | pass held known => exact h.note held _
  | welcome held introduced admitted new => exact h.welcome consistent rfl held rfl
  | close held => exact h.close held
  | insert socket remote direction dialed now =>
    exact h.quiet consistent (running_insertPeer ..)
      ⟨[_], deeds_insertPeer .., fun _ hd => List.mem_singleton.1 hd ▸ rfl⟩
  | @refuse p e info held introduced strange writes =>
    have noted := h.note held e
    rcases onPeerInfo_strange (r := r.note (.dispatched p.id e)) strange p writes with
      ⟨m, refused⟩ | refused
    · rw [refused]
      exact (noted.perform (c := .send m writes) held rfl).close (p := p.perform _)
        (holds_perform _ _ _)
    · rw [refused]
      exact noted.close held

/-- The end of a run is told, and nothing else. -/
theorem events_teardown (r : Reactor) :
    events r.teardown.deeds = events r.deeds ++ [.shutdown] := by
  let last := (r.table.values.map fun p => Deed.retired (p.perform .markClosed)) ++
    (unclaimedSockets r.queue.commands).map Deed.dropped
  have silent : events last.reverse = [] := by
    simp [last, events, List.filterMap_map, Function.comp_def, Deed.event?]
  show events (last.reverse ++ .notified .shutdown r.shared.listeners.audience :: r.deeds) = _
  rw [events_append, silent, events_notified, List.append_nil]

theorem Ledger.teardown (h : r.Ledger) : r.teardown.Ledger := by
  have closed : closedIds r.teardown.deeds = closedIds r.deeds := by
    rw [closedIds, events_teardown, List.filterMap_append]
    exact List.append_nil _
  constructor
  case consistent => exact h.consistent.teardown
  case closed_nodup => exact closed ▸ h.closed_nodup
  case closed_gone =>
    intro id hid
    obtain ⟨q, gone, same⟩ := h.closed_gone id (closed ▸ hid)
    exact ⟨q, retired_teardown.2 (Or.inr gone), same⟩
  case gone_closed =>
    -- The peers that are there go without a word, but the run has ended.
    intro goes_on
    cases goes_on
  case settled =>
    rw [events_teardown, List.pairwise_append]
    refine ⟨h.settled, List.pairwise_singleton _ _, fun a _ b hb id _ => ?_⟩
    rw [List.mem_singleton.1 hb]
    exact Event.noConfusion

/-- **Every move keeps the account.** -/
theorem kept_ledger : Kept Ledger where
  keyed h := h.consistent.keyed
  wait sight h := h.quiet (h.consistent.wait sight) rfl ⟨[], rfl, fun _ hd => by cases hd⟩
  move h running move := h.move running move
  teardown h := h.teardown
  idle h idle := by
    obtain ⟨new, hnew, about⟩ := idle.deeds
    refine h.quiet (h.consistent.idle idle) idle.running ⟨new, hnew, fun d hd => ?_⟩
    have unrelated := about d hd
    unfold Deed.isTiding
    split <;> first | rfl | cases unrelated

theorem ledger_start (config : ReactorConfig) (shared : Shared) (now : Nat) :
    (start config shared now).Ledger where
  consistent := consistent_start config shared now
  closed_nodup := List.nodup_nil
  closed_gone id hid := by cases hid
  gone_closed _ q hq := by cases hq
  settled := List.Pairwise.nil

/-! ### The end of a run -/

/-- The end of the run is told when it has come, and nothing after it. -/
def Concluded (r : Reactor) : Prop :=
  if r.running then .shutdown ∉ events r.deeds
  else ∃ early, events r.deeds = early ++ [.shutdown] ∧ .shutdown ∉ early

/-- What a move on behalf of a peer puts on record is about that peer. -/
theorem Move.about {id : PeerId} (move : Move r (some id) s) :
    ∃ new, s.deeds = new ++ r.deeds ∧ ∀ d ∈ new, d.about = some id := by
  have closing {t : Reactor} {p : Peer} (held : t.Holds p) :
      ∃ new, (t.closePeer p.id).deeds = new ++ t.deeds ∧ ∀ d ∈ new, d.about = some p.id :=
    ⟨[_, _], deeds_closePeer held, by simp [Deed.about, Peer.perform]⟩
  cases move with
  | stray unknown => exact ⟨[], rfl, fun _ hd => by cases hd⟩
  | requeue id => exact ⟨[], rfl, fun _ hd => by cases hd⟩
  | @call p c held traffic => exact ⟨p.record c, rfl, Peer.record_about⟩
  | pass held known => exact ⟨[_], rfl, fun _ hd => List.mem_singleton.1 hd ▸ rfl⟩
  | welcome held introduced admitted new => exact ⟨[_, _], rfl, by simp [Deed.about]⟩
  | close held => exact closing held
  | insert socket remote direction dialed now =>
    exact ⟨[_], deeds_insertPeer .., fun _ hd => List.mem_singleton.1 hd ▸ rfl⟩
  | @refuse p e info held introduced strange writes =>
    rcases onPeerInfo_strange (r := r.note (.dispatched p.id e)) strange p writes with
      ⟨m, refused⟩ | refused
    · have told := holds_perform (r.note (.dispatched p.id e)) p (.send m writes)
      rw [refused]
      exact ⟨[_, _, _, _, _], deeds_closePeer (p := p.perform _) told,
        by simp [Deed.about, Peer.perform]⟩
    · rw [refused]
      exact ⟨[_, _, _], deeds_closePeer (r := r.note (.dispatched p.id e)) held,
        by simp [Deed.about, Peer.perform]⟩

/-- A round of dialing is told, and nothing else. -/
theorem events_tryConnect (r : Reactor) (words : List UInt64) :
    events (r.tryConnect words).deeds = events r.deeds ++ [.tryConnect] := by
  unfold tryConnect
  simp only
  rw [foldl_dial, events_append]
  simp [events, List.filterMap_map, Function.comp_def, Deed.event?, notify, note]

/-- No move tells the end of the run. -/
theorem Move.not_shutdown {id? : Option PeerId} (move : Move r id? s)
    (h : .shutdown ∉ events r.deeds) : .shutdown ∉ events s.deeds := by
  cases id? with
  | some id =>
    obtain ⟨new, hnew, about⟩ := move.about
    rw [hnew, events_append, List.mem_append]
    refine not_or.2 ⟨h, fun told => ?_⟩
    obtain ⟨audience, recent⟩ := mem_events.1 told
    cases about _ recent
  | none =>
    cases move with
    | learn addresses => exact h
    | pause now limit => exact h
    | seek words =>
      rw [events_tryConnect]
      simpa using h

theorem Moves.not_shutdown {who : PeerId → Prop} (moves : Moves who r s)
    (h : .shutdown ∉ events r.deeds) : .shutdown ∉ events s.deeds := by
  induction moves with
  | refl => exact h
  | step _ last _ ih => exact last.not_shutdown ih

/-- Between turns the listeners are told nothing. -/
theorem events_react (r : Reactor) {stimulus : Stimulus}
    (between : ∀ sight means, stimulus ≠ .turn sight means) :
    events (r.react stimulus).deeds = events r.deeds := by
  cases stimulus with
  | turn sight means => exact absurd rfl (between sight means)
  | request q =>
    simp only [react]
    split <;> rfl
  | dial address => exact events_cons_silent rfl _
  | dialEnded address outcome =>
    rcases r.dialEnded_cases address outcome with
      ⟨-, ended⟩ | ⟨socket, remote, -, ⟨-, ended⟩ | ⟨-, ended⟩⟩
    · rw [react, ended]
    · rw [react, ended]
      rfl
    · rw [react, ended]
      exact events_cons_silent rfl _
  | _ => rfl

theorem concluded_running (running : r.running = true) :
    r.Concluded ↔ .shutdown ∉ events r.deeds := by
  rw [Concluded, if_pos running]

theorem concluded_ended (ended : r.running = false) : r.Concluded ↔
    ∃ early, events r.deeds = early ++ [.shutdown] ∧ .shutdown ∉ early := by
  rw [Concluded, if_neg (Bool.eq_false_iff.1 ended)]

theorem Concluded.turn (h : r.Concluded) (consistent : r.Consistent) (sight : Sight)
    (means : Means) : (r.turn sight means).Concluded := by
  cases running : r.running with
  | false =>
    rw [turn_ended running]
    exact h
  | true =>
    have silent : .shutdown ∉ events (r.wait sight).2.deeds := (concluded_running running).1 h
    rcases turn_cases running sight means (consistent.wait sight).keyed with
      ⟨-, nothing⟩ | ⟨w, -, ⟨-, ended⟩ | ⟨-, served⟩⟩
    · rw [nothing]
      exact (concluded_running running).2 silent
    · rw [ended]
      exact (concluded_ended rfl).2 ⟨_, events_teardown _, silent⟩
    · exact (concluded_running (served.keeps.1.trans running)).2 (served.not_shutdown silent)

theorem Concluded.react (h : r.Concluded) (consistent : r.Consistent) (stimulus : Stimulus) :
    (r.react stimulus).Concluded := by
  by_cases turns : ∃ sight means, stimulus = .turn sight means
  · obtain ⟨sight, means, rfl⟩ := turns
    exact h.turn consistent sight means
  · have between : ∀ sight means, stimulus ≠ .turn sight means :=
      fun sight means same => turns ⟨sight, means, same⟩
    rw [Concluded, (react_idle r between).running, events_react r between]
    exact h

/-- The end of the run is told when it has come, and nothing after it. -/
theorem Concluded.run (stimuli : List Stimulus) : ∀ {r : Reactor}, r.Concluded → r.Consistent →
    (r.run stimuli).Concluded := by
  induction stimuli with
  | nil => intro r h _; exact h
  | cons stimulus stimuli ih =>
    intro r h consistent
    exact ih (h.react consistent stimulus) (kept_consistent.react consistent stimulus)

/-! ### What can be read off the events -/

/-- What can be read off the events: nobody is welcomed or closed twice, nor welcomed after being
closed; while the run goes on those who are there are those who came and were not closed, and those
who are ready are those who were welcomed and not closed; and the end of the run is told when it has
come, once and last of all. -/
structure Chronicle (r : Reactor) : Prop where
  welcomed_once : ∀ id, (events r.deeds).count (.peerWelcome id) ≤ 1
  closed_once : ∀ id, (events r.deeds).count (.peerClose id) ≤ 1
  /-- Nobody is welcomed after being closed. -/
  welcomed_first : ∀ id early late, events r.deeds = early ++ .peerClose id :: late →
    .peerWelcome id ∉ late
  /-- Whoever was welcomed is there or was. -/
  known : ∀ id, .peerWelcome id ∈ events r.deeds → ∃ p, r.Known id p
  there : r.running = true → ∀ id, (∃ p, r.table.get? id = some p) ↔
    id ∈ joinedIds r.deeds ∧ .peerClose id ∉ events r.deeds
  /-- There are as many peers as came and were not closed. -/
  size : r.running = true →
    r.table.size + (closedIds r.deeds).length = (joinedIds r.deeds).length
  ready : r.running = true → ∀ id, (∃ p, r.table.get? id = some p ∧ p.session.state = .ready) ↔
    .peerWelcome id ∈ events r.deeds ∧ .peerClose id ∉ events r.deeds
  running : r.running = true → .shutdown ∉ events r.deeds
  ended : r.running = false → ∃ early, events r.deeds = early ++ [.shutdown] ∧ .shutdown ∉ early

/-- Whoever came and was not closed is there as long as the run goes on. -/
theorem Ledger.there_iff (h : r.Ledger) (running : r.running = true) (id : PeerId) :
    (∃ p, r.table.get? id = some p) ↔ id ∈ joinedIds r.deeds ∧ id ∉ closedIds r.deeds := by
  constructor
  · rintro ⟨p, there⟩
    exact ⟨h.consistent.accounted.entered id p there, h.not_closed there⟩
  · rintro ⟨came, open_still⟩
    cases there : r.table.get? id with
    | some p => exact ⟨p, rfl⟩
    | none =>
      obtain ⟨q, gone, same⟩ := h.consistent.accounted.left id came there
      exact absurd (same ▸ h.gone_closed running q gone) open_still

/-- There are as many peers as came and were not closed. -/
theorem Ledger.size (h : r.Ledger) (running : r.running = true) :
    r.table.size + (closedIds r.deeds).length = (joinedIds r.deeds).length := by
  have all_nodup : (r.table.ids ++ closedIds r.deeds).Nodup := by
    refine List.nodup_append.2 ⟨r.table.nodup_ids, h.closed_nodup, ?_⟩
    rintro id there k closed rfl
    exact ((h.there_iff running id).1 (IdMap.mem_ids_iff.1 there)).2 closed
  have same : (r.table.ids ++ closedIds r.deeds).Perm (joinedIds r.deeds) := by
    refine (List.perm_ext_iff_of_nodup all_nodup h.consistent.accounted.joined_nodup).2 fun id => ?_
    rw [List.mem_append, IdMap.mem_ids_iff, h.there_iff running]
    constructor
    · rintro (⟨came, -⟩ | closed)
      · exact came
      · obtain ⟨q, gone, same⟩ := h.closed_gone id closed
        exact same ▸ (h.consistent.accounted.gone q gone).1
    · intro came
      by_cases closed : id ∈ closedIds r.deeds
      · exact Or.inr closed
      · exact Or.inl ⟨came, closed⟩
  have lengths := same.length_eq
  rwa [List.length_append, IdMap.length_ids] at lengths

theorem Introduced.mem_peerWelcome (h : r.Introduced) (id : PeerId) :
    .peerWelcome id ∈ events r.deeds ↔ (r.accepted id).isSome := by
  rw [← List.count_pos_iff, count_peerWelcome, h.welcomed]
  split <;> simp_all

theorem Introduced.chronicle (h : r.Introduced) (ledger : r.Ledger) (concluded : r.Concluded) :
    r.Chronicle := by
  have came {id : PeerId} (welcomed : .peerWelcome id ∈ events r.deeds) :
      id ∈ joinedIds r.deeds := by
    obtain ⟨info, accepted⟩ := Option.isSome_iff_exists.1 ((h.mem_peerWelcome id).1 welcomed)
    exact h.came id info (accepted_eq_some.1 accepted).1
  constructor
  case welcomed_once =>
    intro id
    rw [count_peerWelcome, h.welcomed]
    split <;> omega
  case closed_once =>
    intro id
    rw [count_peerClose]
    exact List.nodup_iff_count.1 ledger.closed_nodup id
  case welcomed_first =>
    intro id early late told welcomed
    have settled := ledger.settled
    rw [told, List.pairwise_append, List.pairwise_cons] at settled
    exact settled.2.1.1 _ welcomed id rfl rfl
  case known =>
    intro id welcomed
    cases there : r.table.get? id with
    | some p => exact ⟨p, Or.inl there⟩
    | none =>
      obtain ⟨q, gone⟩ := h.consistent.accounted.left id (came welcomed) there
      exact ⟨q, Or.inr gone⟩
  case there =>
    intro running id
    rw [ledger.there_iff running, mem_closedIds]
  case size => exact ledger.size
  case ready =>
    intro running id
    have there := ledger.there_iff running id
    rw [mem_closedIds] at there
    constructor
    · rintro ⟨p, held, ready⟩
      refine ⟨(h.mem_peerWelcome id).2 ?_, (there.1 ⟨p, held⟩).2⟩
      have state := h.state id p held
      rw [ready] at state
      split at state
      · assumption
      · cases state
    · rintro ⟨welcomed, still⟩
      obtain ⟨p, held⟩ := there.2 ⟨came welcomed, still⟩
      refine ⟨p, held, ?_⟩
      rw [h.state id p held, if_pos ((h.mem_peerWelcome id).1 welcomed)]
  case running => exact fun running => (concluded_running running).1 concluded
  case ended => exact fun ended => (concluded_ended ended).1 concluded

/-- Whoever has an identity was welcomed once, and nobody else was. -/
theorem Introduced.count_welcome (h : r.Introduced) {id : PeerId} {p : Peer} (hp : r.Known id p) :
    (events r.deeds).count (.peerWelcome id) = p.session.identity.isSome.toNat := by
  rw [count_peerWelcome, h.welcomed, h.identity id p hp]
  cases (r.accepted id).isSome <;> rfl

/-- **What the listeners were told is an exact account of the peers**, throughout a run and at its
end.  A welcome is told exactly when the session of a peer becomes ready: whatever calls have made
of it since the connection came, or in any later part of the run, it has been welcomed then as often
as the calls made it ready. -/
theorem event_history (config : ReactorConfig) (shared : Shared) (now : Nat)
    (stimuli more : List Stimulus) :
    let r := (start config shared now).run stimuli
    let s := (start config shared now).run (stimuli ++ more)
    r.Chronicle ∧
      (∀ id p, r.Known id p → ∃ calls, p.session = Session.start.after calls ∧
        (events r.deeds).count (.peerWelcome id) = Session.start.turnsReady calls) ∧
      ∀ id p, r.Known id p → ∃ q calls, s.Known id q ∧ q.session = p.session.after calls ∧
        (events s.deeds).count (.peerWelcome id) =
          (events r.deeds).count (.peerWelcome id) + p.session.turnsReady calls := by
  intro r s
  have introduced : r.Introduced := introduced_run config shared now stimuli
  have introduced' : s.Introduced := introduced_run config shared now (stimuli ++ more)
  have ledger : r.Ledger := kept_ledger.run (ledger_start config shared now) stimuli
  have concluded : r.Concluded :=
    Concluded.run stimuli ((concluded_running rfl).2 List.not_mem_nil)
      (consistent_start config shared now)
  refine ⟨introduced.chronicle ledger concluded, fun id p hp => ?_, fun id p hp => ?_⟩
  · obtain ⟨calls, hcalls⟩ := called_run config shared now stimuli hp
    refine ⟨calls, hcalls, ?_⟩
    rw [introduced.count_welcome hp, hcalls,
      Session.isSome_identity_after calls Session.sound_start, Session.turnsReady_eq_acceptances]
    exact Nat.zero_add _
  · obtain ⟨calls, hcalls⟩ := called_run config shared now stimuli hp
    have evolves : Evolves r s := by
      show Evolves r ((start config shared now).run (stimuli ++ more))
      rw [run_append]
      exact evolves_run introduced.consistent more
    obtain ⟨q, later, hq, hlater⟩ := evolves.onward id p hp
    have sound : p.session.Sound := hcalls ▸ Session.sound_start.after calls
    refine ⟨q, later, hq, hlater, ?_⟩
    rw [introduced'.count_welcome hq, introduced.count_welcome hp, hlater,
      Session.isSome_identity_after later sound, Session.turnsReady_eq_acceptances]

/-- A connection comes and introduces itself, which is told, so it is ready; it is then closed by
command, which is told too, and nobody is left. -/
theorem event_history_guest :
    let stranger : PeerInfo := { (default : PeerInfo) with uid := 7 }
    let idle : Means := ⟨0, .waiting [], [], []⟩
    let visit : List Stimulus := [.turn ⟨0, 0, .connection ⟨3⟩ .elsewhere, []⟩ idle,
      .turn ⟨0, 0, .none, [(⟨1⟩, .ok .read)]⟩
        { idle with incoming := .waiting (Message.peerInfo stranger).encode }]
    let dismissal : List Stimulus := [.request (.closePeer ⟨1⟩), .turn ⟨0, 0, .none, []⟩ idle]
    let r := (start default .empty 0).run visit
    let s := (start default .empty 0).run (visit ++ dismissal)
    events r.deeds = [.peerWelcome ⟨1⟩] ∧
      (∃ p, r.table.get? ⟨1⟩ = some p ∧ p.session.state = .ready) ∧
      events s.deeds = [.peerWelcome ⟨1⟩, .peerClose ⟨1⟩] ∧
      s.table.size + (closedIds s.deeds).length = (joinedIds s.deeds).length := by
  intro stranger idle visit dismissal r s
  have welcomed : events r.deeds = [.peerWelcome ⟨1⟩] := by decide +kernel
  have history := (event_history default .empty 0 visit dismissal).1
  have history' := (event_history default .empty 0 (visit ++ dismissal) []).1
  refine ⟨welcomed, (history.ready (by decide +kernel) ⟨1⟩).2 ?_, by decide +kernel,
    history'.size (by decide +kernel)⟩
  show _ ∈ events r.deeds ∧ _ ∉ events r.deeds
  simp [welcomed]

end Reactor

end GossipNode
