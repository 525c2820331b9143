import GossipNode.Proofs.Duet.Party

/-!
# What one node hears of what the other says

Two nodes have one connection with each other.  What the one has said to the other is, from the
first byte on, what the other has acted upon, what it has read and not decoded, what it has not
read, and what the socket has not even taken.  This holds whatever each of them does, in whatever
portions the bytes arrive, up to the turn in which the connection is let go; and it tells why that
happens.

## Main definitions

* `Reactor.inFlight` — the bytes on their way from one node to the other.
* `Reactor.Awaits` — what has been said and not been acted upon is buffered or unread.
* `Reactor.Hears` — a node acts upon what the other says, and upon nothing else.

## Main results

* `Reactor.Hears.grow` — a node hears what the other says as it goes on.
* `Reactor.Hears.turn` — **a node goes on hearing, and lets the connection go only over something it
  has heard, or after the other node.**
-/

namespace GossipNode

/-- A buffer that holds less than the next envelope does so whatever is said later. -/
theorem Short.append {buffer missing : Bytes} {es : List Envelope} (h : Short buffer es)
    (stream : buffer ++ missing = renderAll es) (fs : List Envelope) : Short buffer (es ++ fs) := by
  cases es with
  | nil =>
    rw [(List.append_eq_nil_iff.1 stream).1]
    exact short_nil _
  | cons e es => exact h

namespace Reactor

/-- The bytes on their way from one node to the other: the socket has taken them and they have not
been read. -/
def inFlight (far near : Reactor) : Bytes :=
  (wroteTo .first far.deeds).drop (bytesRead .first near.deeds)

/-- What the one node has said, as the other one hears it. -/
def sayings (far : Reactor) : List Envelope := (sentTo .first far.deeds).map Message.envelope

/-- A peer is there, and what the other side has said beyond what has been acted upon is buffered or
has not been read.  If the next envelope is buffered the peer has been put back. -/
structure Awaits (far near : Reactor) (p : Peer) (rest : List Envelope) : Prop where
  there : near.table.get? .first = some p
  split : far.sayings = dispatchedTo .first near.deeds ++ rest
  stream : p.session.inbound ++ (renderAll far.sayings).drop (bytesRead .first near.deeds) =
    renderAll rest
  arrived : bytesRead .first near.deeds ≤ (wroteTo .first far.deeds).length
  due : Short p.session.inbound rest ∨ .first ∈ near.mux.pending

/-- A node acts upon what the other says, in order, and upon nothing else. -/
structure Hears (far near : Reactor) : Prop where
  heard : dispatchedTo .first near.deeds <+: far.sayings
  awaits : ∀ p, near.table.get? .first = some p → ∃ rest, Awaits far near p rest

variable {far far' near s : Reactor} {p : Peer} {rest : List Envelope}

/-! ### The other node goes on -/

/-- What the socket has taken is the beginning of what was said. -/
theorem Balanced.sayings (h : far.Balanced) :
    wroteTo .first far.deeds <+: renderAll far.sayings := by
  have written := h.prefix .first
  rwa [encodeAll_eq] at written

theorem Awaits.grow (h : Awaits far near p rest) (balanced : far.Balanced) {new : List Deed}
    (deeds : far'.deeds = new ++ far.deeds) :
    Awaits far' near p (rest ++ (sentTo .first new).map Message.envelope) := by
  have said : far'.sayings = far.sayings ++ (sentTo .first new).map Message.envelope := by
    rw [sayings, deeds, sentTo_append, List.map_append, sayings]
  have within : bytesRead .first near.deeds ≤ (renderAll far.sayings).length :=
    Nat.le_trans h.arrived balanced.sayings.length_le
  constructor
  case there => exact h.there
  case split => rw [said, h.split, List.append_assoc]
  case stream =>
    rw [said, renderAll_append, List.drop_append_of_le_length within, ← List.append_assoc, h.stream,
      renderAll_append]
  case arrived =>
    rw [deeds, wroteTo_append, List.length_append]
    exact Nat.le_add_right_of_le h.arrived
  case due => exact h.due.imp_left fun short => short.append h.stream _

/-- **A node hears what the other says as it goes on.** -/
theorem Hears.grow (h : Hears far near) (balanced : far.Balanced)
    (deeds : ∃ new, far'.deeds = new ++ far.deeds) : Hears far' near := by
  obtain ⟨new, hnew⟩ := deeds
  constructor
  case heard =>
    refine h.heard.trans ?_
    rw [sayings, sayings, hnew, sentTo_append, List.map_append]
    exact List.prefix_append _ _
  case awaits =>
    intro p there
    obtain ⟨rest, awaits⟩ := h.awaits p there
    exact ⟨_, awaits.grow balanced hnew⟩

/-! ### The node goes on -/

/-- Nothing new is heard where input is left alone. -/
theorem Hears.quiet (h : Hears far near) (fed : Fed .first near s [] 0)
    (entry : ∀ q, s.table.get? .first = some q → ∃ p, near.table.get? .first = some p ∧
      q.session.inbound = p.session.inbound)
    (pending : .first ∈ near.mux.pending → .first ∈ s.mux.pending) : Hears far s := by
  have dispatched := fed.dispatched
  have read := fed.read
  rw [List.append_nil] at dispatched
  rw [Nat.add_zero] at read
  refine ⟨dispatched ▸ h.heard, fun q there => ?_⟩
  obtain ⟨p, there', inbound⟩ := entry q there
  obtain ⟨rest, awaits⟩ := h.awaits p there'
  refine ⟨rest, there, ?_, ?_, ?_, ?_⟩
  · rw [dispatched]
    exact awaits.split
  · rw [inbound, read]
    exact awaits.stream
  · rw [read]
    exact awaits.arrived
  · rw [inbound]
    exact awaits.due.imp_right pending

theorem Untouched.hasLeft (h : Untouched .first near s) : s.hasLeft = near.hasLeft := by
  obtain ⟨new, deeds, about⟩ := h.deeds
  refine Bool.eq_iff_iff.2 ?_
  rw [hasLeft_iff, hasLeft_iff, deeds]
  constructor
  · rintro ⟨q, hq, same⟩
    refine ⟨q, (List.mem_append.1 hq).resolve_left fun recent => ?_, same⟩
    exact about _ recent (congrArg some same)
  · rintro ⟨q, hq, same⟩
    exact ⟨q, List.mem_append_right new hq, same⟩

theorem Hears.untouched (h : Hears far near) (untouched : Untouched .first near s) :
    Hears far s :=
  h.quiet untouched.toSpares.fed (fun q there => ⟨q, untouched.entry.symm.trans there, rfl⟩)
    untouched.pending.2

/-- A node whose peer has not been let go hears what it waits for. -/
theorem Awaits.hears (h : Awaits far s p rest) : Hears far s := by
  refine ⟨⟨rest, h.split.symm⟩, fun q there => ?_⟩
  cases h.there.symm.trans there
  exact ⟨rest, h⟩

/-- A node that has let the connection go hears nothing more. -/
theorem hears_gone (heard : dispatchedTo .first s.deeds <+: far.sayings)
    (gone : s.table.get? .first = none) : Hears far s := by
  refine ⟨heard, fun q there => ?_⟩
  rw [gone] at there
  cases there

/-- Nothing has been read from a connection of which nothing is on record. -/
theorem input_unheard {deeds : List Deed} (unheard : ∀ d ∈ deeds, d.about ≠ some .first) :
    dispatchedTo .first deeds = [] ∧ bytesRead .first deeds = 0 := by
  have quiet : ∀ d ∈ deeds, d.dispatched? .first = none ∧ d.amount? .first = none :=
    fun d hd => quiet_of_about (unheard d hd)
  constructor
  · rw [dispatchedTo, List.filterMap_eq_nil_iff.2 fun d hd => (quiet d hd).1]
    rfl
  · rw [bytesRead, List.filterMap_eq_nil_iff.2 fun d hd => (quiet d hd).2]
    rfl

/-- On a connection that is taken over nothing has been heard yet. -/
theorem hears_insert (far near : Reactor)
    (unheard : ∀ d ∈ near.deeds, d.about ≠ some .first) (number : near.nextId = .first)
    (socket : SocketId) (remote : SocketAddress) (direction : Direction) (dialed : Option String)
    (now : Nat) : Hears far (near.insertPeer socket remote direction dialed now) := by
  obtain ⟨none_acted, none_read⟩ := input_unheard unheard
  have deeds := deeds_insertPeer near socket remote direction dialed now
  have dispatched : dispatchedTo .first
      (near.insertPeer socket remote direction dialed now).deeds = [] := by
    rw [deeds]
    exact none_acted
  have read : bytesRead .first (near.insertPeer socket remote direction dialed now).deeds = 0 := by
    rw [deeds]
    exact none_read
  have there := (get?_insertPeer near socket remote direction dialed now .first).trans
    (if_pos number)
  refine Awaits.hears ⟨there, ?_, ?_, ?_, Or.inl (short_nil far.sayings)⟩
  · rw [dispatched, List.nil_append]
  · rw [read]
    rfl
  · rw [read]
    exact Nat.zero_le _

section Served

variable {sight : Sight} {means : Means}

/-- Introducing the node leaves what it hears as it is. -/
theorem Hears.greet (h : Hears far near) (consistent : near.Consistent)
    (there : near.table.get? .first = some p)
    (due : (near.wait sight).1 = some (.control (some (.sendHandshake .first))))
    (willing : Willing means.writes) :
    Hears far ((near.wait sight).2.greet .first means.writes) ∧
      ∃ q, ((near.wait sight).2.greet .first means.writes).table.get? .first = some q := by
  have same := consistent.keyed .first p there
  have held : (near.wait sight).2.Holds p := consistent.holds there
  obtain ⟨⟨q, there', inbound, mux⟩, fed⟩ :=
    greet_spec held (consistent.talking .first p there) willing
  rw [same] at there' mux fed
  refine ⟨h.quiet ⟨fed.dispatched, fed.read⟩ (fun q' there'' => ⟨p, there, ?_⟩) fun waiting => ?_,
    q, there'⟩
  · rw [there'] at there''
    cases there''
    exact inbound
  · rw [mux]
    have watched := (consistent.isRegistered_iff .first).2 ⟨p, there⟩
    refine (wait_pending sight watched waiting).resolve_right fun busy => ?_
    rw [due] at busy
    cases busy

/-- The envelopes of a node that has had no more than one connection are small enough to leave room
for a chunk. -/
theorem Candid.small (h : Candid .first far) (few : (joinedIds far.deeds).length ≤ 1) :
    ∀ e ∈ far.sayings, e.render.length + readChunk ≤ maxMessageSize := by
  intro e he
  obtain ⟨m, hm, rfl⟩ := List.mem_map.1 he
  have bound : m.envelope.render.length ≤ 54 * (joinedIds far.deeds).length + 1024 :=
    (h.warranted m hm).length_encode
  have chunk : readChunk = 4096 := rfl
  have most : maxMessageSize = 1048576 := rfl
  omega

/-- The conversation goes on after some envelopes have been acted upon and some bytes read. -/
theorem Awaits.onward (h : Awaits far near p rest) {es more : List Envelope} {n : Nat} {q : Peer}
    (split : rest = es ++ more) (fed : Fed .first near s es n)
    (there : s.table.get? .first = some q) (arrived : n ≤ (inFlight far near).length)
    (stream : q.session.inbound ++
      ((renderAll far.sayings).drop (bytesRead .first near.deeds)).drop n = renderAll more)
    (due : Short q.session.inbound more ∨ .first ∈ s.mux.pending) : Awaits far s q more := by
  refine ⟨there, ?_, ?_, ?_, due⟩
  · rw [fed.dispatched, List.append_assoc, ← split]
    exact h.split
  · rw [fed.read, ← List.drop_drop]
    exact stream
  · have most := h.arrived
    rw [inFlight, List.length_drop] at arrived
    rw [fed.read]
    omega

/-- A peer that is served is heard, and is let go only over something that was heard or after the
other node. -/
theorem Hears.serve (h : Hears far near) (consistent : near.Consistent) (balanced : far.Balanced)
    (small : ∀ e ∈ far.sayings, e.render.length + readChunk ≤ maxMessageSize)
    (there : near.table.get? .first = some p) {ready : Readiness}
    (due : (near.wait sight).1 = some (.peer .first ready))
    (fits : means.incoming.Fits (inFlight far near) far.hasLeft) (willing : Willing means.writes) :
    Hears far ((near.wait sight).2.serve .first ready means) ∧
      (((near.wait sight).2.serve .first ready means).table.get? .first = none →
        (∃ e ∈ dispatchedTo .first ((near.wait sight).2.serve .first ready means).deeds,
          near.config.closes e = true) ∨ far.hasLeft = true) := by
  obtain ⟨rest, awaits⟩ := h.awaits p there
  obtain ⟨behind, written⟩ := balanced.sayings
  -- What has not been read is in flight, or is still due to the socket.
  have split : (renderAll far.sayings).drop (bytesRead .first near.deeds) =
      inFlight far near ++ behind := by
    rw [← written, List.drop_append_of_le_length awaits.arrived, inFlight]
  have within : ∀ e ∈ rest, e ∈ far.sayings := by
    intro e he
    rw [awaits.split]
    exact List.mem_append_right _ he
  have plain : ∀ e ∈ rest, e.isPlain = true := by
    intro e he
    obtain ⟨m, -, rfl⟩ := List.mem_map.1 (within e he)
    exact m.isPlain_envelope
  have outcome := serve_hearing consistent there plain (fun e he => small e (within e he))
    (split ▸ awaits.stream) awaits.due due fits willing
  generalize (near.wait sight).2.serve .first ready means = s at outcome ⊢
  cases outcome with
  | @acted e more left n first arrived stream served =>
    rw [← split] at stream
    have heard : far.sayings = dispatchedTo .first s.deeds ++ more := by
      rw [served.fed.dispatched, List.append_assoc, awaits.split, first]
      rfl
    cases closes : near.config.closes e with
    | true =>
      refine ⟨hears_gone ⟨more, heard.symm⟩ (served.closed closes), fun _ =>
        Or.inl ⟨e, ?_, closes⟩⟩
      rw [served.fed.dispatched]
      exact List.mem_append_right _ (List.mem_singleton.2 rfl)
    | false =>
      obtain ⟨q, there', rfl, due'⟩ := served.due closes more
      have awaits' := awaits.onward first served.fed there' arrived stream due'
      exact ⟨awaits'.hears, fun gone => by cases gone.symm.trans there'⟩
  | @kept q n there' arrived stream due' fed =>
    rw [← split] at stream
    have awaits' := awaits.onward (List.nil_append rest).symm fed there' arrived stream due'
    exact ⟨awaits'.hears, fun gone => by cases gone.symm.trans there'⟩
  | parted ended all whole gone fed =>
    have dispatched := fed.dispatched
    rw [List.append_nil] at dispatched
    exact ⟨hears_gone (dispatched ▸ h.heard) gone, fun _ => Or.inr ended⟩

/-- **A node goes on hearing**, if nothing gets into the way of its turns, **and lets the connection
go only over something it has heard, or after the other node.** -/
theorem Hears.turn {config : ReactorConfig} {direction : Direction} {came : Bool}
    (h : Hears far near) (party : Party config direction came near) (balanced : far.Balanced)
    (small : ∀ e ∈ far.sayings, e.render.length + readChunk ≤ maxMessageSize)
    (suits : (Stimulus.turn sight means).Suits .first (inFlight far near) far.hasLeft near)
    (alone : ∀ socket remote, (near.wait sight).1 ≠ some (.accept socket remote)) :
    Hears far (near.turn sight means) ∧ ((near.turn sight means).hasLeft = true →
      near.hasLeft = true ∨ (∃ e ∈ dispatchedTo .first (near.turn sight means).deeds,
        config.closes e = true) ∨ far.hasLeft = true) := by
  have consistent := party.consistent
  have gone := (party.turn suits alone).absent
  have happens := party.toSole.happens party.running suits
  have due {w : Wakeup} (busy : (near.wait sight).1 = some w) := suits w busy
  generalize near.turn sight means = s at gone happens ⊢
  cases happens with
  | accepts due => exact absurd due (alone _ _)
  | passes h' =>
    refine ⟨h.untouched h'.toUntouched, fun left => Or.inl ?_⟩
    rw [← h'.toUntouched.hasLeft]
    exact left
  | @adopts socket remote address commands =>
    have waits : .adopt socket remote address ∈ near.queue.commands := by
      rw [commands]
      exact List.mem_cons_self
    obtain ⟨-, -, -, none_came⟩ := party.alone_of_adopt waits rfl
    have number : (near.wait sight).2.nextId = .first := party.nextId none_came
    refine ⟨hears_insert far (near.wait sight).2 (party.unheard none_came) number ..,
      fun left => ?_⟩
    have nobody := (gone left).2
    rw [get?_insertPeer, if_pos number] at nobody
    cases nobody
  | @greets p there busy =>
    obtain ⟨hears, q, there'⟩ := h.greet consistent there busy (due busy rfl)
    refine ⟨hears, fun left => ?_⟩
    have nobody := (gone left).2
    rw [there'] at nobody
    cases nobody
  | @serves p ready there busy =>
    obtain ⟨fits, willing⟩ := due busy rfl
    obtain ⟨hears, reason⟩ := h.serve consistent balanced small there busy fits willing
    rw [party.config_eq] at reason
    exact ⟨hears, fun left => Or.inr (reason (gone left).2)⟩

end Served

end Reactor

end GossipNode
