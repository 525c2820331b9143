import GossipNode.Proofs.Reactor.Batching
import GossipNode.Proofs.Reactor.Gossip
import GossipNode.Proofs.Reactor.Search

/-!
# Buffers under a flood

What a peer sends is read into a buffer until it can be decoded, and the peer decides how much it
sends and how fast.  The node reads only where the buffer holds no whole envelope, one chunk at a
time, and puts a peer back as long as there is something to decode.  So the buffer stays small,
however much is sent: it never holds more than a part of one envelope and the chunk read behind it.

## Main definitions

* `readings` — what the record says about reading.
* `grownTo` — the size of a buffer when it has been read into.
* `Reactor.Unfed` — nothing is read and nothing is decoded.
* `Reactor.Asked` — what serving a peer comes to.
* `Reactor.Feeds` — what is taken in when something happens.
* `Reactor.Flood` — a peer sends and sends, and anything else may happen.
* `Reactor.Weathers` — what the peer meets with meanwhile.

## Main results

* `Session.intake_room` — taking input from a stream of short envelopes needs little room.
* `Reactor.serve_asked` — serving a peer takes input from it once at most.
* `Reactor.Flooded.react` — a flood stays within its bounds, whatever happens.
* `Reactor.buffers_bounded` — **no buffer is ever larger than the largest message**, no step reads
  more than a chunk, and the buffer of a peer that sends short envelopes stays short.
-/

namespace GossipNode

/-! ### Readings on record -/

/-- The reading that something on record tells of, with the peer it was made from. -/
def Deed.reading? : Deed → Option (PeerId × Except PeerError ReadOutcome)
  | .read id outcome => some (id, outcome)
  | _ => none

/-- The readings that were made, with the peers they were made from, in order. -/
def readings (deeds : List Deed) : List (PeerId × Except PeerError ReadOutcome) :=
  (deeds.filterMap Deed.reading?).reverse

/-- The number of bytes that a reading has brought. -/
def amountOf : Except PeerError ReadOutcome → Nat
  | .ok (.data n) => n
  | _ => 0

/-- How many bytes some readings have brought from a peer. -/
def broughtBy (id : PeerId) : List (PeerId × Except PeerError ReadOutcome) → Nat
  | [] => 0
  | (k, outcome) :: later => (if k = id then amountOf outcome else 0) + broughtBy id later

/-- The size of a buffer when it has been read into, if it held so many bytes before. -/
def grownTo (before : Nat) : Except PeerError ReadOutcome → Nat
  | .ok (.data n) => before + n
  | .error (.decode (.oversized size _)) => size
  | _ => before

theorem readings_append (new deeds : List Deed) :
    readings (new ++ deeds) = readings deeds ++ readings new := by
  simp [readings]

theorem readings_quiet {new : List Deed} (h : ∀ d ∈ new, d.reading? = none) (deeds : List Deed) :
    readings (new ++ deeds) = readings deeds := by
  have nothing : readings new = [] := by
    rw [readings, List.filterMap_eq_nil_iff.2 h]
    rfl
  rw [readings_append, nothing, List.append_nil]

theorem broughtBy_append (id : PeerId) (xs ys : List (PeerId × Except PeerError ReadOutcome)) :
    broughtBy id (xs ++ ys) = broughtBy id xs + broughtBy id ys := by
  induction xs with
  | nil => exact (Nat.zero_add _).symm
  | cons x xs ih => rw [List.cons_append, broughtBy, broughtBy, ih, Nat.add_assoc]

/-- What was read from a peer is what the readings have brought from it. -/
theorem bytesRead_eq (id : PeerId) (deeds : List Deed) :
    bytesRead id deeds = broughtBy id (readings deeds) := by
  have each (d : Deed) : broughtBy id d.reading?.toList = (d.amount? id).getD 0 := by
    unfold Deed.amount? Deed.reading?
    cases d with
    | read k outcome =>
      cases outcome with
      | error error => exact ite_self 0
      | ok outcome =>
        cases outcome with
        | data n =>
          simp only [Option.toList_some, broughtBy, amountOf, Nat.add_zero]
          split <;> rfl
        | wouldBlock => exact ite_self 0
        | ended => exact ite_self 0
    | _ => rfl
  -- The record has what was done last first, and the readings come in order.
  induction deeds with
  | nil => rfl
  | cons d deeds ih =>
    have newest : readings (d :: deeds) = readings deeds ++ d.reading?.toList := by
      cases reading : d.reading? <;> simp [readings, reading]
    rw [newest, broughtBy_append, each, ← ih, bytesRead, bytesRead, List.filterMap_cons]
    cases d.amount? id with
    | none => rfl
    | some n => exact Nat.add_comm n _

theorem bytesRead_readings {xs : List (PeerId × Except PeerError ReadOutcome)}
    {deeds later : List Deed} (h : readings later = readings deeds ++ xs) (id : PeerId) :
    bytesRead id later = bytesRead id deeds + broughtBy id xs := by
  rw [bytesRead_eq, bytesRead_eq, h, broughtBy_append]

/-! ### Taking input once -/

namespace Session

variable {s : Session} {incoming : Incoming}

/-- Decoding makes a buffer no larger. -/
theorem length_nextEnvelope_le (s : Session) :
    s.nextEnvelope.2.inbound.length ≤ s.inbound.length := by
  show (takeEnvelope s.inbound).2.length ≤ s.inbound.length
  unfold takeEnvelope
  split
  · next e used _ =>
    rw [List.length_drop]
    exact Nat.sub_le _ _
  · exact Nat.le_refl _
  · exact Nat.le_refl _

/-- What is said of a reading tells how large the buffer is. -/
theorem grownTo_fill (s : Session) (incoming : Incoming) :
    grownTo s.inbound.length (s.fill incoming).1 = (s.fill incoming).2.inbound.length := by
  unfold fill
  split
  · rfl
  · simp only
    split
    · rfl
    · rw [grownTo, List.length_append]
  · rfl
  · rfl

/-- A reading brings a chunk at most. -/
theorem length_fill_le (s : Session) (incoming : Incoming) :
    (s.fill incoming).2.inbound.length ≤ s.inbound.length + readChunk := by
  unfold fill
  split
  · exact Nat.le_add_right _ _
  · simp only [List.length_append]
    exact Nat.add_le_add_left (List.length_take_le _ _) _
  · exact Nat.le_add_right _ _
  · exact Nat.le_add_right _ _

/-- Where reading does not fail the buffer is no larger than the largest message. -/
theorem length_fill_of_ok (small : s.inbound.length ≤ maxMessageSize) {outcome : ReadOutcome}
    (read : (s.fill incoming).1 = .ok outcome) :
    (s.fill incoming).2.inbound.length ≤ maxMessageSize := by
  unfold fill at read ⊢
  split at read
  · exact small
  · simp only at read ⊢
    split at read
    · cases read
    · next room => exact Nat.le_of_not_lt room
  · exact small
  · exact small

/-- If a peer is kept its buffer is no larger than the largest message. -/
theorem length_intake_of_sound (small : s.inbound.length ≤ maxMessageSize)
    (sound : (s.intake incoming).1.isSound = true) :
    (s.intake incoming).2.inbound.length ≤ maxMessageSize := by
  unfold intake at sound ⊢
  split
  · next short =>
    rw [short] at sound
    simp only at sound ⊢
    cases read : (s.fill incoming).1 with
    | error error =>
      rw [read] at sound
      cases sound
    | ok outcome =>
      have full := length_fill_of_ok small read
      have decoded := length_nextEnvelope_le (s.fill incoming).2
      cases outcome with
      | ended => exact full
      | data n => exact Nat.le_trans decoded full
      | wouldBlock => exact Nat.le_trans decoded full
  · exact Nat.le_trans (length_nextEnvelope_le s) small

end Session

/-- What a socket holds, if it holds anything, is some of what the other side has sent and has not
been read. -/
def Incoming.Arrives (unread : Bytes) : Incoming → Prop
  | .waiting bytes => bytes <+: unread
  | .ended | .failed _ => True

/-- What happens gives a peer to read only what has been sent. -/
def Stimulus.Arrives (id : PeerId) (unread : Bytes) (r : Reactor) :
    Stimulus → Prop
  | .turn sight means =>
    ∀ ready, (r.wait sight).1 = some (.peer id ready) → means.incoming.Arrives unread
  | _ => True

/-- No envelope is longer than `limit`, and all of them have one spelling and are not too deep. -/
def Modest (limit : Nat) (items : List Envelope) : Prop :=
  ∀ e ∈ items, e.isPlain = true ∧ e.render.length ≤ limit

instance (limit : Nat) (items : List Envelope) : Decidable (Modest limit items) :=
  inferInstanceAs (Decidable (∀ e ∈ items, e.isPlain = true ∧ e.render.length ≤ limit))

namespace Session

variable {s : Session} {incoming : Incoming} {limit : Nat} {items : List Envelope} {unread : Bytes}

/-- There is room for taking input: if the socket is read the buffer stays within the bound, and
bytes are not too many and can be decoded. -/
structure Roomy (bound : Nat) (s : Session) (incoming : Incoming) : Prop where
  filled : s.isShort = true → (s.fill incoming).2.inbound.length ≤ bound
  sound : ∀ bytes, incoming = .waiting bytes → (s.intake incoming).1.isSound = true

/-- The first envelope of a stream is taken off the buffer if it is there whole; otherwise the
buffer is shorter than any envelope may be. -/
theorem nextEnvelope_modest (modest : Modest limit items) (room : limit ≤ maxMessageSize)
    (stream : s.inbound ++ unread = renderAll items) :
    (s.nextEnvelope = (.ok none, s) ∧ (s.inbound.length < limit ∨ s.inbound = [] ∧ unread = [])) ∨
      ∃ e rest left, items = e :: rest ∧ left ++ unread = renderAll rest ∧
        s.nextEnvelope = (.ok (some e), { s with inbound := left }) := by
  have plain : ∀ e ∈ items, e.isPlain = true := fun e he => (modest e he).1
  have small : ∀ e ∈ items, e.render.length ≤ maxMessageSize := fun e he =>
    Nat.le_trans (modest e he).2 room
  rcases decodeOne_stream plain small stream with
    ⟨none_yet, short⟩ | ⟨e, rest, left, rfl, inbound, further, found⟩
  · refine Or.inl ⟨nextEnvelope_none none_yet, ?_⟩
    cases items with
    | nil => exact Or.inr (List.append_eq_nil_iff.1 stream)
    | cons e rest =>
      exact Or.inl (Nat.lt_of_lt_of_le (short e rfl) (modest e List.mem_cons_self).2)
  · refine Or.inr ⟨e, rest, left, rfl, further, ?_⟩
    rw [nextEnvelope_found found, inbound, List.drop_left]

/-- Of what a socket holds no more than a chunk matters. -/
theorem fill_take (s : Session) (bytes : Bytes) :
    s.fill (.waiting bytes) = s.fill (.waiting (bytes.take readChunk)) := by
  cases bytes with
  | nil => rfl
  | cons b bs =>
    have first : (b :: bs).take readChunk = b :: bs.take (readChunk - 1) := rfl
    rw [first, fill, fill, ← first, List.take_take, Nat.min_self] <;>
      exact fun empty => by cases empty

theorem intake_take (s : Session) (bytes : Bytes) :
    s.intake (.waiting bytes) = s.intake (.waiting (bytes.take readChunk)) := by
  unfold intake
  simp only [perform]
  rw [fill_take]

/-- The reading that taking input makes, if it makes one. -/
def draws (s : Session) (incoming : Incoming) : List (Except PeerError ReadOutcome) :=
  if s.isShort then [(s.fill incoming).1] else []

theorem mem_draws {outcome : Except PeerError ReadOutcome} (drawn : outcome ∈ s.draws incoming) :
    s.isShort = true ∧ outcome = (s.fill incoming).1 := by
  unfold draws at drawn
  split at drawn
  · next short => exact ⟨short, List.mem_singleton.1 drawn⟩
  · cases drawn

/-- How many bytes taking input reads. -/
def drawn (s : Session) (incoming : Incoming) : Nat :=
  if s.isShort then amountOf (s.fill incoming).1 else 0

/-- The readings that taking input makes are made from the peer alone. -/
theorem broughtBy_draws (s : Session) (incoming : Incoming) (k id : PeerId) :
    broughtBy k ((s.draws incoming).map (id, ·)) = if id = k then s.drawn incoming else 0 := by
  unfold draws drawn
  split
  · exact Nat.add_zero _
  · exact (ite_self 0).symm

/-- What is left after input has been taken from a stream of envelopes. -/
structure Leaves (bound : Nat) (items : List Envelope) (unread : Bytes) (s : Session)
    (incoming : Incoming) : Prop where
  /-- The buffer and what has not been read are the envelopes that have not been taken. -/
  stream : ∃ rest, rest <:+ items ∧ (s.intake incoming).2.inbound ++
    unread.drop (s.drawn incoming) = renderAll rest
  few : (s.intake incoming).2.inbound.length ≤ bound

/-- Taking input where an envelope has been read already. -/
theorem roomy_found {bound : Nat} {t : Session} {e : Envelope} {rest : List Envelope}
    (found : s.nextEnvelope = (.ok (some e), t)) (few : s.inbound.length ≤ bound)
    (first : items = e :: rest) (stream : t.inbound ++ unread = renderAll rest)
    (incoming : Incoming) : Roomy bound s incoming ∧ Leaves bound items unread s incoming := by
  obtain ⟨taken, long⟩ := intake_found found incoming
  have fewer := length_nextEnvelope_le s
  rw [found] at fewer
  constructor
  · refine ⟨fun short => ?_, fun _ _ => ?_⟩
    · rw [long] at short
      cases short
    · rw [taken]
      rfl
  · constructor
    · refine ⟨rest, first ▸ List.suffix_cons e rest, ?_⟩
      rw [taken, drawn, long]
      exact stream
    · rw [taken]
      exact Nat.le_trans fewer few

/-- Taking input where only a part of an envelope has been read, and some more of the stream has
arrived. -/
theorem roomy_piece (modest : Modest limit items) (room : limit + readChunk ≤ maxMessageSize)
    (short : s.nextEnvelope = (.ok none, s)) {piece later : Bytes}
    (chunk : piece.length ≤ readChunk)
    (few : s.inbound.length + piece.length ≤ limit + readChunk - 1)
    (stream : s.inbound ++ (piece ++ later) = renderAll items) :
    Roomy (limit + readChunk - 1) s (.waiting piece) ∧
      Leaves (limit + readChunk - 1) items (piece ++ later) s (.waiting piece) := by
  have all : piece.take readChunk = piece := List.take_of_length_le chunk
  let t : Session := { s with inbound := s.inbound ++ piece }
  obtain ⟨taken, isShort⟩ := intake_piece short chunk (by omega) (t := t) rfl
  have filled : (s.fill (.waiting piece)).2 = t ∧
      amountOf (s.fill (.waiting piece)).1 = piece.length := by
    rcases fill_waiting (s := s) piece (by rw [all]; omega) with ⟨rfl, blocked⟩ | full
    · rw [blocked]
      exact ⟨by simp [t], rfl⟩
    · rw [full, all]
      exact ⟨rfl, rfl⟩
  have size : t.inbound.length = s.inbound.length + piece.length := List.length_append
  have amount : (piece ++ later).drop (s.drawn (.waiting piece)) = later := by
    rw [drawn, if_pos isShort, filled.2, List.drop_left]
  have decoded := length_nextEnvelope_le t
  have further : t.inbound ++ later = renderAll items := by
    rw [← stream, ← List.append_assoc]
  have outcome : (Intake.ofDecoded t.nextEnvelope.1).isSound = true ∧
      ∃ rest, rest <:+ items ∧ t.nextEnvelope.2.inbound ++ later = renderAll rest := by
    rcases nextEnvelope_modest modest (Nat.le_trans (Nat.le_add_right _ _) room) further with
      ⟨still, -⟩ | ⟨e, rest, left, rfl, more, found⟩
    · rw [still]
      exact ⟨rfl, items, List.suffix_rfl, further⟩
    · rw [found]
      exact ⟨rfl, rest, List.suffix_cons e rest, more⟩
  constructor
  · refine ⟨fun _ => ?_, fun _ _ => ?_⟩
    · rw [filled.1, size]
      exact few
    · rw [taken]
      exact outcome.1
  · constructor
    · rw [amount, taken]
      exact outcome.2
    · rw [taken]
      exact Nat.le_trans decoded (size ▸ few)

/-- Of what has arrived no more than a chunk makes a difference. -/
theorem room_take {bound : Nat} {bytes : Bytes}
    (h : Roomy bound s (.waiting (bytes.take readChunk)) ∧
      Leaves bound items unread s (.waiting (bytes.take readChunk))) :
    Roomy bound s (.waiting bytes) ∧ Leaves bound items unread s (.waiting bytes) := by
  obtain ⟨⟨filled, sound⟩, ⟨stream, few⟩⟩ := h
  rw [← intake_take] at sound stream few
  rw [← fill_take] at filled
  rw [drawn, ← fill_take] at stream
  exact ⟨⟨filled, fun _ _ => sound _ rfl⟩, ⟨stream, few⟩⟩

/-- **Taking input from a stream of short envelopes needs little room**, and the peer goes on with
the stream if it is kept. -/
theorem intake_room (modest : Modest limit items) (room : limit + readChunk ≤ maxMessageSize)
    (stream : s.inbound ++ unread = renderAll items)
    (few : s.inbound.length ≤ limit + readChunk - 1) (arrives : incoming.Arrives unread) :
    Roomy (limit + readChunk - 1) s incoming ∧
      ((s.intake incoming).1.isSound = true →
        Leaves (limit + readChunk - 1) items unread s incoming) := by
  rcases nextEnvelope_modest modest (Nat.le_trans (Nat.le_add_right _ _) room) stream with
    ⟨short, small⟩ | ⟨e, rest, left, first, further, found⟩
  · cases incoming with
    | waiting bytes =>
      -- The buffer holds less than an envelope, and a chunk of what has arrived is added to it.
      obtain ⟨later, rfl⟩ := (List.take_prefix readChunk bytes).trans arrives
      have chunk := List.length_take_le readChunk bytes
      have grown : s.inbound.length + (bytes.take readChunk).length ≤ limit + readChunk - 1 := by
        rcases small with small | ⟨nothing, none_left⟩
        · omega
        · rw [(List.append_eq_nil_iff.1 none_left).1]
          exact few
      have both := room_take (roomy_piece modest room short chunk grown stream)
      exact ⟨both.1, fun _ => both.2⟩
    | ended =>
      have parted : s.intake .ended = (.ended, s) := by
        simp only [intake, short, fill, perform]
      refine ⟨⟨fun _ => few, fun _ waits => by cases waits⟩, fun sound => ?_⟩
      rw [parted] at sound
      cases sound
    | failed why =>
      have broken : s.intake (.failed why) = (.failed (.io why), s) := by
        simp only [intake, short, fill, perform]
      refine ⟨⟨fun _ => few, fun _ waits => by cases waits⟩, fun sound => ?_⟩
      rw [broken] at sound
      cases sound
  · have both := roomy_found found few first further incoming
    exact ⟨both.1, fun _ => both.2⟩

end Session

namespace Reactor

variable {r s t : Reactor} {p : Peer} {stimulus : Stimulus}

/-! ### Nothing is taken in -/

/-- Nothing is read and nothing is decoded: whoever is there was there before, with the same
bytes. -/
structure Unfed (r s : Reactor) : Prop where
  entry : ∀ {k q}, s.table.get? k = some q →
    ∃ p, r.table.get? k = some p ∧ p.session.inbound = q.session.inbound
  read : readings s.deeds = readings r.deeds

theorem Unfed.trans (h : Unfed r s) (h' : Unfed s t) : Unfed r t where
  entry there := by
    obtain ⟨q, there', same'⟩ := h'.entry there
    obtain ⟨p, there, same⟩ := h.entry there'
    exact ⟨p, there, same.trans same'⟩
  read := h'.read.trans h.read

/-- The same peers are there, and no reading is put on record. -/
theorem unfed_same (table : ∀ k, s.table.get? k = r.table.get? k) (new : List Deed)
    (deeds : s.deeds = new ++ r.deeds) (quiet : ∀ d ∈ new, d.reading? = none) : Unfed r s where
  entry {k} _ there := ⟨_, (table k).symm.trans there, rfl⟩
  read := by rw [deeds, readings_quiet quiet]

/-- One peer is changed, and its bytes are not. -/
theorem unfed_put (held : r.Holds p) {q : Peer} (number : q.id = p.id)
    (same : q.session.inbound = p.session.inbound) : Unfed r (r.put q) where
  entry {k x} there := by
    rw [get?_put] at there
    split at there
    · next here =>
      cases there
      exact ⟨p, (here.symm.trans number) ▸ held, same.symm⟩
    · exact ⟨x, there, rfl⟩
  read := rfl

theorem unfed_send (held : r.Holds p) (m : Message) (outcomes : List WriteOutcome) :
    Unfed r (r.perform p (.send m outcomes)) :=
  (unfed_put held (q := p.perform (.send m outcomes)) rfl (p.session.inbound_send m outcomes)).trans
    ⟨fun there => ⟨_, there, rfl⟩, rfl⟩

theorem unfed_flush (held : r.Holds p) (outcomes : List WriteOutcome) :
    Unfed r (r.perform p (.flush outcomes)) :=
  (unfed_put held (q := p.perform (.flush outcomes)) rfl rfl).trans
    ⟨fun there => ⟨_, there, rfl⟩, rfl⟩

theorem unfed_close (r : Reactor) (id : PeerId) : Unfed r (r.closePeer id) where
  entry {k q} there := by
    rw [get?_closePeer] at there
    split at there
    · cases there
    · exact ⟨q, there, rfl⟩
  read := by
    unfold closePeer
    simp only
    split <;> rfl

theorem Idle.unfed (h : Idle r s) : Unfed r s := by
  obtain ⟨new, deeds, about⟩ := h.deeds
  refine unfed_same (fun k => by rw [h.table]) new deeds fun d hd => ?_
  have nobody := about d hd
  cases d <;> first | rfl | cases nobody

/-- Where nothing is taken in nothing is read. -/
theorem civil_unfed : Civil Unfed where
  refl _ := ⟨fun there => ⟨_, there, rfl⟩, rfl⟩
  trans := Unfed.trans
  send := unfed_send
  notify _ _ := unfed_same (fun _ => rfl) [_] rfl fun _ hd => List.mem_singleton.1 hd ▸ rfl
  close := unfed_close

theorem unfed_teardown (r : Reactor) : Unfed r r.teardown where
  entry there := by cases there
  read := by
    obtain ⟨new, deeds, kinds, -⟩ := deeds_teardown r
    rw [deeds]
    refine readings_quiet (fun d hd => ?_) r.deeds
    rcases kinds d hd with ⟨audience, rfl⟩ | ⟨socket, rfl⟩ | ⟨id, p, -, rfl⟩ <;> rfl

/-- Acting upon an envelope takes nothing else in. -/
theorem dispatch_unfed (held : r.Holds p) (e : Envelope) (writes : List WriteOutcome) :
    Unfed r (r.dispatch p e writes) := by
  have noted : Unfed r (r.note (.dispatched p.id e)) :=
    unfed_same (fun _ => rfl) [_] rfl fun _ hd => List.mem_singleton.1 hd ▸ rfl
  have held' : (r.note (.dispatched p.id e)).Holds p := held
  rcases dispatch_cases r p e writes with
    ⟨-, idle⟩ | same | ⟨-, why, text, same⟩ | ⟨info, -, -, new, same⟩
  · exact noted.trans idle.unfed
  · rw [same]
    exact noted.trans (unfed_close _ p.id)
  · rw [same]
    exact (noted.trans (unfed_send held' _ writes)).trans (unfed_close _ p.id)
  · rw [same]
    have marked := unfed_put held' (q := p.perform (.markReady info)) rfl
      (p.session.inbound_markReady info)
    exact (noted.trans marked).trans (civil_unfed.welcome (holds_put _ _) writes)

/-- Acting upon what taking input came to takes nothing else in, and a peer that is not kept
goes. -/
theorem settle_unfed (held : r.Holds p) (taken : Intake) (writes : List WriteOutcome) :
    Unfed r (r.settle p taken writes) ∧
      (taken.isSound = false → (r.settle p taken writes).table.get? p.id = none) := by
  have gone : (r.closePeer p.id).table.get? p.id = none :=
    (get?_closePeer r p.id p.id).trans (if_pos rfl)
  cases taken with
  | envelope e =>
    refine ⟨?_, fun impossible => by cases impossible⟩
    obtain ⟨entry, read⟩ := dispatch_unfed held e writes
    rw [settle]
    constructor
    · rw [table_requeueBuffered]
      exact entry
    · rw [deeds_requeueBuffered]
      exact read
  | more => exact ⟨civil_unfed.refl r, fun impossible => by cases impossible⟩
  | refused error => exact ⟨unfed_close r p.id, fun _ => gone⟩
  | ended => exact ⟨unfed_close r p.id, fun _ => gone⟩
  | failed error => exact ⟨unfed_close r p.id, fun _ => gone⟩

/-! ### What is taken in -/

/-- What serving a peer takes in: nothing from others, and from the peer what taking input once from
a session with its bytes does. -/
structure Asked (id : PeerId) (incoming : Incoming) (session : Session) (r s : Reactor) : Prop where
  others : ∀ {k q}, k ≠ id → s.table.get? k = some q →
    ∃ p, r.table.get? k = some p ∧ p.session.inbound = q.session.inbound
  own : ∀ {q}, s.table.get? id = some q → (session.intake incoming).1.isSound = true ∧
    q.session.inbound = (session.intake incoming).2.inbound
  read : readings s.deeds = readings r.deeds ++ (session.draws incoming).map (id, ·)

/-- **Taking input takes in what one intake does.** -/
theorem takeInput_asked (r : Reactor) (p : Peer) (incoming : Incoming)
    (writes : List WriteOutcome) :
    Asked p.id incoming p.session r (r.takeInput p incoming writes) := by
  obtain ⟨t, held, same, deeds, outcome⟩ := takeInput_intake r p incoming writes
  obtain ⟨unfed, gone⟩ := settle_unfed held (p.session.intake incoming).1 writes
  rw [← outcome] at unfed gone
  constructor
  case others =>
    intro k q other there
    obtain ⟨x, there', bytes⟩ := unfed.entry there
    exact ⟨x, (same k other).symm.trans there', bytes⟩
  case own =>
    intro q there
    obtain ⟨x, there', bytes⟩ := unfed.entry there
    have found : t.table.get? p.id = some { p with session := (p.session.intake incoming).2 } :=
      held
    rw [found] at there'
    cases there'
    refine ⟨?_, bytes.symm⟩
    cases sound : (p.session.intake incoming).1.isSound with
    | true => rfl
    | false =>
      rw [gone sound] at there
      cases there
  case read =>
    rw [unfed.read, deeds, Session.draws]
    split
    · exact readings_append [_] r.deeds
    · exact (List.append_nil _).symm

/-- Serving a peer takes in nothing, or what one intake does. -/
theorem serve_asked (held : r.Holds p) (ready : Readiness) (means : Means) :
    Unfed r (r.serve p.id ready means) ∨
      ∃ session : Session, session.inbound = p.session.inbound ∧
        Asked p.id means.incoming session r (r.serve p.id ready means) := by
  obtain ⟨t, q, writes, offered, -, served⟩ := serve_cases held ready means
  have before : Unfed r t ∧ q.id = p.id ∧ q.session.inbound = p.session.inbound := by
    rcases offered with ⟨rfl, rfl⟩ | ⟨rfl, rfl⟩
    · exact ⟨civil_unfed.refl t, rfl, rfl⟩
    · exact ⟨unfed_flush held means.writes, rfl, rfl⟩
  obtain ⟨unfed, number, same⟩ := before
  rcases served with outcome | ⟨-, outcome⟩ | outcome
  · rw [outcome]
    exact Or.inl (unfed.trans (unfed_close t q.id))
  · rw [outcome]
    exact Or.inl unfed
  · have asked := takeInput_asked t q means.incoming writes
    rw [← outcome, number] at asked
    refine Or.inr ⟨q.session, same, ?_, asked.own, unfed.read ▸ asked.read⟩
    intro k x other there
    obtain ⟨y, there', bytes⟩ := asked.others other there
    obtain ⟨z, there, bytes'⟩ := unfed.entry there'
    exact ⟨z, there, bytes'.trans bytes⟩

/-- What a reactor takes in when something happens to it. -/
inductive Feeds (r : Reactor) (stimulus : Stimulus) (s : Reactor) : Prop
  /-- Nothing. -/
  | unfed (h : Unfed r s)
  /-- Nothing, and a connection is taken over. -/
  | joined (entry : ∀ {k q}, s.table.get? k = some q →
      (k = r.nextId ∧ q.session.inbound = []) ∨ r.table.get? k = some q)
    (read : readings s.deeds = readings r.deeds)
  /-- What one peer says that is served. -/
  | asked {sight : Sight} {means : Means} {id : PeerId} {ready : Readiness} {p : Peer}
    {session : Session} (turn : stimulus = .turn sight means)
    (due : (r.wait sight).1 = some (.peer id ready)) (there : r.table.get? id = some p)
    (same : session.inbound = p.session.inbound) (h : Asked id means.incoming session r s)

theorem insertPeer_entry (r : Reactor) (socket : SocketId) (remote : SocketAddress)
    (direction : Direction) (dialed : Option String) (now : Nat) {k : PeerId} {q : Peer}
    (there : (r.insertPeer socket remote direction dialed now).table.get? k = some q) :
    (k = r.nextId ∧ q.session.inbound = []) ∨ r.table.get? k = some q := by
  rw [get?_insertPeer] at there
  split at there
  · next here =>
    cases there
    exact Or.inl ⟨here.symm, rfl⟩
  · exact Or.inr there

/-- **Whatever happens, at most one peer's bytes are taken in, and by one intake.** -/
theorem react_feeds (h : r.Consistent) (stimulus : Stimulus) :
    Feeds r stimulus (r.react stimulus) := by
  cases stimulus with
  | turn sight means =>
    rw [react]
    by_cases running : r.running = true
    · have waited : Unfed r (r.wait sight).2 := ⟨fun there => ⟨_, there, rfl⟩, rfl⟩
      cases due : (r.wait sight).1 with
      | none =>
        rcases turn_cases running sight means (h.wait sight).keyed with
          ⟨-, quiet⟩ | ⟨w, some_due, -⟩
        · exact .unfed (quiet ▸ waited)
        · rw [due] at some_due
          cases some_due
      | some w =>
        have keyed := (h.wait sight).keyed
        rw [turn_eq running due]
        cases w with
        | peer id ready =>
          rw [handle]
          cases there : (r.wait sight).2.table.get? id with
          | none =>
            rw [serve_unknown there]
            exact .unfed ⟨fun there => ⟨_, there, rfl⟩, rfl⟩
          | some p =>
            have same := keyed id p there
            subst same
            rcases serve_asked there ready means with unfed | ⟨session, same, asked⟩
            · exact .unfed (waited.trans unfed)
            · exact .asked rfl due there same ⟨asked.others, asked.own, asked.read⟩
        | accept socket remote =>
          refine .joined (fun there => insertPeer_entry (r.wait sight).2 _ _ _ _ _ there) ?_
          rw [handle, deeds_insertPeer]
          rfl
        | acceptFailed why => exact .unfed ⟨fun there => ⟨_, there, rfl⟩, rfl⟩
        | acceptResumed => exact .unfed waited
        | failed why => exact .unfed (waited.trans (unfed_teardown _))
        | tick => exact .unfed (waited.trans (civil_unfed.expireHandshakes _ means.now))
        | control command =>
          cases command with
          | none => exact .unfed (waited.trans (unfed_teardown _))
          | some c =>
            cases c with
            | shutdown => exact .unfed (waited.trans (unfed_teardown _))
            | sendHandshake id =>
              exact .unfed (waited.trans (civil_unfed.greet keyed id means.writes))
            | closePeer id =>
              exact .unfed (waited.trans (civil_unfed.dismiss keyed id means.writes))
            | tryConnect => exact .unfed (waited.trans (Move.seek means.words).idle.unfed)
            | adopt socket remote dialed =>
              refine .joined (fun there => insertPeer_entry (r.wait sight).2 _ _ _ _ _ there) ?_
              rw [handle, obey, deeds_insertPeer]
              rfl
    · rw [turn_ended (Bool.eq_false_iff.2 running)]
      exact .unfed (civil_unfed.refl r)
  | _ => exact .unfed (react_idle r fun _ _ impossible => by cases impossible).unfed

/-! ### Bounds that hold throughout -/

/-- No buffer is larger than the largest message. -/
def Small (r : Reactor) : Prop :=
  ∀ id p, r.table.get? id = some p → p.session.inbound.length ≤ maxMessageSize

theorem Feeds.small (feeds : Feeds r stimulus s) (h : r.Small) : s.Small := by
  intro k q there
  cases feeds with
  | unfed unfed =>
    obtain ⟨p, before, same⟩ := unfed.entry there
    exact same ▸ h k p before
  | joined entry _ =>
    rcases entry there with ⟨-, nothing⟩ | before
    · rw [nothing]
      exact Nat.zero_le _
    · exact h k q before
  | @asked sight means id ready p session _ _ before same asked =>
    by_cases own : k = id
    · subst own
      obtain ⟨sound, bytes⟩ := asked.own there
      rw [bytes]
      exact Session.length_intake_of_sound (same ▸ h k p before) sound
    · obtain ⟨p, before, same⟩ := asked.others own there
      exact same ▸ h k p before

theorem small_run (stimuli : List Stimulus) : ∀ {r : Reactor}, r.Consistent → r.Small →
    (r.run stimuli).Small := by
  induction stimuli with
  | nil => exact fun _ small => small
  | cons stimulus stimuli ih =>
    intro r h small
    exact ih (kept_consistent.react h stimulus) ((react_feeds h stimulus).small small)

/-- At most one reading is made, from a peer that is there, and the buffer grows by a chunk at
most. -/
theorem Feeds.reads (feeds : Feeds r stimulus s) :
    ∃ new, readings s.deeds = readings r.deeds ++ new ∧ new.length ≤ 1 ∧
      ∀ id outcome, (id, outcome) ∈ new → ∃ p, r.table.get? id = some p ∧
        grownTo p.session.inbound.length outcome ≤ p.session.inbound.length + readChunk := by
  have nothing (read : readings s.deeds = readings r.deeds) :
      readings s.deeds = readings r.deeds ++ [] := read.trans (List.append_nil _).symm
  cases feeds with
  | unfed unfed =>
    exact ⟨[], nothing unfed.read, Nat.zero_le _, fun _ _ made => absurd made List.not_mem_nil⟩
  | joined _ read =>
    exact ⟨[], nothing read, Nat.zero_le _, fun _ _ made => absurd made List.not_mem_nil⟩
  | @asked sight means id ready p session _ _ there same asked =>
    refine ⟨_, asked.read, ?_, fun k outcome made => ?_⟩
    · rw [Session.draws]
      split <;> simp
    · obtain ⟨drawn, mem, own⟩ := List.mem_map.1 made
      cases own
      obtain ⟨-, rfl⟩ := Session.mem_draws mem
      refine ⟨p, there, ?_⟩
      rw [← same, Session.grownTo_fill]
      exact session.length_fill_le means.incoming

/-! ### A flood -/

/-- A flood: anything may happen, and what a peer gives to read is what has been sent.  What has not
been read is kept along. -/
inductive Flood (id : PeerId) (r : Reactor) (sent : Bytes) : Reactor → Bytes → Prop
  | start : Flood id r sent r sent
  | next {s : Reactor} {unread : Bytes} (earlier : Flood id r sent s unread)
      (stimulus : Stimulus) (arrives : stimulus.Arrives id unread s) :
    Flood id r sent (s.react stimulus) (unread.drop (readSince id s (s.react stimulus)))

/-- In the middle of a flood: what is buffered and what is unread are some envelopes, and little is
buffered. -/
def Flooded (id : PeerId) (bound : Nat) (items : List Envelope) (unread : Bytes) (r : Reactor) :
    Prop :=
  ∀ p, r.table.get? id = some p → p.session.inbound.length ≤ bound ∧
    ∃ rest, rest <:+ items ∧ p.session.inbound ++ unread = renderAll rest

variable {id : PeerId} {limit : Nat} {items : List Envelope} {unread sent : Bytes}

/-- A flood stays within its bounds when nothing is read. -/
theorem Flooded.unfed (h : Flooded id bound items unread r)
    (read : readings s.deeds = readings r.deeds)
    (entry : ∀ q, s.table.get? id = some q →
      ∃ p, r.table.get? id = some p ∧ p.session.inbound = q.session.inbound) :
    Flooded id bound items (unread.drop (readSince id r s)) s := by
  intro q there
  obtain ⟨p, before, same⟩ := entry q there
  have none_read : readSince id r s = 0 := by
    rw [readSince, bytesRead_eq, bytesRead_eq, read, Nat.sub_self]
  rw [none_read, List.drop_zero, ← same]
  exact h p before

/-- **A flood stays within its bounds, whatever happens.** -/
theorem Flooded.react (h : Flooded id (limit + readChunk - 1) items unread r)
    (consistent : r.Consistent) (known : id < r.nextId) (modest : Modest limit items)
    (room : limit + readChunk ≤ maxMessageSize) (arrives : stimulus.Arrives id unread r) :
    Flooded id (limit + readChunk - 1) items
      (unread.drop (readSince id r (r.react stimulus))) (r.react stimulus) := by
  cases react_feeds consistent stimulus with
  | unfed unfed => exact h.unfed unfed.read fun q there => unfed.entry there
  | joined entry read =>
    -- Whoever comes has a number that nobody has had.
    refine h.unfed read fun q there => ?_
    rcases entry there with ⟨new, -⟩ | before
    · exact absurd (new ▸ known) (Nat.lt_irrefl _)
    · exact ⟨q, before, rfl⟩
  | @asked sight means k ready p session turn due before same asked =>
    by_cases own : id = k
    · subst own turn
      -- What is left of the stream begins with the buffer, and one intake goes on with it.
      obtain ⟨few, rest, some_of, stream⟩ := h p before
      rw [← same] at few stream
      have modest' : Modest limit rest := fun e he => modest e (some_of.subset he)
      obtain ⟨-, leaves⟩ := Session.intake_room modest' room stream few (arrives ready due)
      intro q there
      obtain ⟨sound, bytes⟩ := asked.own there
      obtain ⟨⟨left, some_left, further⟩, few'⟩ := leaves sound
      have read : readSince id r (r.react (.turn sight means)) = session.drawn means.incoming := by
        rw [readSince, bytesRead_readings asked.read, Nat.add_sub_cancel_left,
          Session.broughtBy_draws, if_pos rfl]
      rw [read, bytes]
      exact ⟨few', left, some_left.trans some_of, further⟩
    · have none_read : readSince id r (r.react stimulus) = 0 := by
        rw [readSince, bytesRead_readings asked.read, Nat.add_sub_cancel_left,
          Session.broughtBy_draws, if_neg (Ne.symm own)]
      intro q there
      obtain ⟨x, before, bytes⟩ := asked.others own there
      rw [none_read, List.drop_zero, ← bytes]
      exact h x before

/-- A flood is a run. -/
theorem Flood.run (flood : Flood id r sent s unread) : ∃ stimuli, s = r.run stimuli := by
  induction flood with
  | start => exact ⟨[], rfl⟩
  | next earlier stimulus arrives ih =>
    obtain ⟨stimuli, rfl⟩ := ih
    exact ⟨stimuli ++ [stimulus], (r.run_append stimuli [stimulus]).symm⟩

/-- A flood stays within its bounds throughout. -/
theorem Flood.flooded (flood : Flood id r sent s unread) (consistent : r.Consistent)
    (there : r.table.get? id = some p) (modest : Modest limit items)
    (room : limit + readChunk ≤ maxMessageSize)
    (h : Flooded id (limit + readChunk - 1) items sent r) :
    Flooded id (limit + readChunk - 1) items unread s := by
  induction flood with
  | start => exact h
  | next earlier stimulus arrives ih =>
    obtain ⟨stimuli, rfl⟩ := earlier.run
    have before := kept_consistent.run consistent stimuli
    -- The peer may have gone, but its number is never given away again.
    obtain ⟨q, -, known, -⟩ := (evolves_run consistent stimuli).onward id p (Or.inl there)
    exact ih.react before (known.lt_nextId before) modest room arrives

/-- In the middle of a step the buffer is within the bounds, too. -/
theorem Flooded.reading (h : Flooded id (limit + readChunk - 1) items unread r)
    (feeds : Feeds r stimulus s) (modest : Modest limit items)
    (room : limit + readChunk ≤ maxMessageSize) (arrives : stimulus.Arrives id unread r)
    (there : r.table.get? id = some p) {new : List (PeerId × Except PeerError ReadOutcome)}
    (read : readings s.deeds = readings r.deeds ++ new) {outcome : Except PeerError ReadOutcome}
    (made : (id, outcome) ∈ new) :
    grownTo p.session.inbound.length outcome ≤ limit + readChunk - 1 := by
  have nothing (quiet : readings s.deeds = readings r.deeds) : False := by
    rw [quiet, List.self_eq_append_right] at read
    rw [read] at made
    cases made
  cases feeds with
  | unfed unfed => exact (nothing unfed.read).elim
  | joined _ quiet => exact (nothing quiet).elim
  | @asked sight means k ready q session turn due before same asked =>
    rw [asked.read, List.append_cancel_left_eq] at read
    rw [← read] at made
    obtain ⟨drawn, mem, own⟩ := List.mem_map.1 made
    cases own
    subst turn
    rw [there] at before
    cases before
    obtain ⟨few, rest, some_of, stream⟩ := h p there
    rw [← same] at few stream ⊢
    have modest' : Modest limit rest := fun e he => modest e (some_of.subset he)
    obtain ⟨roomy, -⟩ := Session.intake_room modest' room stream few (arrives ready due)
    obtain ⟨short, rfl⟩ := Session.mem_draws mem
    rw [Session.grownTo_fill]
    exact roomy.filled short

/-- If a peer takes the output that is offered to it, it is asked for input or left alone. -/
theorem serve_open (held : r.Holds p) {ready : Readiness} {means : Means}
    (usable : ready.writable = true → (p.session.flush means.writes).result.isOk = true) :
    ∃ t q writes, t.Holds q ∧ q.id = p.id ∧ q.session.inbound = p.session.inbound ∧
      acts t.deeds = acts r.deeds ∧ (r.serve p.id ready means = t ∨
        r.serve p.id ready means = t.takeInput q means.incoming writes) := by
  have found : r.table.get? p.id = some p := held
  unfold serve
  rw [found]
  simp only
  split
  · next writable =>
    have usable' : (r.flush p means.writes).usable = true := usable writable
    refine ⟨r.perform p (.flush means.writes), p.perform (.flush means.writes),
      (p.session.flush means.writes).rest, holds_perform _ _ _, rfl, rfl, rfl, ?_⟩
    rw [if_pos usable']
    split
    · exact Or.inr rfl
    · exact Or.inl rfl
  · refine ⟨r, p, means.writes, held, rfl, rfl, rfl, ?_⟩
    rw [if_pos rfl]
    split
    · exact Or.inr rfl
    · exact Or.inl rfl

/-- If taking input goes well the peer is kept, or one of its envelopes has been acted upon. -/
theorem takeInput_kept (r : Reactor) (p : Peer) {incoming : Incoming}
    (sound : (p.session.intake incoming).1.isSound = true) (writes : List WriteOutcome) :
    (∃ q, (r.takeInput p incoming writes).table.get? p.id = some q) ∨
      ∃ e, acts (r.takeInput p incoming writes).deeds = acts r.deeds ++ [(p.id, e)] := by
  obtain ⟨t, held, -, deeds, outcome⟩ := takeInput_intake r p incoming writes
  have quiet : acts t.deeds = acts r.deeds := by
    rw [deeds, acts_append]
    split <;> exact List.append_nil _
  rw [outcome]
  cases taken : (p.session.intake incoming).1 with
  | envelope e =>
    have acted := (dispatch_gathers t { p with session := (p.session.intake incoming).2 } e
      writes).acts
    rw [settle, deeds_requeueBuffered, ← quiet]
    exact Or.inr ⟨e, acted⟩
  | more => exact Or.inl ⟨_, held⟩
  | refused error => rw [taken] at sound; cases sound
  | ended => rw [taken] at sound; cases sound
  | failed error => rw [taken] at sound; cases sound

/-- What a peer meets with in the middle of a flood. -/
structure Weathers (id : PeerId) (bound : Nat) (unread : Bytes) (r : Reactor) (p : Peer) :
    Prop where
  /-- Its buffer is within the bound before a step and when it is read into. -/
  between : p.session.inbound.length ≤ bound
  within : ∀ stimulus new outcome, stimulus.Arrives id unread r →
    readings (r.react stimulus).deeds = readings r.deeds ++ new → (id, outcome) ∈ new →
      grownTo p.session.inbound.length outcome ≤ bound
  /-- Its bytes are no reason to let it go: if it takes output and some bytes have arrived, it is
  there after it has been served, or one of its envelopes has been acted upon. -/
  kept : ∀ sight means ready bytes, r.running = true →
    (r.wait sight).1 = some (.peer id ready) → means.incoming = .waiting bytes →
    bytes <+: unread →
    (ready.writable = true → (p.session.flush means.writes).result.isOk = true) →
      (∃ q, (r.turn sight means).table.get? id = some q) ∨
        ∃ e, acts (r.turn sight means).deeds = acts r.deeds ++ [(id, e)]

theorem Flooded.weathers (h : Flooded id (limit + readChunk - 1) items unread r)
    (consistent : r.Consistent) (modest : Modest limit items)
    (room : limit + readChunk ≤ maxMessageSize) (there : r.table.get? id = some p) :
    Weathers id (limit + readChunk - 1) unread r p := by
  obtain ⟨few, rest, some_of, stream⟩ := h p there
  have modest' : Modest limit rest := fun e he => modest e (some_of.subset he)
  have number := consistent.keyed id p there
  subst number
  constructor
  case between => exact few
  case within =>
    intro stimulus new outcome arrives read made
    exact h.reading (react_feeds consistent stimulus) modest room arrives there read made
  case kept =>
    intro sight means ready bytes running due incoming arrived usable
    rw [turn_eq running due, handle]
    have held : (r.wait sight).2.Holds p := there
    obtain ⟨t, q, writes, held', number, same, quiet, served⟩ := serve_open held usable
    have before : acts t.deeds = acts r.deeds := quiet
    rcases served with outcome | outcome
    · rw [outcome]
      exact Or.inl ⟨q, number ▸ held'⟩
    · rw [← same] at few stream
      have arrives : means.incoming.Arrives unread := by
        rw [incoming]
        exact arrived
      obtain ⟨roomy, -⟩ := Session.intake_room modest' room stream few arrives
      have kept := takeInput_kept t q (roomy.sound bytes incoming) writes
      rw [outcome]
      rwa [number, before] at kept

/-- **No buffer is ever larger than the largest message, no step reads more than a chunk or acts
upon more than one envelope, and the buffer of a peer that sends short envelopes stays short.**

Envelopes are short if they have so many bytes at most, and these and a chunk are no more than the
largest message.  A peer that sends such envelopes, in whatever portions and however many of them,
never has more bytes in its buffer than an envelope and a chunk have together, less one; and it is
never let go for what it has sent, unless an envelope says so. -/
theorem buffers_bounded (config : ReactorConfig) (shared : Shared) (now : Nat)
    (stimuli : List Stimulus) :
    let r := (start config shared now).run stimuli
    r.Small ∧
      (∀ stimulus,
        (∃ new, readings (r.react stimulus).deeds = readings r.deeds ++ new ∧ new.length ≤ 1 ∧
          ∀ id outcome, (id, outcome) ∈ new → ∃ p, r.table.get? id = some p ∧
            grownTo p.session.inbound.length outcome ≤ p.session.inbound.length + readChunk) ∧
        ∃ acted, acts (r.react stimulus).deeds = acts r.deeds ++ acted ∧ acted.length ≤ 1) ∧
      ∀ id p limit items s unread, r.table.get? id = some p → p.session.inbound = [] →
        limit + readChunk ≤ maxMessageSize → Modest limit items →
        Flood id r (renderAll items) s unread →
          ∀ q, s.table.get? id = some q → Weathers id (limit + readChunk - 1) unread s q := by
  intro r
  have consistent : r.Consistent := kept_consistent.run (consistent_start config shared now) stimuli
  have nobody : (start config shared now).Small := fun _ _ there => by cases there
  refine ⟨small_run stimuli (consistent_start config shared now) nobody, fun stimulus => ⟨?_, ?_⟩,
    ?_⟩
  · exact (react_feeds consistent stimulus).reads
  · rcases acts_react consistent stimulus with quiet | ⟨p, e, -, acted⟩
    · exact ⟨[], quiet.trans (List.append_nil _).symm, Nat.zero_le _⟩
    · exact ⟨_, acted, Nat.le_refl _⟩
  · intro id p limit items s unread there nothing room modest flood q still
    have begun : Flooded id (limit + readChunk - 1) items (renderAll items) r := by
      intro p' there'
      rw [there] at there'
      cases there'
      rw [nothing]
      exact ⟨Nat.zero_le _, items, List.suffix_rfl, rfl⟩
    have flooded := flood.flooded consistent there modest room begun
    obtain ⟨more, rfl⟩ := flood.run
    exact flooded.weathers (kept_consistent.run consistent more) modest room still

/-- Two envelopes arrive at once: the first one is acted upon, and the second one is all that is in
the buffer. -/
theorem buffers_bounded_pair :
    let odd : Envelope := ⟨9, .scalar .null⟩
    let idle : Means := ⟨0, .waiting [], [], []⟩
    let reading : Stimulus := .turn ⟨0, 0, .none, [(⟨1⟩, .ok .read)]⟩
      { idle with incoming := .waiting (renderAll [odd, odd]) }
    let r := (start default .empty 0).run [.turn ⟨0, 0, .connection ⟨3⟩ .elsewhere, []⟩ idle]
    let s := r.react reading
    ∃ p q unread, r.table.get? ⟨1⟩ = some p ∧ p.session.inbound = [] ∧
      Modest 32 [odd, odd] ∧ 32 + readChunk ≤ maxMessageSize ∧
      Flood ⟨1⟩ r (renderAll [odd, odd]) s unread ∧ s.table.get? ⟨1⟩ = some q ∧
      q.session.inbound = odd.render ∧ Weathers ⟨1⟩ (32 + readChunk - 1) unread s q := by
  intro odd idle reading r s
  have came : (r.table.get? ⟨1⟩).map (·.session.inbound) = some [] := by decide +kernel
  obtain ⟨p, there, nothing⟩ := Option.map_eq_some_iff.1 came
  have kept : (s.table.get? ⟨1⟩).map (·.session.inbound) = some odd.render := by decide +kernel
  obtain ⟨q, still, left⟩ := Option.map_eq_some_iff.1 kept
  have modest : Modest 32 [odd, odd] := by decide +kernel
  have room : 32 + readChunk ≤ maxMessageSize := by decide
  have flood : Flood ⟨1⟩ r (renderAll [odd, odd]) s _ :=
    .next .start reading fun ready _ => List.prefix_rfl
  have weathers := (buffers_bounded default .empty 0
    [.turn ⟨0, 0, .connection ⟨3⟩ .elsewhere, []⟩ idle]).2.2 ⟨1⟩ p 32 [odd, odd] s _ there nothing
      room modest flood q still
  exact ⟨p, q, _, there, nothing, modest, room, flood, still, left, weathers⟩

end Reactor

end GossipNode
