import GossipNode.Proofs.Message.Length
import GossipNode.Proofs.Reactor.Handling
import GossipNode.Proofs.Wire.Stream

/-!
# Messages that are read together

A peer that sends one message after another need not wait in between, so a read may bring the end of
one message and the beginning of the next.  What has been read and not decoded is limited, and the
limit is tested as soon as a read has been made, before the message it completes is taken off.  So
the limit is on more than a message: it is on a message together with whatever comes in the read
that completes it.

## Main definitions

* `Session.intake`, `Intake` — taking input from a peer, and what it comes to.
* `Session.services` — taking input again and again while reads come in pieces.
* `Fits` — every message fits together with the read that completes it.
* `Session.Advance` — how far taking input brings a stream of messages.

## Main results

* `Reactor.takeInput_intake` — the node takes input from a peer by `Session.intake`.
* `Session.intake_stream` — what taking input once does to a stream of messages.
* `Session.services_spec` — and what taking it again and again does.
* `Session.services_fit` — **messages are delivered exactly if they fit.**
* `Fits.of_slack` — messages that leave room for a read fit, however they are cut.
-/

namespace GossipNode

/-! ### Taking input -/

/-- What taking input from a peer comes to. -/
inductive Intake
  /-- An envelope, to be acted upon. -/
  | envelope (e : Envelope)
  /-- Nothing yet. -/
  | more
  /-- Bytes that are no envelope. -/
  | refused (error : DecodeError)
  /-- The other side sends no more. -/
  | ended
  /-- Reading failed. -/
  | failed (error : PeerError)

namespace Intake

/-- What decoding comes to. -/
def ofDecoded : Except DecodeError (Option Envelope) → Intake
  | .ok (some e) => .envelope e
  | .ok none => .more
  | .error error => .refused error

/-- Whether the peer is kept. -/
def isSound : Intake → Bool
  | .envelope _ | .more => true
  | .refused _ | .ended | .failed _ => false

/-- The message that is delivered, if one is. -/
def message? : Intake → Option Message
  | .envelope e => e.message.toOption
  | .more | .refused _ | .ended | .failed _ => none

end Intake

namespace Session

/-- Whether what has been read holds only a part of an envelope, so that more is read. -/
def isShort (s : Session) : Bool :=
  match s.nextEnvelope.1 with
  | .ok none => true
  | _ => false

/-- Takes input: an envelope that has been read, or else what can be decoded after one read. -/
def intake (s : Session) (incoming : Incoming) : Intake × Session :=
  match s.nextEnvelope.1 with
  | .ok none =>
    let t := s.perform (.fill incoming)
    match (s.fill incoming).1 with
    | .error error => (.failed error, t)
    | .ok .ended => (.ended, t)
    | .ok _ => (.ofDecoded t.nextEnvelope.1, t.perform .nextEnvelope)
  | decoded => (.ofDecoded decoded, s.perform .nextEnvelope)

/-- Takes input so many times, while reads bring the given pieces one after the other and nothing
after them.  A peer that is not kept is not asked again. -/
def services (s : Session) : (n : Nat) → (pieces : List Bytes) → List Intake
  | 0, _ => []
  | n + 1, pieces =>
    let (taken, t) := s.intake (.waiting (pieces.headD []))
    taken ::
      if taken.isSound then t.services n (if s.isShort then pieces.tail else pieces) else []

end Session

namespace Reactor

variable {r : Reactor} {p : Peer}

/-- Acts upon what taking input came to: an envelope is dispatched, and a peer that is not kept is
let go. -/
def settle (r : Reactor) (p : Peer) (taken : Intake) (writes : List WriteOutcome) : Reactor :=
  match taken with
  | .envelope e => (r.dispatch p e writes).requeueBuffered p.id
  | .more => r
  | .refused _ | .ended | .failed _ => r.closePeer p.id

theorem actUpon_eq (r : Reactor) (p : Peer) (decoded : Except DecodeError (Option Envelope))
    (writes : List WriteOutcome) :
    r.actUpon p decoded writes = r.settle p (.ofDecoded decoded) writes := by
  cases decoded with
  | error error => rfl
  | ok found => cases found <;> rfl

/-- **The node takes input from a peer by an intake** and acts upon what that comes to.  The socket
is read once if what has been read before is only a part of an envelope. -/
theorem takeInput_intake (r : Reactor) (p : Peer) (incoming : Incoming)
    (writes : List WriteOutcome) :
    ∃ s : Reactor, s.Holds { p with session := (p.session.intake incoming).2 } ∧
      (∀ k, k ≠ p.id → s.table.get? k = r.table.get? k) ∧
      s.deeds = (if p.session.isShort then p.record (.fill incoming) else []) ++ r.deeds ∧
      r.takeInput p incoming writes =
        s.settle { p with session := (p.session.intake incoming).2 }
          (p.session.intake incoming).1 writes := by
  have held := holds_perform r p (.fill incoming)
  have decoded := holds_perform (r.perform p (.fill incoming)) (p.perform (.fill incoming))
    .nextEnvelope
  have found := holds_perform r p .nextEnvelope
  have others (s : Reactor) (q : Peer) (c : Session.Call) (same : q.id = p.id) (k : PeerId)
      (other : k ≠ p.id) : (s.perform q c).table.get? k = s.table.get? k :=
    (get?_perform s q c k).trans (if_neg fun own => other (own.symm.trans same))
  rw [takeInput_eq, readOnce_eq]
  unfold Session.intake Session.isShort
  cases first : p.session.nextEnvelope.1 with
  | error error => exact ⟨_, found, others r p _ rfl, rfl, actUpon_eq _ _ _ _⟩
  | ok front =>
    cases front with
    | some e => exact ⟨_, found, others r p _ rfl, rfl, actUpon_eq _ _ _ _⟩
    | none =>
      simp only
      cases read : (p.session.fill incoming).1 with
      | error error => exact ⟨_, held, others r p _ rfl, rfl, rfl⟩
      | ok outcome =>
        have both (k : PeerId) (other : k ≠ p.id) :
            ((r.perform p (.fill incoming)).perform (p.perform (.fill incoming))
              .nextEnvelope).table.get? k = r.table.get? k :=
          (others _ (p.perform (.fill incoming)) _ rfl k other).trans (others r p _ rfl k other)
        cases outcome with
        | ended => exact ⟨_, held, others r p _ rfl, rfl, rfl⟩
        | data n => exact ⟨_, decoded, both, rfl, actUpon_eq _ _ _ _⟩
        | wouldBlock => exact ⟨_, decoded, both, rfl, actUpon_eq _ _ _ _⟩

end Reactor

/-! ### Messages and the reads that complete them -/

/-- Of messages that come in pieces the first `kept` bytes have been read already.  Each message
fits: from its first byte to the end of the piece that completes it there are no more bytes than the
largest message may have. -/
def Fits (kept : Nat) (ms : List Message) (pieces : List Bytes) : Prop :=
  ∀ before m after early piece late, ms = before ++ m :: after → pieces = early ++ piece :: late →
    kept + early.flatten.length < (encodeAll (before ++ [m])).length →
    (encodeAll (before ++ [m])).length ≤ kept + early.flatten.length + piece.length →
    kept + early.flatten.length + piece.length ≤ (encodeAll before).length + maxMessageSize

variable {kept : Nat} {m : Message} {ms : List Message} {piece : Bytes} {pieces : List Bytes}

theorem fits_nil (kept : Nat) (ms : List Message) : Fits kept ms [] := by
  intro before m after early piece late _ hpieces
  cases early <;> cases hpieces

/-- A message that is there whole has no part in what follows. -/
theorem fits_cons_message :
    Fits (m.encode.length + kept) (m :: ms) pieces ↔ Fits kept ms pieces := by
  constructor
  · intro h before n after early piece late hms hpieces later
    have fit := h (m :: before) n after early piece late (by rw [hms]; rfl) hpieces
    simp only [List.cons_append, encodeAll_cons, List.length_append] at fit later ⊢
    omega
  · intro h before n after early piece late hms hpieces later
    cases before with
    | nil =>
      -- the message that is there is complete before any of the pieces
      cases hms
      simp only [List.nil_append, encodeAll_cons, encodeAll_nil, List.append_nil] at later
      omega
    | cons m' before =>
      rw [List.cons_append, List.cons.injEq] at hms
      obtain ⟨rfl, hms⟩ := hms
      have fit := h before n after early piece late hms hpieces
      simp only [List.cons_append, encodeAll_cons, List.length_append] at fit later ⊢
      omega

/-- Another piece is read where there is room for it. -/
theorem fits_cons_piece (room : kept + piece.length ≤ maxMessageSize) :
    Fits kept ms (piece :: pieces) ↔ Fits (kept + piece.length) ms pieces := by
  constructor
  · intro h before n after early q late hms hpieces
    have fit := h before n after (piece :: early) q late hms (by rw [hpieces]; rfl)
    simpa only [List.flatten_cons, List.length_append, Nat.add_assoc] using fit
  · intro h before n after early q late hms hpieces
    cases early with
    | nil =>
      -- the piece has room, whichever message it completes
      cases hpieces
      simp only [List.flatten_nil, List.length_nil]
      omega
    | cons q' early =>
      rw [List.cons_append, List.cons.injEq] at hpieces
      obtain ⟨rfl, hpieces⟩ := hpieces
      have fit := h before n after early q late hms hpieces
      simpa only [List.flatten_cons, List.length_append, Nat.add_assoc] using fit

/-- A piece for which there is no room completes a message that does not fit. -/
theorem not_fits_cons_piece (small : ∀ m ∈ ms, m.encode.length ≤ maxMessageSize)
    {buffer : Bytes} (short : Partial buffer ms) (some_left : ms ≠ [])
    (large : maxMessageSize < buffer.length + piece.length) :
    ¬ Fits buffer.length ms (piece :: pieces) := by
  intro h
  cases ms with
  | nil => exact some_left rfl
  | cons m ms =>
    have size := small m List.mem_cons_self
    have first : buffer.length < m.encode.length := short m.envelope rfl
    have fit := h [] m ms [] piece pieces rfl rfl
    simp only [List.nil_append, encodeAll_cons, encodeAll_nil, List.append_nil, List.flatten_nil,
      List.length_nil] at fit
    omega

/-- Messages that leave room for a read fit, however they are cut; the last of all need not leave
any. -/
theorem Fits.of_slack (whole : pieces.flatten = encodeAll ms)
    (small : ∀ m ∈ ms, m.encode.length ≤ maxMessageSize)
    (chunks : ∀ piece ∈ pieces, piece.length ≤ readChunk)
    (slack : ∀ m ∈ ms.dropLast, m.encode.length + readChunk ≤ maxMessageSize + 1) :
    Fits 0 ms pieces := by
  rintro before m after early piece late rfl rfl later -
  have chunk := chunks piece (List.mem_append_right _ List.mem_cons_self)
  simp only [encodeAll_append, encodeAll_cons, encodeAll_nil, List.append_nil,
    List.length_append] at later ⊢
  cases after with
  | nil =>
    -- behind the last message nothing comes
    have size := small m (List.mem_append_right _ List.mem_cons_self)
    have total := congrArg List.length whole
    simp only [List.flatten_append, List.flatten_cons, encodeAll_append, encodeAll_cons,
      encodeAll_nil, List.append_nil, List.length_append] at total
    omega
  | cons n after =>
    have size := slack m (by simp)
    omega

/-! ### Taking input once -/

namespace Session

variable {s : Session}

/-- The first message of a stream is taken off the bytes that have been read if it is there whole,
and otherwise nothing is. -/
theorem nextEnvelope_stream (small : ∀ m ∈ ms, m.encode.length ≤ maxMessageSize) {missing : Bytes}
    (stream : s.inbound ++ missing = encodeAll ms) :
    (s.nextEnvelope = (.ok none, s) ∧ Partial s.inbound ms) ∨
      ∃ m rest more, ms = m :: rest ∧ s.inbound = m.encode ++ more ∧
        more ++ missing = encodeAll rest ∧
        s.nextEnvelope = (.ok (some m.envelope), { s with inbound := more }) := by
  rcases decodeOne_messages small stream with
    ⟨none_yet, short⟩ | ⟨m, rest, more, rfl, inbound, left, found⟩
  · exact Or.inl ⟨nextEnvelope_none none_yet, short⟩
  · refine Or.inr ⟨m, rest, more, rfl, inbound, left, ?_⟩
    rw [nextEnvelope_found found, inbound, List.drop_left]

/-- An envelope that has been read comes first. -/
theorem intake_found {t : Session} {e : Envelope} (found : s.nextEnvelope = (.ok (some e), t))
    (incoming : Incoming) : s.intake incoming = (.envelope e, t) ∧ s.isShort = false := by
  constructor
  · simp only [intake, found, perform]
    rfl
  · simp only [isShort, found]

/-- Where nothing comes nothing happens. -/
theorem intake_idle (short : s.nextEnvelope = (.ok none, s)) :
    s.intake (.waiting []) = (.more, s) ∧ s.isShort = true := by
  constructor
  · simp only [intake, short, fill, perform]
    rfl
  · simp only [isShort, short]

/-- A piece for which there is room is read. -/
theorem fill_piece (chunk : piece.length ≤ readChunk)
    (room : s.inbound.length + piece.length ≤ maxMessageSize) :
    ∃ outcome, outcome ≠ .ended ∧
      s.fill (.waiting piece) = (.ok outcome, { s with inbound := s.inbound ++ piece }) := by
  have all : piece.take readChunk = piece := List.take_of_length_le chunk
  rcases fill_waiting (s := s) piece (by rwa [all]) with ⟨rfl, blocked⟩ | full
  · exact ⟨.wouldBlock, by simp, by rw [blocked, List.append_nil]⟩
  · rw [all] at full
    exact ⟨.data piece.length, by simp, full⟩

/-- A piece for which there is no room is an error. -/
theorem fill_oversized (chunk : piece.length ≤ readChunk) (some_bytes : piece ≠ [])
    (large : maxMessageSize < s.inbound.length + piece.length) :
    (s.fill (.waiting piece)).1 =
      .error (.decode (.oversized (s.inbound.length + piece.length) maxMessageSize)) := by
  cases piece with
  | nil => exact absurd rfl some_bytes
  | cons b bs =>
    unfold fill
    simp only
    rw [List.take_of_length_le chunk, List.length_append, if_pos large]

/-- Once a piece has been read, what there is is decoded. -/
theorem intake_piece (short : s.nextEnvelope = (.ok none, s)) (chunk : piece.length ≤ readChunk)
    (room : s.inbound.length + piece.length ≤ maxMessageSize) {t : Session}
    (read : t = { s with inbound := s.inbound ++ piece }) :
    s.intake (.waiting piece) = (.ofDecoded t.nextEnvelope.1, t.nextEnvelope.2) ∧
      s.isShort = true := by
  obtain ⟨outcome, sound, filled⟩ := s.fill_piece chunk room
  rw [← read] at filled
  have after : s.perform (.fill (.waiting piece)) = t := by rw [perform, filled]
  constructor
  · unfold intake
    rw [short]
    simp only
    rw [filled, after]
    cases outcome with
    | ended => exact absurd rfl sound
    | data n => rfl
    | wouldBlock => rfl
  · simp only [isShort, short]

theorem intake_oversized (short : s.nextEnvelope = (.ok none, s))
    (chunk : piece.length ≤ readChunk) (some_bytes : piece ≠ [])
    (large : maxMessageSize < s.inbound.length + piece.length) :
    (s.intake (.waiting piece)).1 =
      .failed (.decode (.oversized (s.inbound.length + piece.length) maxMessageSize)) := by
  unfold intake
  rw [short]
  simp only
  rw [fill_oversized chunk some_bytes large]

/-- How far an intake brings a stream of messages that comes in pieces: the next message is
delivered, or a piece is read that completes none, or the stream does not fit.  Whether the rest of
the stream fits is whether the whole did. -/
inductive Advance (kept : Nat) (ms : List Message) (pieces : List Bytes) (taken : Intake)
    (t : Session) (rest : List Bytes) : Prop
  | message {m : Message} {later : List Message} (next : ms = m :: later)
      (delivers : taken = .envelope m.envelope) (left : t.inbound ++ rest.flatten = encodeAll later)
      (fits : Fits kept ms pieces ↔ Fits t.inbound.length later rest)
  | more (nothing : taken = .more) (left : t.inbound ++ rest.flatten = encodeAll ms)
      (onward : ms = [] ∧ pieces = [] ∨ rest.length < pieces.length)
      (fits : Fits kept ms pieces ↔ Fits t.inbound.length ms rest)
  | oversized {size : Nat} (fails : taken = .failed (.decode (.oversized size maxMessageSize)))
      (unfit : ¬ Fits kept ms pieces)

/-- Reading a piece for which there is room brings the stream on. -/
theorem advance_piece (small : ∀ m ∈ ms, m.encode.length ≤ maxMessageSize)
    (stream : s.inbound ++ piece ++ pieces.flatten = encodeAll ms)
    (room : s.inbound.length + piece.length ≤ maxMessageSize) {t : Session}
    (read : t = { s with inbound := s.inbound ++ piece }) :
    Advance s.inbound.length ms (piece :: pieces) (.ofDecoded t.nextEnvelope.1) t.nextEnvelope.2
      pieces := by
  have inbound : t.inbound = s.inbound ++ piece := by rw [read]
  have fits : Fits s.inbound.length ms (piece :: pieces) ↔ Fits t.inbound.length ms pieces := by
    rw [inbound, List.length_append]
    exact fits_cons_piece room
  rw [← inbound] at stream
  rcases nextEnvelope_stream small stream with
    ⟨still, -⟩ | ⟨m, later, more, rfl, whole, left, found⟩
  · rw [still]
    exact .more rfl stream (Or.inr (Nat.lt_succ_self _)) fits
  · rw [found]
    refine .message rfl rfl left (fits.trans ?_)
    rw [whole, List.length_append]
    exact fits_cons_message

/-- A piece for which there is no room has some bytes: a part of a message of legal size alone is
not too large. -/
theorem piece_ne_nil (small : ∀ m ∈ ms, m.encode.length ≤ maxMessageSize)
    (short : Partial s.inbound ms) (some_left : ms ≠ [])
    (large : maxMessageSize < s.inbound.length + piece.length) : piece ≠ [] := by
  rintro rfl
  obtain ⟨m, ms, rfl⟩ := List.exists_cons_of_ne_nil some_left
  have first : s.inbound.length < m.encode.length := short m.envelope rfl
  have size := small m List.mem_cons_self
  simp only [List.length_nil] at large
  omega

/-- What taking input once does to a stream of messages that comes in pieces. -/
theorem intake_stream (small : ∀ m ∈ ms, m.encode.length ≤ maxMessageSize)
    (chunks : ∀ piece ∈ pieces, piece.length ≤ readChunk)
    (stream : s.inbound ++ pieces.flatten = encodeAll ms) {taken : Intake} {t : Session}
    (hintake : s.intake (.waiting (pieces.headD [])) = (taken, t)) :
    Advance s.inbound.length ms pieces taken t (if s.isShort then pieces.tail else pieces) := by
  rcases nextEnvelope_stream small stream with
    ⟨none_yet, short⟩ | ⟨m, later, more, rfl, inbound, left, found⟩
  · cases pieces with
    | nil =>
      obtain ⟨idle, isShort⟩ := intake_idle none_yet
      rw [List.headD_nil, idle] at hintake
      cases hintake
      rw [isShort]
      have nothing_left : ms = [] := by
        rw [List.flatten_nil, List.append_nil, encodeAll_eq] at stream
        rw [stream] at short
        exact List.map_eq_nil_iff.1 short.eq_nil
      exact .more rfl stream (Or.inl ⟨nothing_left, rfl⟩) Iff.rfl
    | cons piece pieces =>
      have chunk := chunks piece List.mem_cons_self
      rw [List.headD_cons] at hintake
      rw [List.flatten_cons, ← List.append_assoc] at stream
      by_cases room : s.inbound.length + piece.length ≤ maxMessageSize
      · obtain ⟨read, isShort⟩ := intake_piece none_yet chunk room rfl
        rw [read] at hintake
        cases hintake
        rw [isShort]
        exact advance_piece small stream room rfl
      · have large := Nat.lt_of_not_le room
        have some_left : ms ≠ [] := by
          rintro rfl
          have total := congrArg List.length stream
          simp only [List.length_append, encodeAll_nil, List.length_nil] at total
          omega
        have failed := intake_oversized none_yet chunk (piece_ne_nil small short some_left large)
          large
        rw [hintake] at failed
        exact .oversized failed (not_fits_cons_piece small short some_left large)
  · obtain ⟨envelope, isShort⟩ := intake_found found (.waiting (pieces.headD []))
    rw [envelope] at hintake
    cases hintake
    rw [isShort]
    refine .message rfl rfl left ?_
    rw [inbound, List.length_append]
    exact fits_cons_message

/-! ### Taking input again and again -/

/-- The messages that are delivered. -/
def deliveries (log : List Intake) : List Message := log.filterMap Intake.message?

theorem deliveries_envelope (m : Message) (log : List Intake) :
    deliveries (.envelope m.envelope :: log) = m :: deliveries log := by
  simp [deliveries, Intake.message?, m.message_envelope, Except.toOption]

theorem deliveries_more (log : List Intake) : deliveries (.more :: log) = deliveries log := rfl

/-- A peer that is kept is asked again. -/
theorem services_sound {taken : Intake} {t : Session} (n : Nat)
    (hintake : s.intake (.waiting (pieces.headD [])) = (taken, t)) (sound : taken.isSound = true) :
    s.services (n + 1) pieces =
      taken :: t.services n (if s.isShort then pieces.tail else pieces) := by
  rw [services, hintake]
  simp only
  rw [if_pos sound]

/-- A peer that is not kept is not. -/
theorem services_broken {taken : Intake} {t : Session} (n : Nat)
    (hintake : s.intake (.waiting (pieces.headD [])) = (taken, t))
    (broken : taken.isSound = false) : s.services (n + 1) pieces = [taken] := by
  rw [services, hintake]
  simp only
  rw [broken]
  rfl

/-- What taking input so many times does to a stream of messages that comes in pieces.  The next
messages are delivered in order.  If the stream fits nothing goes wrong, and in the end all have
been delivered; if it does not, in the end too much has been read. -/
theorem services_spec (n : Nat) : ∀ {s : Session} {ms : List Message} {pieces : List Bytes},
    (∀ m ∈ ms, m.encode.length ≤ maxMessageSize) → (∀ piece ∈ pieces, piece.length ≤ readChunk) →
    s.inbound ++ pieces.flatten = encodeAll ms →
      deliveries (s.services n pieces) <+: ms ∧
      (Fits s.inbound.length ms pieces → (∀ taken ∈ s.services n pieces, taken.isSound = true) ∧
        (ms.length + pieces.length ≤ n → deliveries (s.services n pieces) = ms)) ∧
      (¬ Fits s.inbound.length ms pieces → ms.length + pieces.length ≤ n →
        ∃ size, .failed (.decode (.oversized size maxMessageSize)) ∈ s.services n pieces) := by
  induction n with
  | zero =>
    intro s ms pieces _ _ _
    have nothing (enough : ms.length + pieces.length ≤ 0) : ms = [] ∧ pieces = [] :=
      ⟨List.eq_nil_of_length_eq_zero (by omega), List.eq_nil_of_length_eq_zero (by omega)⟩
    have sound : ∀ taken ∈ s.services 0 pieces, taken.isSound = true := by simp [services]
    refine ⟨List.nil_prefix, fun _ => ⟨sound, fun enough => ?_⟩, fun unfit enough => ?_⟩
    · rw [(nothing enough).1]
      rfl
    · rw [(nothing enough).2] at unfit
      exact absurd (fits_nil _ _) unfit
  | succ n ih =>
    intro s ms pieces small chunks stream
    obtain ⟨⟨taken, t⟩, hintake⟩ : ∃ i, s.intake (.waiting (pieces.headD [])) = i := ⟨_, rfl⟩
    have advance := intake_stream small chunks stream hintake
    have goesOn := services_sound n hintake
    have stops := services_broken n hintake
    have part : (if s.isShort then pieces.tail else pieces) <:+ pieces := by
      split
      · exact List.tail_suffix pieces
      · exact List.suffix_rfl
    generalize (if s.isShort then pieces.tail else pieces) = rest at part advance goesOn
    have chunks' : ∀ piece ∈ rest, piece.length ≤ readChunk :=
      fun piece h => chunks piece (part.subset h)
    have fewer := part.length_le
    cases advance with
    | @message m later next delivers left fits =>
      subst next delivers
      obtain ⟨first, sound, broken⟩ :=
        ih (fun m hm => small m (List.mem_cons_of_mem _ hm)) chunks' left
      rw [goesOn rfl, fits, deliveries_envelope, List.length_cons]
      refine ⟨List.cons_prefix_cons.2 ⟨rfl, first⟩, fun fit => ?_, fun unfit enough => ?_⟩
      · obtain ⟨all, whole⟩ := sound fit
        exact ⟨List.forall_mem_cons.2 ⟨rfl, all⟩, fun enough => by rw [whole (by omega)]⟩
      · obtain ⟨size, failed⟩ := broken unfit (by omega)
        exact ⟨size, List.mem_cons_of_mem _ failed⟩
    | more nothing left onward fits =>
      subst nothing
      obtain ⟨first, sound, broken⟩ := ih small chunks' left
      rw [goesOn rfl, fits, deliveries_more]
      -- Either a piece has been read or there is nothing left to wait for.
      have enough' (enough : ms.length + pieces.length ≤ n + 1) : ms.length + rest.length ≤ n := by
        rcases onward with ⟨rfl, rfl⟩ | onward
        · simp only [List.length_nil] at fewer ⊢
          omega
        · omega
      refine ⟨first, fun fit => ?_, fun unfit enough => ?_⟩
      · obtain ⟨all, whole⟩ := sound fit
        exact ⟨List.forall_mem_cons.2 ⟨rfl, all⟩, fun enough => whole (enough' enough)⟩
      · obtain ⟨size, failed⟩ := broken unfit (enough' enough)
        exact ⟨size, List.mem_cons_of_mem _ failed⟩
    | @oversized size fails unfit =>
      subst fails
      rw [stops rfl]
      exact ⟨List.nil_prefix, fun fit => absurd fit unfit,
        fun _ _ => ⟨size, List.mem_singleton_self _⟩⟩

/-- **Messages are delivered exactly if they fit.**  Messages of legal size are sent one after the
other, and reads bring them in pieces.  Too much is read at some time just if one of them does not
fit together with the read that completes it; if all do, all are delivered, in order, and nothing
goes wrong.  Messages but the last that leave room for a read always fit. -/
theorem services_fit {s : Session} {ms : List Message} {pieces : List Bytes}
    (fresh : s.inbound = []) (small : ∀ m ∈ ms, m.encode.length ≤ maxMessageSize)
    (chunks : ∀ piece ∈ pieces, piece.length ≤ readChunk) (whole : pieces.flatten = encodeAll ms) :
    ((∃ n size, .failed (.decode (.oversized size maxMessageSize)) ∈ s.services n pieces) ↔
        ¬ Fits 0 ms pieces) ∧
      (Fits 0 ms pieces → ∀ n, (∀ taken ∈ s.services n pieces, taken.isSound = true) ∧
        deliveries (s.services n pieces) <+: ms ∧
        (ms.length + pieces.length ≤ n → deliveries (s.services n pieces) = ms)) ∧
      ((∀ m ∈ ms.dropLast, m.encode.length + readChunk ≤ maxMessageSize + 1) →
        Fits 0 ms pieces) := by
  have stream : s.inbound ++ pieces.flatten = encodeAll ms := by rw [fresh, whole, List.nil_append]
  have nothing : s.inbound.length = 0 := by rw [fresh, List.length_nil]
  have spec := fun n => services_spec n small chunks stream
  rw [nothing] at spec
  refine ⟨⟨fun ⟨n, size, failed⟩ fit => ?_, fun unfit => ?_⟩, fun fit n => ?_,
    Fits.of_slack whole small chunks⟩
  · have sound := ((spec n).2.1 fit).1 _ failed
    cases sound
  · exact ⟨_, (spec _).2.2 unfit (Nat.le_refl _)⟩
  · obtain ⟨first, sound, -⟩ := spec n
    exact ⟨(sound fit).1, first, (sound fit).2⟩

/-- Two messages that come in one read. -/
theorem services_fit_together :
    let ms : List Message := [.discovery [], .discovery ["10.0.0.1:7000"]]
    deliveries (start.services 3 [encodeAll ms]) = ms ∧
      ∀ taken ∈ start.services 3 [encodeAll ms], taken.isSound = true := by
  intro ms
  have small : ∀ m ∈ ms, m.encode.length ≤ maxMessageSize := by decide +kernel
  have chunks : ∀ piece ∈ [encodeAll ms], piece.length ≤ readChunk := by decide +kernel
  have slack : ∀ m ∈ ms.dropLast, m.encode.length + readChunk ≤ maxMessageSize + 1 := by
    decide +kernel
  have whole : [encodeAll ms].flatten = encodeAll ms := List.flatten_singleton
  obtain ⟨-, fit, fits⟩ := services_fit (s := start) rfl small chunks whole
  obtain ⟨sound, -, all⟩ := fit (fits slack) 3
  exact ⟨all (Nat.le_refl _), sound⟩

end Session

/-! ### Messages that do not fit -/

/-- So many letters of one byte each. -/
def letters (n : Nat) : String := String.ofList (List.replicate n 'a')

theorem utf8_letters (n : Nat) : utf8 (letters n) = List.replicate n 0x61 := by
  simp only [utf8, letters, String.toList_ofList, Utf8.encode]
  induction n with
  | zero => rfl
  | succ n ih =>
    rw [List.replicate_succ, List.flatMap_cons, ih]
    rfl

theorem length_render_letters (n : Nat) : (JsonString.render (letters n)).length = n + 2 := by
  have plain : (List.replicate n 0x61).flatMap JsonString.escape = List.replicate n 0x61 := by
    induction n with
    | zero => rfl
    | succ n ih =>
      rw [List.replicate_succ, List.flatMap_cons, ih]
      rfl
  rw [JsonString.render, utf8_letters, plain]
  simp

/-- A farewell takes 51 bytes and those of its text. -/
theorem length_encode_letters (n : Nat) :
    (Message.disconnect .unknown (letters n)).encode.length = n + 51 := by
  have none_left : (Json.renderMembers []).length = 0 := rfl
  have tag : (decimalBytes (UInt64.toNat 2)).length = 1 := by decide
  have reason : (JsonString.render "reason").length = 8 := by decide
  have text : (JsonString.render "text").length = 6 := by decide
  have unknown : (JsonString.render DisconnectReason.unknown.wireName).length = 9 := by decide
  rw [Message.encode, Envelope.length_render]
  simp only [Message.envelope, Message.payload, Message.kind, MessageKind.tag,
    Json.render_object_cons, Json.renderMembers_cons, Json.render_scalar, Scalar.render,
    List.length_cons, List.length_append, Json.length_renderMember, length_render_letters]
  rw [none_left, tag, reason, text, unknown]
  simp only [List.length_nil]
  omega

/-- A message of the largest size does not fit where the read that completes it brings a byte of the
next one. -/
theorem exists_not_fits {m n : Message} (full : m.encode.length = maxMessageSize) :
    ∃ pieces : List Bytes, (∀ piece ∈ pieces, piece.length ≤ readChunk) ∧
      pieces.flatten = encodeAll [m, n] ∧ ¬ Fits 0 [m, n] pieces := by
  obtain ⟨first, a, hm⟩ : ∃ first a, m.encode = first ++ [a] :=
    ⟨_, _, (List.dropLast_concat_getLast m.envelope.render_ne_nil).symm⟩
  obtain ⟨b, last, hn⟩ := List.exists_cons_of_ne_nil n.envelope.render_ne_nil
  rw [show n.envelope.render = n.encode from rfl] at hn
  have singles : ∀ bs : Bytes, (bs.map fun b => [b]).flatten = bs := by
    intro bs
    rw [← List.flatMap_def, List.flatMap_singleton']
  refine ⟨(first.map fun b => [b]) ++ [a, b] :: last.map fun b => [b], ?_, ?_, fun fit => ?_⟩
  · intro piece h
    have short : piece.length ≤ 2 := by
      simp only [List.mem_append, List.mem_cons, List.mem_map] at h
      rcases h with ⟨c, -, rfl⟩ | rfl | ⟨c, -, rfl⟩ <;> simp
    exact Nat.le_trans short (by decide)
  · simp [hm, hn, singles]
  · have fits := fit [] m [n] _ [a, b] _ rfl rfl
    rw [hm] at full
    simp only [singles, List.nil_append, encodeAll_cons, encodeAll_nil, List.append_nil, hm,
      List.length_append, List.length_cons, List.length_nil] at fits full
    omega

/-- Not every stream of messages of legal size is delivered, however it is cut. -/
theorem exists_undelivered : ¬ ∀ (s : Session) (ms : List Message) (pieces : List Bytes),
    s.inbound = [] → (∀ m ∈ ms, m.encode.length ≤ maxMessageSize) →
    (∀ piece ∈ pieces, piece.length ≤ readChunk) → pieces.flatten = encodeAll ms →
      (∀ n size, .failed (.decode (.oversized size maxMessageSize)) ∉ s.services n pieces) ∧
        ∃ n, Session.deliveries (s.services n pieces) = ms := by
  intro all
  let longest : Message := .disconnect .unknown (letters (maxMessageSize - 51))
  let next : Message := .discovery []
  have full : longest.encode.length = maxMessageSize := by
    have room : 51 ≤ maxMessageSize := by decide
    rw [length_encode_letters]
    omega
  have small : ∀ m ∈ [longest, next], m.encode.length ≤ maxMessageSize := by
    have brief : next.encode.length ≤ maxMessageSize := by decide +kernel
    simp only [List.mem_cons, List.not_mem_nil, or_false]
    rintro m (rfl | rfl)
    · exact Nat.le_of_eq full
    · exact brief
  obtain ⟨pieces, chunks, whole, unfit⟩ := exists_not_fits (n := next) full
  obtain ⟨-, -, broken⟩ := Session.services_spec ([longest, next].length + pieces.length)
    (s := .start) small chunks whole
  obtain ⟨size, failed⟩ := broken unfit (Nat.le_refl _)
  exact (all .start _ pieces rfl small chunks whole).1 _ size failed

end GossipNode
