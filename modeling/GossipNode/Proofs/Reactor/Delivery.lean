import GossipNode.Proofs.Message.Payload
import GossipNode.Proofs.Reactor.Frames
import GossipNode.Proofs.Reactor.Introductions
import GossipNode.Proofs.Reactor.Serving

/-!
# Delivery

The other side of a connection sends envelopes one after the other, and perhaps then no more.  How
the bytes arrive and what else the node does in the meantime is not up to it.  Nonetheless every
envelope is acted upon once, in the order in which it was sent, until one ends the conversation.

What keeps this up from turn to turn is that what has been read and not decoded and what has not
been read make up the envelopes that are left, and that the peer has been put back if the next one
of them has been read.

## Main definitions

* `Envelope.IsItem` — what the other side sends.
* `through` — the envelopes up to the one that ends the conversation.
* `Reactor.Course` — what may happen in the meantime, and what is left unread.
* `Reactor.Progress` — how far a delivery has come.
* `Reactor.Hearing` — what serving a peer comes to.

## Main results

* `Reactor.serve_hearing` — what serving a peer comes to in the middle of a delivery.
* `Reactor.Progress.react` — a delivery goes on, whatever happens.
* `Reactor.delivered_in_order` — **every envelope is acted upon once and in order, up to the one
  that ends the conversation.**
-/

namespace GossipNode

/-! ### What is sent -/

/-- An envelope that the other side may send: that of a message, or one of a kind that is not
known. -/
inductive Envelope.IsItem : Envelope → Prop
  | message (m : Message) : IsItem m.envelope
  | unknown {e : Envelope} (kind : MessageKind.ofTag? e.tag = none) (plain : e.isPlain = true) :
    IsItem e

theorem Envelope.IsItem.isPlain {e : Envelope} (h : e.IsItem) : e.isPlain = true := by
  cases h with
  | message m => exact m.isPlain_envelope
  | unknown kind plain => exact plain

/-- Of what may be sent, farewells end the conversation and introductions that are refused. -/
theorem closes_item {e : Envelope} (h : e.IsItem) (config : ReactorConfig) :
    config.closes e = true ↔ (∃ why text, e.message = .ok (.disconnect why text)) ∨
      ∃ info, e.message = .ok (.peerInfo info) ∧ ¬ config.admits info := by
  cases h with
  | message m =>
    unfold ReactorConfig.closes
    rw [Message.message_envelope]
    cases m with
    | peerInfo info =>
      simp only [Bool.not_eq_true', decide_eq_false_iff_not]
      refine ⟨fun strange => Or.inr ⟨info, rfl, strange⟩, ?_⟩
      rintro (⟨why, text, impossible⟩ | ⟨other, same, strange⟩)
      · cases impossible
      · cases same
        exact strange
    | discovery addresses => simp
    | disconnect why text => simp
  | unknown kind plain =>
    have strange : e.message = .error (.unknownType e.tag) := by
      unfold Envelope.message
      rw [kind]
    unfold ReactorConfig.closes
    rw [strange]
    simp [DecodeError.isFatal]

/-- The envelopes up to the first one that ends the conversation, and this one. -/
def through (closes : Envelope → Bool) : List Envelope → List Envelope
  | [] => []
  | e :: es => e :: if closes e then [] else through closes es

/-- Envelopes that do not end the conversation are followed by others. -/
theorem through_append {closes : Envelope → Bool} {es : List Envelope} (fs : List Envelope)
    (h : ∀ e ∈ es, closes e = false) : through closes (es ++ fs) = es ++ through closes fs := by
  induction es with
  | nil => rfl
  | cons e es ih =>
    have open_here := h e List.mem_cons_self
    rw [List.cons_append, through, open_here, ih fun f hf => h f (List.mem_cons_of_mem _ hf)]
    rfl

/-! ### What may happen in the meantime -/

/-- What the socket of a peer holds is some of what the other side has sent and has not been read,
or its end where all has been read and no more comes. -/
def Incoming.Fits (unread : Bytes) (ends : Bool) : Incoming → Prop
  | .waiting bytes => bytes <+: unread
  | .ended => unread = [] ∧ ends = true
  | .failed _ => False

/-- What is served does not get into the way of a delivery: the run does not end, the peer is not
dismissed and not late, and its socket does not fail. -/
def Wakeup.Suits (id : PeerId) (unread : Bytes) (ends : Bool) (r : Reactor) (means : Means) :
    Wakeup → Prop
  | .peer k _ => k = id → means.incoming.Fits unread ends ∧ Willing means.writes
  | .control none | .control (some .shutdown) | .failed _ => False
  | .control (some (.sendHandshake k)) => k = id → Willing means.writes
  | .control (some (.closePeer k)) => k ≠ id
  | .tick => ¬ r.Overdue means.now id
  | _ => True

/-- What happens does not get into the way of a delivery. -/
def Stimulus.Suits (id : PeerId) (unread : Bytes) (ends : Bool) (r : Reactor) : Stimulus → Prop
  | .turn sight means => ∀ w, (r.wait sight).1 = some w → w.Suits id unread ends r means
  | _ => True

namespace Reactor

/-- How many bytes have been read from a peer between two points of a run. -/
def readSince (id : PeerId) (r s : Reactor) : Nat := bytesRead id s.deeds - bytesRead id r.deeds

/-- What may happen during a delivery: anything that does not get into its way.  What the other side
has sent and has not been read is kept along. -/
inductive Course (id : PeerId) (ends : Bool) (r : Reactor) (sent : Bytes) : Reactor → Bytes → Prop
  | start : Course id ends r sent r sent
  | next {s : Reactor} {unread : Bytes} (earlier : Course id ends r sent s unread)
      (stimulus : Stimulus) (suits : stimulus.Suits id unread ends s) :
    Course id ends r sent (s.react stimulus) (unread.drop (readSince id s (s.react stimulus)))

/-- No bytes of a peer are left to do anything about: it has gone, or it has not been put back and
all has been read. -/
def Settled (id : PeerId) (unread : Bytes) (r : Reactor) : Prop :=
  r.table.get? id = none ∨ (id ∉ r.mux.pending ∧ unread = [])

/-- How far a delivery has come. -/
inductive Progress (id : PeerId) (base items : List Envelope) (unread : Bytes) (r : Reactor) :
    Prop
  /-- Some envelopes have been acted upon.  The others are what is buffered and what is unread, and
  the peer has been put back if the next one is in the buffer. -/
  | underway {p : Peer} {done rest : List Envelope} (there : r.table.get? id = some p)
      (split : items = done ++ rest) (calm : ∀ e ∈ done, r.config.closes e = false)
      (dispatched : dispatchedTo id r.deeds = base ++ done)
      (stream : p.session.inbound ++ unread = renderAll rest)
      (due : Short p.session.inbound rest ∨ id ∈ r.mux.pending)
  /-- The conversation is over. -/
  | ended (gone : r.table.get? id = none)
      (dispatched : dispatchedTo id r.deeds = base ++ through r.config.closes items)

/-- A delivery goes on after some of what was unread has been read. -/
def Advances (id : PeerId) (base items : List Envelope) (unread : Bytes) (r s : Reactor) : Prop :=
  ∃ n, bytesRead id s.deeds = bytesRead id r.deeds + n ∧ Progress id base items (unread.drop n) s

variable {id : PeerId} {base items : List Envelope} {unread : Bytes} {ends : Bool}
  {r s : Reactor} {p : Peer}

/-! ### Others are served -/

theorem quiet_of_about {d : Deed} (other : d.about ≠ some id) :
    d.dispatched? id = none ∧ d.amount? id = none := by
  cases d with
  | dispatched k e => exact ⟨if_neg fun same => other (congrArg some same), rfl⟩
  | read k outcome =>
    refine ⟨rfl, ?_⟩
    unfold Deed.amount?
    split
    · next k' n h =>
      cases h
      exact if_neg fun same => other (congrArg some same)
    · rfl
  | _ => exact ⟨rfl, rfl⟩

theorem Spares.fed (h : Spares id r s) : Fed id r s [] 0 := by
  obtain ⟨new, deeds, about⟩ := h.deeds
  exact fed_quiet deeds fun d hd => quiet_of_about (about d hd)

/-- A delivery is where it was after others have been served. -/
theorem Progress.spared (h : Progress id base items unread r) (spares : Spares id r s)
    (config : s.config = r.config) : Progress id base items unread s := by
  have same : dispatchedTo id s.deeds = dispatchedTo id r.deeds :=
    spares.fed.dispatched.trans (List.append_nil _)
  cases h with
  | underway there split calm dispatched stream due =>
    exact .underway (spares.entry.trans there) split (config ▸ calm) (same.trans dispatched) stream
      (due.imp_right spares.pending.2)
  | ended gone dispatched =>
    refine .ended (spares.entry.trans gone) ?_
    rw [same, dispatched, config]

theorem Advances.of_progress (fed : Fed id r s [] 0) (h : Progress id base items unread s) :
    Advances id base items unread r s := ⟨0, fed.read, h⟩

/-! ### The peer is served -/

/-- After an envelope that does not end the conversation, what is left is less than the next one or
the peer has been put back: bytes that are left may hold the next envelope. -/
theorem Served.due {e : Envelope} {left : Bytes} {n : Nat} (h : Served r s id e left n)
    (stays : r.config.closes e = false) (more : List Envelope) :
    ∃ q, s.table.get? id = some q ∧ q.session.inbound = left ∧
      (Short left more ∨ id ∈ s.mux.pending) := by
  obtain ⟨q, there, inbound, requeued⟩ := h.stays stays
  refine ⟨q, there, inbound, ?_⟩
  by_cases nothing : left = []
  · exact Or.inl (nothing ▸ short_nil more)
  · exact Or.inr (requeued nothing)

/-- Once an envelope has been acted upon the delivery goes on with those behind it, or is over. -/
theorem Progress.served {e : Envelope} {done more : List Envelope} {left : Bytes} {n : Nat}
    (split : items = done ++ e :: more) (calm : ∀ f ∈ done, r.config.closes f = false)
    (dispatched : dispatchedTo id r.deeds = base ++ done) (config : s.config = r.config)
    (served : Served r s id e left n) (stream : left ++ unread = renderAll more) :
    Progress id base items unread s := by
  have told : dispatchedTo id s.deeds = base ++ (done ++ [e]) := by
    rw [served.fed.dispatched, dispatched, List.append_assoc]
  cases closes : r.config.closes e with
  | true =>
    refine .ended (served.closed closes) ?_
    rw [told, split, config, through_append _ calm, through, closes]
    rfl
  | false =>
    obtain ⟨q, there, rfl, due⟩ := served.due closes more
    have split' : items = done ++ [e] ++ more := split.trans (List.append_cons done e more)
    refine .underway there split' (fun f hf => ?_) told stream due
    rw [config]
    rcases List.mem_append.1 hf with early | last
    · exact calm f early
    · rw [List.mem_singleton.1 last]
      exact closes

/-- What serving a peer comes to whose other side has sent some envelopes.  Of their bytes that have
not been read some have arrived, and others are behind these and may never do so. -/
inductive Hearing (id : PeerId) (rest : List Envelope) (unread behind : Bytes) (ends : Bool)
    (r s : Reactor) : Prop
  /-- The next envelope is acted upon. -/
  | acted {e : Envelope} {more : List Envelope} {left : Bytes} {n : Nat} (first : rest = e :: more)
      (arrived : n ≤ unread.length)
      (stream : left ++ (unread ++ behind).drop n = renderAll more)
      (served : Served r s id e left n)
  /-- Perhaps something is read, but the next envelope has to wait. -/
  | kept {q : Peer} {n : Nat} (there : s.table.get? id = some q) (arrived : n ≤ unread.length)
      (stream : q.session.inbound ++ (unread ++ behind).drop n = renderAll rest)
      (due : Short q.session.inbound rest ∨ id ∈ s.mux.pending) (fed : Fed id r s [] n)
  /-- The other side has come to its end, and the peer is let go. -/
  | parted (ended : ends = true) (all : unread = []) (whole : behind = [] → rest = [])
      (gone : s.table.get? id = none) (fed : Fed id r s [] 0)

section Hearing

variable {rest : List Envelope} {behind : Bytes}

/-- **What taking input comes to in the middle of a delivery**: the next envelope is acted upon, or
what was read does not complete it, or nothing more arrives and the other side has come to its
end. -/
theorem takeInput_hearing (watched : r.mux.isRegistered p.id = true)
    (plain : ∀ e ∈ rest, e.isPlain = true)
    (small : ∀ e ∈ rest, e.render.length + readChunk ≤ maxMessageSize)
    (stream : p.session.inbound ++ (unread ++ behind) = renderAll rest) {incoming : Incoming}
    (fits : incoming.Fits unread ends) {writes : List WriteOutcome} (willing : Willing writes) :
    Hearing p.id rest unread behind ends r (r.takeInput p incoming writes) := by
  have bounded : ∀ e ∈ rest, e.render.length ≤ maxMessageSize := fun e he =>
    Nat.le_trans (Nat.le_add_right _ _) (small e he)
  rcases decodeOne_stream plain bounded stream with
    ⟨short, few⟩ | ⟨e, more, left, rfl, buffer, further, found⟩
  · cases incoming with
    | waiting bytes =>
      obtain ⟨later, split⟩ := (List.take_prefix readChunk bytes).trans fits
      -- What is buffered is shorter than the next envelope, which leaves room for a chunk.
      have room : p.session.inbound.length + readChunk ≤ maxMessageSize := by
        cases rest with
        | nil =>
          rw [(List.append_eq_nil_iff.1 stream).1]
          decide
        | cons e more =>
          have least := few e rfl
          have most := small e List.mem_cons_self
          omega
      have arrived : (bytes.take readChunk).length ≤ unread.length := by
        rw [← split, List.length_append]
        omega
      have dropped : (unread ++ behind).drop (bytes.take readChunk).length = later ++ behind := by
        rw [← split, List.append_assoc, List.drop_left]
      rw [← split, List.append_assoc, ← List.append_assoc] at stream
      rcases decodeOne_stream plain bounded stream with
        ⟨still, few⟩ | ⟨e, more, left, rfl, buffer, further, found⟩
      · obtain ⟨q, there, filled, fed⟩ := takeInput_incomplete r short room still writes
        refine .kept there arrived ?_ (Or.inl ?_) fed
        · rw [filled, dropped]
          exact stream
        · rw [filled]
          exact few
      · have served := takeInput_complete watched short room found willing
        rw [buffer, List.drop_left] at served
        exact .acted rfl arrived (dropped.symm ▸ further) served
    | ended =>
      -- The end is read only after everything else, and nothing whole is in the buffer.
      obtain ⟨rfl, ended⟩ := fits
      obtain ⟨gone, fed⟩ := takeInput_ended (r := r) short writes
      refine .parted ended rfl (fun nothing => ?_) gone fed
      rw [nothing, List.append_nil, List.append_nil] at stream
      exact (stream ▸ few).eq_nil
    | failed why => exact fits.elim
  · -- The next envelope has been read: the socket is not even looked at.
    have served := takeInput_decoded watched found incoming willing
    rw [buffer, List.drop_left] at served
    exact .acted rfl (Nat.zero_le _) further served

/-- What serving a peer comes to in the middle of a delivery. -/
theorem serve_hearing (h : r.Consistent) (there : r.table.get? id = some p)
    (plain : ∀ e ∈ rest, e.isPlain = true)
    (small : ∀ e ∈ rest, e.render.length + readChunk ≤ maxMessageSize)
    (stream : p.session.inbound ++ (unread ++ behind) = renderAll rest)
    (due : Short p.session.inbound rest ∨ id ∈ r.mux.pending) {sight : Sight} {ready : Readiness}
    (served : (r.wait sight).1 = some (.peer id ready)) {means : Means}
    (fits : means.incoming.Fits unread ends) (willing : Willing means.writes) :
    Hearing id rest unread behind ends r ((r.wait sight).2.serve id ready means) := by
  have same := h.keyed id p there
  subst same
  have watched := (h.isRegistered_iff p.id).2 ⟨p, there⟩
  have watched' := ((h.wait sight).isRegistered_iff p.id).2 ⟨p, there⟩
  obtain ⟨s, q, writes, held, number, inbound, mux, kept, fed, willing', outcome⟩ :=
    serve_spec (r := (r.wait sight).2) there ready willing
  have before : Fed p.id r s [] 0 := ⟨fed.dispatched, fed.read⟩
  have same : s.config = r.config := kept
  rw [outcome]
  rw [← inbound] at stream
  by_cases input : ready.readable ∨ ready.readClosed
  · rw [if_pos input]
    rw [← mux] at watched'
    rw [← number] at watched' before ⊢
    cases takeInput_hearing watched' plain small stream fits willing' with
    | acted first arrived stream served =>
      have all := served.after before same
      rw [Nat.zero_add] at all
      exact .acted first arrived stream all
    | kept there arrived stream due fed =>
      have all := before.trans fed
      rw [Nat.zero_add] at all
      exact .kept there arrived stream due all
    | parted ended all whole gone fed => exact .parted ended all whole gone (before.trans fed)
  · -- Only output was asked for, so it was not for bytes in the buffer that the peer was served.
    rw [if_neg input]
    have there' : s.table.get? p.id = some q := number ▸ held
    refine .kept there' (Nat.zero_le _) stream ?_ before
    rw [inbound, mux]
    refine due.imp_right fun waiting => ?_
    rcases wait_pending sight watched waiting with still | now
    · exact still
    · rw [served] at now
      cases now
      exact absurd (Or.inl rfl) input

end Hearing

/-- Serving the peer carries a delivery on. -/
theorem Progress.serve (h : Progress id base items unread r) (consistent : r.Consistent)
    (plain : ∀ e ∈ items, e.isPlain = true)
    (small : ∀ e ∈ items, e.render.length + readChunk ≤ maxMessageSize) {sight : Sight}
    {ready : Readiness} (due : (r.wait sight).1 = some (.peer id ready)) {means : Means}
    (fits : means.incoming.Fits unread ends) (willing : Willing means.writes) :
    Advances id base items unread r ((r.wait sight).2.serve id ready means) := by
  have waited := consistent.wait sight
  have config : ((r.wait sight).2.serve id ready means).config = r.config :=
    (serve_moves waited.keyed ready means : Moves (· = id) _ _).keeps.2
  cases h with
  | ended gone dispatched =>
    rw [serve_unknown (r := (r.wait sight).2) gone]
    exact .of_progress ⟨(List.append_nil _).symm, rfl⟩ (.ended gone dispatched)
  | @underway p done rest there split calm dispatched stream waiting =>
    have within : ∀ e ∈ rest, e ∈ items := fun e he => split ▸ List.mem_append_right done he
    rw [← List.append_nil unread] at stream
    cases serve_hearing consistent there (fun e he => plain e (within e he))
        (fun e he => small e (within e he)) stream waiting due fits willing with
    | @acted e more left n first arrived further served =>
      rw [List.append_nil] at further
      subst first
      exact ⟨n, served.fed.read, .served split calm dispatched config served further⟩
    | @kept q n there arrived further due fed =>
      rw [List.append_nil] at further
      have told := fed.dispatched
      rw [dispatched, List.append_nil] at told
      exact ⟨n, fed.read, .underway there split (config ▸ calm) told further due⟩
    | parted ended all whole gone fed =>
      obtain rfl := whole rfl
      refine .of_progress fed (.ended gone ?_)
      rw [fed.dispatched, dispatched, List.append_nil, config, split, through_append _ calm]
      exact (congrArg _ (List.append_nil done)).symm

/-- Introducing the node to the peer leaves a delivery where it is. -/
theorem Progress.greet (h : Progress id base items unread r) (consistent : r.Consistent)
    {writes : List WriteOutcome} (willing : Willing writes) :
    Advances id base items unread r (r.greet id writes) := by
  have config := (greet_moves consistent.keyed writes : Moves (· = id) _ _).keeps.2
  cases h with
  | ended gone dispatched =>
    rw [greet_unknown gone]
    exact .of_progress (fed_nothing id r) (.ended gone dispatched)
  | @underway p done rest there split calm dispatched stream due =>
    have same := consistent.keyed id p there
    subst same
    obtain ⟨⟨q, there', inbound, mux⟩, fed⟩ :=
      greet_spec there (consistent.talking p.id p there) willing
    have told := fed.dispatched
    rw [dispatched, List.append_nil] at told
    refine .of_progress fed (.underway there' split (config ▸ calm) told ?_ ?_)
    · rw [inbound]
      exact stream
    · rw [inbound, mux]
      exact due

/-! ### A course -/

/-- Waiting for something else than the bytes of the peer leaves a delivery where it is. -/
theorem Progress.wait (h : Progress id base items unread r) (consistent : r.Consistent)
    {sight : Sight} (other : (r.wait sight).1 ≠ some (.peer id .read)) :
    Progress id base items unread (r.wait sight).2 := by
  cases h with
  | ended gone dispatched => exact .ended gone dispatched
  | underway there split calm dispatched stream due =>
    refine .underway there split calm dispatched stream (due.imp_right fun waiting => ?_)
    have watched := (consistent.isRegistered_iff id).2 ⟨_, there⟩
    exact (wait_pending sight watched waiting).resolve_right other

theorem suits_ends {w : Wakeup} {means : Means} (suits : w.Suits id unread ends r means) :
    w.ends = false := by
  unfold Wakeup.ends
  split
  · exact suits.elim
  · exact suits.elim
  · exact suits.elim
  · rfl

/-- A turn that serves others leaves a delivery where it is. -/
theorem Progress.turn_other (h : Progress id base items unread r) (consistent : r.Consistent)
    {sight : Sight} {means : Means} {w : Wakeup} (due : (r.wait sight).1 = some w)
    (moves : Moves ((r.wait sight).2.concerns means w) (r.wait sight).2 s)
    (other : ¬ (r.wait sight).2.concerns means w id) : Advances id base items unread r s := by
  have spares := moves.spares other
  refine .of_progress ⟨spares.fed.dispatched, spares.fed.read⟩ ?_
  refine (h.wait consistent fun busy => other ?_).spared spares moves.keeps.2
  rw [due] at busy
  cases busy
  exact rfl

/-- Serving something on behalf of the peer carries a delivery on. -/
theorem Progress.turn_own (h : Progress id base items unread r) (consistent : r.Consistent)
    (known : id < r.nextId) (plain : ∀ e ∈ items, e.isPlain = true)
    (small : ∀ e ∈ items, e.render.length + readChunk ≤ maxMessageSize) {sight : Sight}
    {w : Wakeup} (due : (r.wait sight).1 = some w) {means : Means}
    (suits : w.Suits id unread ends r means) (own : (r.wait sight).2.concerns means w id) :
    Advances id base items unread r ((r.wait sight).2.handle w means) := by
  have fresh (same : id = r.nextId) : False := Nat.lt_irrefl r.nextId.value (same ▸ known)
  cases w with
  | peer k ready =>
    have same : id = k := own
    subst same
    exact h.serve consistent plain small due (suits rfl).1 (suits rfl).2
  | accept socket remote => exact (fresh own).elim
  | acceptFailed why => exact own.elim
  | tick => exact (suits own).elim
  | acceptResumed => exact own.elim
  | failed why => exact suits.elim
  | control command =>
    cases command with
    | none => exact suits.elim
    | some c =>
      cases c with
      | shutdown => exact suits.elim
      | closePeer k => exact (suits own.symm).elim
      | tryConnect => exact own.elim
      | adopt socket remote dialed => exact (fresh own).elim
      | sendHandshake k =>
        have same : id = k := own
        subst same
        have waited := h.wait consistent fun busy => by
          rw [due] at busy
          cases busy
        exact waited.greet (consistent.wait sight) (suits rfl)

/-- A turn carries a delivery on. -/
theorem Progress.turn (h : Progress id base items unread r) (consistent : r.Consistent)
    (known : id < r.nextId) (plain : ∀ e ∈ items, e.isPlain = true)
    (small : ∀ e ∈ items, e.render.length + readChunk ≤ maxMessageSize) {sight : Sight}
    {means : Means} (suits : (Stimulus.turn sight means).Suits id unread ends r) :
    Advances id base items unread r (r.turn sight means) := by
  by_cases running : r.running = true
  · have waited := consistent.wait sight
    rcases turn_cases running sight means waited.keyed with
      ⟨quiet, same⟩ | ⟨w, due, ⟨last, -⟩ | ⟨-, moves⟩⟩
    · rw [same]
      refine .of_progress ⟨(List.append_nil _).symm, rfl⟩ (h.wait consistent fun busy => ?_)
      rw [quiet] at busy
      cases busy
    · rw [suits_ends (suits w due)] at last
      cases last
    · by_cases own : (r.wait sight).2.concerns means w id
      · rw [turn_eq running due]
        exact h.turn_own consistent known plain small due (suits w due) own
      · exact h.turn_other consistent due moves own
  · rw [turn_ended (Bool.eq_false_iff.2 running)]
    exact .of_progress (fed_nothing id r) h

theorem Progress.idle (h : Progress id base items unread r) (idle : Idle r s) :
    Advances id base items unread r s :=
  .of_progress (idle.spares id).fed (h.spared (idle.spares id) idle.config)

/-- **A delivery goes on, whatever happens** that does not get into its way. -/
theorem Progress.react (h : Progress id base items unread r) (consistent : r.Consistent)
    (known : id < r.nextId) (plain : ∀ e ∈ items, e.isPlain = true)
    (small : ∀ e ∈ items, e.render.length + readChunk ≤ maxMessageSize) {stimulus : Stimulus}
    (suits : stimulus.Suits id unread ends r) :
    Advances id base items unread r (r.react stimulus) := by
  cases stimulus with
  | turn sight means => exact h.turn consistent known plain small suits
  | _ => exact h.idle (react_idle r fun _ _ impossible => by cases impossible)

/-- A course is a run. -/
theorem Course.run {sent : Bytes} (course : Course id ends r sent s unread) :
    ∃ stimuli, s = r.run stimuli := by
  induction course with
  | start => exact ⟨[], rfl⟩
  | next earlier stimulus suits ih =>
    obtain ⟨stimuli, rfl⟩ := ih
    exact ⟨stimuli ++ [stimulus], (r.run_append stimuli [stimulus]).symm⟩

/-- A delivery goes on throughout a course. -/
theorem Course.progress {sent : Bytes} (course : Course id ends r sent s unread)
    (consistent : r.Consistent) (there : r.table.get? id = some p)
    (plain : ∀ e ∈ items, e.isPlain = true)
    (small : ∀ e ∈ items, e.render.length + readChunk ≤ maxMessageSize)
    (h : Progress id base items sent r) : Progress id base items unread s := by
  induction course with
  | start => exact h
  | next earlier stimulus suits ih =>
    obtain ⟨stimuli, rfl⟩ := earlier.run
    have before := kept_consistent.run consistent stimuli
    -- The peer may have gone, but its number is never given away again.
    have known : id < (r.run stimuli).nextId := by
      obtain ⟨q, -, there | ⟨retired, rfl⟩, -⟩ :=
        (evolves_run consistent stimuli).onward id p (Or.inl there)
      · exact before.numbered there
      · exact before.accounted.joined_lt _ (before.accounted.gone q retired).1
    obtain ⟨n, read, further⟩ := ih.react before known plain small suits
    rwa [readSince, read, Nat.add_sub_cancel_left]

/-- What a delivery has come to: some of the envelopes have been acted upon, and all of them up to
the one that ends the conversation once no bytes are left to do anything about. -/
theorem Progress.dispatched (h : Progress id base items unread r) :
    ∃ acted, dispatchedTo id r.deeds = base ++ acted ∧ acted <+: through r.config.closes items ∧
      (Settled id unread r → acted = through r.config.closes items) := by
  cases h with
  | ended gone dispatched => exact ⟨_, dispatched, List.prefix_rfl, fun _ => rfl⟩
  | @underway p done rest there split calm dispatched stream due =>
    have all := through_append rest calm
    rw [← split] at all
    refine ⟨done, dispatched, all ▸ List.prefix_append _ _, fun settled => ?_⟩
    -- With nothing unread the buffer is all that is left, and no envelope is whole in it.
    rcases settled with gone | ⟨idle, rfl⟩
    · rw [there] at gone
      cases gone
    · rw [List.append_nil] at stream
      have few : Short p.session.inbound rest := due.resolve_right idle
      rw [stream] at few
      rw [all, few.eq_nil]
      exact (List.append_nil done).symm

/-- **Every envelope is acted upon once and in order, up to the one that ends the conversation.**

A peer of which no bytes are buffered is sent some envelopes, and perhaps the end.  In whatever
portions the bytes are read and whatever else happens, as long as the run does not end, the peer is
not dismissed and not late, and its socket does not fail, what is acted upon is at every time some
of these envelopes from the first one on.  Once no bytes are left to do anything about it is all of
them up to the first one that ends the conversation. -/
theorem delivered_in_order {config : ReactorConfig} {shared : Shared} {now : Nat}
    {stimuli : List Stimulus} (reached : (start config shared now).run stimuli = r)
    (there : r.table.get? id = some p) (nothing : p.session.inbound = [])
    (sendable : ∀ e ∈ items, e.IsItem)
    (small : ∀ e ∈ items, e.render.length ≤ maxMessageSize - readChunk)
    (course : Course id ends r (renderAll items) s unread) :
    ∃ acted, dispatchedTo id s.deeds = dispatchedTo id r.deeds ++ acted ∧
      acted <+: through config.closes items ∧
      (Settled id unread s → acted = through config.closes items) := by
  subst reached
  have consistent := kept_consistent.run (consistent_start config shared now) stimuli
  have begun : Progress id (dispatchedTo id ((start config shared now).run stimuli).deeds) items
      (renderAll items) ((start config shared now).run stimuli) :=
    .underway there (List.nil_append items).symm (fun _ h => absurd h List.not_mem_nil)
      (List.append_nil _).symm (by rw [nothing]; rfl) (Or.inl (nothing ▸ short_nil items))
  have bounded : ∀ e ∈ items, e.render.length + readChunk ≤ maxMessageSize := fun e he =>
    (Nat.le_sub_iff_add_le (by decide)).1 (small e he)
  have progress := course.progress consistent there (fun e he => (sendable e he).isPlain) bounded
    begun
  obtain ⟨more, rfl⟩ := course.run
  have same := config_run config shared now (stimuli ++ more)
  rw [run_append] at same
  have outcome := progress.dispatched
  rwa [same] at outcome

/-- Three envelopes arrive at once, the second one a farewell: it is acted upon in a turn of its
own, and the third one never. -/
theorem delivered_up_to_farewell :
    let odd : Envelope := ⟨9, .scalar .null⟩
    let items := [odd, (Message.disconnect .unknown "").envelope, odd]
    let idle : Means := ⟨0, .waiting [], [], []⟩
    let r := (start default .empty 0).run [.turn ⟨0, 0, .connection ⟨3⟩ .elsewhere, []⟩ idle]
    let s := r.run
      [.turn ⟨0, 0, .none, [(⟨1⟩, .ok .read)]⟩ { idle with incoming := .waiting (renderAll items) },
        .turn ⟨0, 0, .none, []⟩ idle]
    s.table.get? ⟨1⟩ = none ∧ dispatchedTo ⟨1⟩ s.deeds = items.take 2 := by
  intro odd items idle r s
  have calm : Willing idle.writes := fun _ h => absurd h List.not_mem_nil
  have came : (r.table.get? ⟨1⟩).map (·.session.inbound) = some [] := by decide +kernel
  obtain ⟨p, there, nothing⟩ := Option.map_eq_some_iff.1 came
  have sendable : ∀ e ∈ items, e.IsItem := by
    have strange : odd.IsItem := .unknown rfl rfl
    intro e he
    simp only [items, List.mem_cons, List.not_mem_nil, or_false] at he
    rcases he with rfl | rfl | rfl
    · exact strange
    · exact .message _
    · exact strange
  have small : ∀ e ∈ items, e.render.length ≤ maxMessageSize - readChunk := by decide +kernel
  have course : ∃ unread, Course ⟨1⟩ false r (renderAll items) s unread := by
    refine ⟨_, .next (.next .start (.turn ⟨0, 0, .none, [(⟨1⟩, .ok .read)]⟩
      { idle with incoming := .waiting (renderAll items) }) fun w hw => ?_)
      (.turn ⟨0, 0, .none, []⟩ idle) fun w hw => ?_⟩
    · have due : (r.wait ⟨0, 0, .none, [(⟨1⟩, .ok .read)]⟩).1 = some (.peer ⟨1⟩ .read) := by
        decide +kernel
      rw [due] at hw
      cases hw
      exact fun _ => ⟨List.prefix_rfl, calm⟩
    · have due : (Reactor.wait (r.react (.turn ⟨0, 0, .none, [(⟨1⟩, .ok .read)]⟩
          { idle with incoming := .waiting (renderAll items) })) ⟨0, 0, .none, []⟩).1 =
          some (.peer ⟨1⟩ .read) := by decide +kernel
      rw [due] at hw
      cases hw
      exact fun _ => ⟨List.nil_prefix, calm⟩
  obtain ⟨unread, course⟩ := course
  obtain ⟨acted, told, -, whole⟩ := delivered_in_order rfl there nothing sendable small course
  have gone : s.table.get? ⟨1⟩ = none := by decide +kernel
  refine ⟨gone, ?_⟩
  rw [told, whole (Or.inl gone)]
  rfl

end Reactor

end GossipNode
