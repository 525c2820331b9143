import GossipNode.Proofs.Reactor.Ending
import GossipNode.Proofs.Reactor.Flood

/-!
# What comes before the end of a run

A run ends when the command to end it is obeyed, and commands come before sockets, but behind the
peers that were put back.  Such a peer is served until nothing is left of what has been read from
it.  If that is whole envelopes the end comes when they have been acted upon.  If it ends in part of
an envelope the peer is served once more, and then its socket is read: from there on the peer
decides for how long it is put back again, and the end of the run waits for it.

## Main definitions

* `contained` — the envelopes that a buffer holds whole.
* `endsWhole` — whether a buffer is used up without more being read.
* `Reactor.Attended` — what a turn does that serves who was put back first.
* `Reactor.Winding` — a run that has been told to end.
* `Reactor.dues` — how many turns what has been read may take.
* `Reactor.LastServed` — what comes between the command to end the run and the end.
* `Reactor.Lingers` — somebody is put back again and again with part of an envelope.

## Main results

* `Reactor.attended_turn` — a turn that serves who was put back first.
* `Reactor.winding_run` — **what is acted upon and what is read before the end of a run.**
* `Reactor.dues_run` — how long the end takes if all buffers end whole.
* `Reactor.exists_reading` — a buffer that does not end whole lets its socket be read.
* `Reactor.end_after_buffered` — **nothing is read before the end just if all buffers of those who
  were put back end whole.**
* `Reactor.lingers_run` — **one peer may put off the end for as long as it likes.**
-/

namespace GossipNode

/-! ### What a buffer holds -/

/-- The envelopes that a buffer holds whole, from its front to the first that it does not. -/
def contained (buffer : Bytes) : List Envelope :=
  match _h : decodeOne buffer with
  | .ok (some (e, used)) => e :: contained (buffer.drop used)
  | _ => []
termination_by buffer.length
decreasing_by exact decodeOne_shorter _h

/-- Whether a buffer, decoded envelope by envelope, comes to its end or to that of the conversation,
or to what is no envelope, and not to part of one. -/
def endsWhole (closes : Envelope → Bool) (buffer : Bytes) : Bool :=
  match _h : decodeOne buffer with
  | .ok (some (e, used)) =>
    closes e || (buffer.drop used).isEmpty || endsWhole closes (buffer.drop used)
  | .ok none => false
  | .error _ => true
termination_by buffer.length
decreasing_by exact decodeOne_shorter _h

section Buffer

variable {closes : Envelope → Bool} {buffer : Bytes} {e : Envelope} {used : Nat}

theorem contained_found (found : decodeOne buffer = .ok (some (e, used))) :
    contained buffer = e :: contained (buffer.drop used) := by
  rw [contained]
  split
  · next e' used' found' =>
    rw [found] at found'
    cases found'
    rfl
  · next other => exact absurd found (other e used)

theorem contained_nothing (nothing : ∀ e used, decodeOne buffer ≠ .ok (some (e, used))) :
    contained buffer = [] := by
  rw [contained]
  split
  · next found => exact absurd found (nothing _ _)
  · rfl

theorem endsWhole_found (found : decodeOne buffer = .ok (some (e, used))) :
    endsWhole closes buffer =
      (closes e || (buffer.drop used).isEmpty || endsWhole closes (buffer.drop used)) := by
  rw [endsWhole]
  split
  · next e' used' found' =>
    rw [found] at found'
    cases found'
    rfl
  · next short => rw [found] at short; cases short
  · next failed => rw [found] at failed; cases failed

theorem endsWhole_short (short : decodeOne buffer = .ok none) :
    endsWhole closes buffer = false := by
  rw [endsWhole]
  split
  · next found => rw [short] at found; cases found
  · rfl
  · next failed => rw [short] at failed; cases failed

theorem endsWhole_refused {error : DecodeError} (refused : decodeOne buffer = .error error) :
    endsWhole closes buffer = true := by
  rw [endsWhole]
  split
  · next found => rw [refused] at found; cases found
  · next short => rw [refused] at short; cases short
  · rfl

/-- Whether more is read is a matter of the first envelope. -/
theorem Session.isShort_iff {s : Session} : s.isShort = true ↔ decodeOne s.inbound = .ok none := by
  unfold isShort nextEnvelope takeEnvelope
  cases decodeOne s.inbound with
  | error error => simp
  | ok found =>
    cases found with
    | none => simp
    | some pair => simp

end Buffer

/-- Whether a reactor takes a turn. -/
def Stimulus.isTurn : Stimulus → Bool
  | turn .. => true
  | _ => false

namespace Reactor

variable {r s t : Reactor} {p : Peer} {id k : PeerId} {sight : Sight} {means : Means}

/-- What has been read from a peer and not decoded. -/
def buffer (r : Reactor) (id : PeerId) : Bytes :=
  ((r.table.get? id).map (·.session.inbound)).getD []

theorem buffer_eq (there : r.table.get? id = some p) : r.buffer id = p.session.inbound := by
  rw [buffer, there]
  rfl

/-! ### Acting upon an envelope -/

/-- An envelope that ends the conversation ends it, whatever the socket does. -/
theorem dispatch_gone {e : Envelope} (closes : r.config.closes e = true)
    (writes : List WriteOutcome) : (r.dispatch p e writes).table.get? p.id = none := by
  have nobody := nobody_closePeer (r.note (.dispatched p.id e)) p.id
  unfold ReactorConfig.closes at closes
  unfold dispatch
  rcases said : e.message with error | (info | addresses | ⟨reason, text⟩)
  · rw [said] at closes
    simp only
    rw [if_pos closes]
    exact nobody
  · rw [said] at closes
    simp only [Bool.not_eq_true'] at closes
    have strange : ¬ (r.note (.dispatched p.id e)).config.admits info := of_decide_eq_false closes
    simp only
    rcases onPeerInfo_strange strange p writes with ⟨m, refused⟩ | refused
    · rw [refused]
      exact nobody_closePeer _ p.id
    · rw [refused]
      exact nobody
  · rw [said] at closes
    cases closes
  · exact nobody

/-- Sending, telling and letting go put nobody back. -/
theorem civil_pending : Civil fun r s => s.mux.pending ⊆ r.mux.pending where
  refl _ := List.Subset.refl _
  trans first second := List.Subset.trans second first
  send _ _ _ := List.Subset.refl _
  notify _ _ := List.Subset.refl _
  close r id := by
    intro k waiting
    rw [mux_closePeer] at waiting
    exact (Multiplexer.mem_deregister.mp waiting).1

/-- Acting upon an envelope puts nobody back. -/
theorem dispatch_pending (held : r.Holds p) (e : Envelope) (writes : List WriteOutcome) :
    (r.dispatch p e writes).mux.pending ⊆ r.mux.pending := by
  rcases dispatch_cases r p e writes with
    ⟨-, idle⟩ | same | ⟨-, why, text, same⟩ | ⟨info, -, -, new, same⟩
  · rw [idle.pending]
    exact List.Subset.refl _
  · rw [same]
    exact civil_pending.close (r.note _) p.id
  · rw [same]
    exact civil_pending.trans
      (civil_pending.send (r := r.note (.dispatched p.id e)) held _ writes)
      (civil_pending.close _ p.id)
  · rw [same]
    exact civil_pending.welcome (r := (r.note (.dispatched p.id e)).put _) (holds_put _ _) writes

/-- Who is put back has bytes left to decode. -/
theorem pending_requeueBuffered (waiting : k ∈ (r.requeueBuffered id).mux.pending) :
    k ∈ r.mux.pending ∨ ∃ q, r.table.get? id = some q ∧ q.session.inbound ≠ [] := by
  unfold requeueBuffered at waiting
  split at waiting
  · next q there =>
    split at waiting
    · next both =>
      refine Or.inr ⟨q, there, fun nothing => ?_⟩
      have some_left := both.2
      rw [Session.hasBufferedInput, nothing] at some_left
      cases some_left
    · exact Or.inl waiting
  · exact Or.inl waiting

/-- Whatever is done, what is on record stays on record. -/
theorem Moves.deeds_grow {who : PeerId → Prop} (moves : Moves who r s) :
    ∃ new, s.deeds = new ++ r.deeds := by
  induction moves with
  | refl => exact ⟨[], rfl⟩
  | @step _ _ id? _ last _ ih =>
    obtain ⟨new, before⟩ := ih
    obtain ⟨more, after⟩ : ∃ more, _ = more ++ _ := by
      cases id? with
      | none => exact last.idle.deeds.imp fun _ h => h.1
      | some id => exact last.about.imp fun _ h => h.1
    exact ⟨more ++ new, by rw [after, before, List.append_assoc]⟩

/-! ### A turn that serves who was put back first -/

/-- What became of the first of those who were put back. -/
inductive Outcome (r s : Reactor) (p : Peer) : Prop
  /-- An envelope was acted upon.  If the peer is put back again it is still there, with the bytes
  behind that envelope. -/
  | acted {e : Envelope} {used : Nat} (found : decodeOne p.session.inbound = .ok (some (e, used)))
    (heard : dispatchedTo p.id s.deeds = dispatchedTo p.id r.deeds ++ [e])
    (again : p.id ∈ s.mux.pending → r.config.closes e = false ∧
      p.session.inbound.drop used ≠ [] ∧
      ∃ q, s.table.get? p.id = some q ∧ q.session.inbound = p.session.inbound.drop used)
  /-- What had been read was no envelope. -/
  | refused {error : DecodeError} (found : decodeOne p.session.inbound = .error error)
    (heard : dispatchedTo p.id s.deeds = dispatchedTo p.id r.deeds)
    (gone : p.id ∉ s.mux.pending)
  /-- What had been read was part of an envelope, and the socket was read. -/
  | read (short : decodeOne p.session.inbound = .ok none)
    (heard : ∃ es, dispatchedTo p.id s.deeds = dispatchedTo p.id r.deeds ++ es)

/-- What a turn does that serves who was put back first. -/
structure Attended (r s : Reactor) (p : Peer) (incoming : Incoming) : Prop where
  others : ∀ k ≠ p.id, Spares k r s
  outcome : Outcome r s p
  reads : readings s.deeds = readings r.deeds ++ (p.session.draws incoming).map (p.id, ·)
  running : s.running = r.running
  config : s.config = r.config
  commands : ∃ more, s.queue.commands = r.queue.commands ++ more

/-- An envelope that has been read is acted upon. -/
theorem takeInput_found {e : Envelope} {used : Nat}
    (found : decodeOne p.session.inbound = .ok (some (e, used))) (incoming : Incoming)
    (writes : List WriteOutcome) : r.takeInput p incoming writes =
      ((r.perform p .nextEnvelope).dispatch (p.perform .nextEnvelope) e writes).requeueBuffered
        p.id := by
  rw [takeInput_eq, Session.nextEnvelope_found found]
  rfl

/-- What taking input comes to for a peer that has not been put back. -/
theorem outcome_takeInput (held : r.Holds p) (first : p.id ∉ r.mux.pending) (incoming : Incoming)
    (writes : List WriteOutcome) : Outcome r (r.takeInput p incoming writes) p := by
  have asked := takeInput_asked r p incoming writes
  cases found : decodeOne p.session.inbound with
  | error error =>
    have taken : p.session.nextEnvelope.1 = .error error := by
      unfold Session.nextEnvelope takeEnvelope
      rw [found]
    have closed : r.takeInput p incoming writes = (r.perform p .nextEnvelope).closePeer p.id := by
      rw [takeInput_eq, taken]
      rfl
    refine .refused found ?_ ?_
    · rw [closed]
      exact (fed_close (p := p.perform .nextEnvelope) p.id
        (holds_perform r p .nextEnvelope)).dispatched.trans (List.append_nil _)
    · rw [closed, mux_closePeer, Multiplexer.mem_deregister]
      exact fun both => both.2 rfl
  | ok front =>
    cases front with
    | none =>
      refine .read found ?_
      obtain ⟨new, deeds⟩ := (takeInput_moves held incoming writes).deeds_grow
      refine ⟨dispatchedTo p.id new, ?_⟩
      rw [deeds]
      simp [dispatchedTo]
    | some pair =>
      obtain ⟨e, used⟩ := pair
      have taken := takeInput_found (r := r) found incoming writes
      have decoded := holds_perform r p .nextEnvelope
      refine .acted found ?_ fun again => ?_
      · have acted := (dispatch_gathers (r.perform p .nextEnvelope) (p.perform .nextEnvelope) e
          writes).acts
        rw [taken, deeds_requeueBuffered]
        exact dispatchedTo_of_acts acted
      · rw [taken] at again
        rcases pending_requeueBuffered again with before | ⟨q, there, some_left⟩
        · exact absurd (dispatch_pending decoded e writes before) first
        · have entry : (r.takeInput p incoming writes).table.get? p.id = some q := by
            rw [taken, table_requeueBuffered]
            exact there
          have bytes : q.session.inbound = p.session.inbound.drop used := by
            rw [(asked.own entry).2,
              (Session.intake_found (Session.nextEnvelope_found found) incoming).1]
          refine ⟨?_, bytes ▸ some_left, q, entry, bytes⟩
          refine Bool.eq_false_iff.mpr fun closes => ?_
          have gone := dispatch_gone (r := r.perform p .nextEnvelope)
            (p := p.perform .nextEnvelope) closes writes
          rw [show (p.perform .nextEnvelope).id = p.id from rfl, there] at gone
          cases gone

/-- If somebody was put back the first of them is due, whatever commands wait. -/
theorem wait_head (h : r.Consistent) {rest : List PeerId} (pending : r.mux.pending = id :: rest)
    (sight : Sight) : r.wait sight =
      (some (.peer id .read), { r with mux := { r.mux with pending := rest } }) := by
  have watched : r.mux.sockets.contains id = true :=
    h.pending_watched id (pending ▸ List.mem_cons_self)
  unfold wait Multiplexer.wait
  rw [pending, Multiplexer.nextPending, if_pos watched]

/-- The turn takes its input from who was put back first, which it has forgotten. -/
theorem turn_head (h : r.Consistent) (running : r.running = true) {rest : List PeerId}
    (pending : r.mux.pending = id :: rest) (sight : Sight) (means : Means) :
    ∃ p, r.table.get? id = some p ∧ p.id = id ∧ r.turn sight means =
      { r with mux := { r.mux with pending := rest } }.takeInput p means.incoming means.writes := by
  have waited := wait_head h pending sight
  obtain ⟨p, there⟩ := (h.isRegistered_iff id).mp
    (h.pending_watched id (pending ▸ List.mem_cons_self))
  have same := h.keyed id p there
  subst same
  refine ⟨p, there, rfl, ?_⟩
  have due : (r.wait sight).1 = some (.peer p.id .read) := by rw [waited]
  rw [turn_eq running due, waited, handle]
  have held : ({ r with mux := { r.mux with pending := rest } } : Reactor).table.get? p.id =
    some p := there
  generalize ({ r with mux := { r.mux with pending := rest } } : Reactor) = t at held ⊢
  unfold serve
  rw [held]
  rfl

/-- **A turn serves who was put back first**, whatever commands wait, and nobody else. -/
theorem attended_turn (h : r.Consistent) (running : r.running = true) {rest : List PeerId}
    (pending : r.mux.pending = id :: rest) (sight : Sight) (means : Means) :
    ∃ p, r.table.get? id = some p ∧ p.id = id ∧
      Attended r (r.turn sight means) p means.incoming := by
  obtain ⟨p, there, same, turned⟩ := turn_head h running pending sight means
  subst same
  refine ⟨p, there, rfl, ?_⟩
  have nodup := h.pending_nodup
  rw [pending, List.nodup_cons] at nodup
  have held : ({ r with mux := { r.mux with pending := rest } } : Reactor).Holds p := there
  rw [turned]
  have moves := takeInput_moves held means.incoming means.writes
  have outcome := outcome_takeInput held nodup.1 means.incoming means.writes
  have asked := takeInput_asked { r with mux := { r.mux with pending := rest } } p means.incoming
    means.writes
  constructor
  case others =>
    intro k other
    have forgotten : Spares k r { r with mux := { r.mux with pending := rest } } := by
      refine ⟨rfl, ?_, [], rfl, fun _ member => by cases member⟩
      rw [pending, List.mem_cons]
      exact (or_iff_right other).symm
    exact forgotten.trans (moves.spares other)
  case outcome =>
    cases outcome with
    | acted found heard again => exact .acted found heard again
    | refused found heard gone => exact .refused found heard gone
    | read short heard => exact .read short heard
  case reads => exact asked.read
  case running => exact moves.keeps.1
  case config => exact moves.keeps.2
  case commands =>
    obtain ⟨-, more, commands, -⟩ := moves.extends
    exact ⟨more, commands⟩

/-! ### A run that has been told to end -/

/-- What was acted upon and read of one peer since a moment of a run. -/
inductive Standing (r s : Reactor) (reads : List (PeerId × Except PeerError ReadOutcome))
    (id : PeerId) (es : List Envelope) : Prop
  /-- It had not been put back, and nothing has happened to it. -/
  | spared (before : id ∉ r.mux.pending) (now : id ∉ s.mux.pending) (nothing : es = [])
    (unread : ∀ outcome, (id, outcome) ∉ reads)
  /-- It is put back with some of what it had then. -/
  | waiting {p : Peer} (before : id ∈ r.mux.pending) (now : id ∈ s.mux.pending)
    (there : s.table.get? id = some p)
    (ahead : contained (r.buffer id) = es ++ contained p.session.inbound)
    (same : endsWhole r.config.closes (r.buffer id) =
      endsWhole r.config.closes p.session.inbound)
    (unread : ∀ outcome, (id, outcome) ∉ reads)
  /-- It is not put back any more. -/
  | served (before : id ∈ r.mux.pending) (now : id ∉ s.mux.pending)
    (ahead : es <+: contained (r.buffer id)) (unread : ∀ outcome, (id, outcome) ∉ reads)
  /-- It had part of an envelope behind the whole ones, and its socket was read. -/
  | overrun (before : id ∈ r.mux.pending)
    (part : endsWhole r.config.closes (r.buffer id) = false)
    (ahead : contained (r.buffer id) <+: es)

/-- A run that has been told to end, since then. -/
structure Winding (r s : Reactor) : Prop where
  consistent : s.Consistent
  config : s.config = r.config
  /-- The next command ends the run. -/
  due : s.running = true → ∃ behind, s.queue.commands = .shutdown :: behind
  since : ∃ reads, readings s.deeds = readings r.deeds ++ reads ∧ ∀ id, ∃ es,
    dispatchedTo id s.deeds = dispatchedTo id r.deeds ++ es ∧ Standing r s reads id es

variable {reads : List (PeerId × Except PeerError ReadOutcome)} {es : List Envelope}

/-- Nothing happens to a peer that is left as it is. -/
theorem Standing.spares (h : Standing r s reads id es)
    (entry : t.table.get? id = s.table.get? id) (pending : id ∈ t.mux.pending ↔ id ∈ s.mux.pending)
    {more : List (PeerId × Except PeerError ReadOutcome)}
    (others : ∀ outcome, (id, outcome) ∉ more) : Standing r t (reads ++ more) id es := by
  have still (unread : ∀ outcome, (id, outcome) ∉ reads) (outcome : Except PeerError ReadOutcome) :
      (id, outcome) ∉ reads ++ more := fun made =>
    (List.mem_append.mp made).elim (unread outcome) (others outcome)
  cases h with
  | spared before now nothing unread =>
    exact .spared before (mt pending.mp now) nothing (still unread)
  | waiting before now there ahead same unread =>
    exact .waiting before (pending.mpr now) (entry.trans there) ahead same (still unread)
  | served before now ahead unread =>
    exact .served before (mt pending.mp now) ahead (still unread)
  | overrun before part ahead => exact .overrun before part ahead

/-- Nobody is put back any more when the run has ended. -/
theorem Standing.ended (h : Standing r s reads id es) (nobody : id ∉ t.mux.pending) :
    Standing r t reads id es := by
  cases h with
  | spared before now nothing unread => exact .spared before nobody nothing unread
  | waiting before now there ahead same unread =>
    exact .served before nobody (ahead ▸ List.prefix_append _ _) unread
  | served before now ahead unread => exact .served before nobody ahead unread
  | overrun before part ahead => exact .overrun before part ahead

/-- What becomes of who was put back first. -/
theorem Standing.attended (h : Standing r s reads p.id es) (there : s.table.get? p.id = some p)
    (waits : p.id ∈ s.mux.pending) (config : s.config = r.config) {incoming : Incoming}
    (attended : Attended s t p incoming) :
    ∃ more, dispatchedTo p.id t.deeds = dispatchedTo p.id s.deeds ++ more ∧
      Standing r t (reads ++ (p.session.draws incoming).map (p.id, ·)) p.id (es ++ more) := by
  have unread_still (unread : ∀ outcome, (p.id, outcome) ∉ reads)
      (long : decodeOne p.session.inbound ≠ .ok none) (outcome : Except PeerError ReadOutcome) :
      (p.id, outcome) ∉ reads ++ (p.session.draws incoming).map (p.id, ·) := by
    have nothing : p.session.draws incoming = [] :=
      if_neg fun short => long (Session.isShort_iff.mp short)
    rw [nothing, List.map_nil, List.append_nil]
    exact unread outcome
  cases h with
  | spared before now nothing unread => exact absurd waits now
  | served before now ahead unread => exact absurd waits now
  | overrun before part ahead =>
    -- The peer has had its way already.
    have on {more : List Envelope} : Standing r t
        (reads ++ (p.session.draws incoming).map (p.id, ·)) p.id (es ++ more) :=
      .overrun before part (ahead.trans (List.prefix_append _ _))
    cases attended.outcome with
    | acted found heard again => exact ⟨_, heard, on⟩
    | refused found heard gone => exact ⟨[], by rw [heard, List.append_nil], on⟩
    | read short heard =>
      obtain ⟨more, heard⟩ := heard
      exact ⟨more, heard, on⟩
  | @waiting q before now there' ahead same unread =>
    rw [there] at there'
    cases there'
    cases attended.outcome with
    | @acted e used found heard again =>
      refine ⟨[e], heard, ?_⟩
      have unread' := unread_still unread (by rw [found]; exact nofun)
      have behind : contained (r.buffer p.id) =
          (es ++ [e]) ++ contained (p.session.inbound.drop used) := by
        rw [ahead, contained_found found, List.append_assoc]
        rfl
      by_cases back : p.id ∈ t.mux.pending
      · obtain ⟨goes_on, some_left, q, there', bytes⟩ := again back
        refine .waiting before back there' (bytes ▸ behind) ?_ unread'
        rw [same, endsWhole_found found, bytes, ← config, goes_on,
          List.isEmpty_eq_false_iff.mpr some_left]
        rfl
      · exact .served before back (behind ▸ List.prefix_append _ _) unread'
    | refused found heard gone =>
      refine ⟨[], by rw [heard, List.append_nil], ?_⟩
      refine .served before gone ?_ (unread_still unread (by rw [found]; exact nofun))
      rw [ahead, List.append_nil]
      exact List.prefix_append _ _
    | read short heard =>
      obtain ⟨more, heard⟩ := heard
      refine ⟨more, heard, .overrun before (same.trans (endsWhole_short short)) ?_⟩
      have nothing : contained p.session.inbound = [] :=
        contained_nothing fun e used found => by rw [short] at found; cases found
      rw [ahead, nothing, List.append_nil]
      exact List.prefix_append _ _

/-- Where nothing happens to connections, nothing happens to the run. -/
theorem Winding.idle (h : Winding r s) (idle : Idle s t) : Winding r t := by
  obtain ⟨reads, read, standing⟩ := h.since
  refine ⟨h.consistent.idle idle, idle.config.trans h.config, fun running => ?_, reads, ?_, ?_⟩
  · obtain ⟨behind, due⟩ := h.due (idle.running.symm.trans running)
    obtain ⟨more, commands, -⟩ := idle.commands
    exact ⟨behind ++ more, by rw [commands, due, List.cons_append]⟩
  · exact idle.unfed.read.trans read
  · intro id
    obtain ⟨es, heard, stands⟩ := standing id
    have spared := idle.spares id
    refine ⟨es, spared.fed.dispatched.trans ((List.append_nil _).trans heard), ?_⟩
    have same : Standing r t (reads ++ []) id es :=
      stands.spares spared.entry spared.pending fun _ => List.not_mem_nil
    rwa [List.append_nil] at same

/-- When nobody is put back any more the run ends. -/
theorem turn_last (running : s.running = true) (nobody : s.mux.pending = [])
    {behind : List Command} (due : s.queue.commands = .shutdown :: behind) (sight : Sight)
    (means : Means) : s.turn sight means = (s.wait sight).2.teardown := by
  rw [turn_eq running (wait_first nobody due)]
  rfl

/-- Letting go of everybody is nothing that is done for a peer. -/
theorem Winding.teardown (h : Winding r s) (sight : Sight) :
    Winding r (s.wait sight).2.teardown := by
  obtain ⟨reads, read, standing⟩ := h.since
  have consistent := h.consistent.wait sight
  refine ⟨consistent.teardown, h.config, fun impossible => (by cases impossible), reads, ?_, ?_⟩
  · exact (unfed_teardown (s.wait sight).2).read.trans read
  · intro id
    obtain ⟨es, heard, stands⟩ := standing id
    refine ⟨es, ?_, stands.ended List.not_mem_nil⟩
    obtain ⟨new, deeds, kinds, -⟩ := deeds_teardown (s.wait sight).2
    have quiet : ∀ d ∈ new, d.dispatched? id = none ∧ d.amount? id = none := by
      intro d member
      rcases kinds d member with ⟨audience, rfl⟩ | ⟨socket, rfl⟩ | ⟨k, p, -, rfl⟩ <;>
        exact ⟨rfl, rfl⟩
    exact (fed_quiet deeds quiet).dispatched.trans ((List.append_nil _).trans heard)

theorem Winding.turn (h : Winding r s) (running : s.running = true) (sight : Sight)
    (means : Means) : Winding r (s.turn sight means) := by
  obtain ⟨behind, due⟩ := h.due running
  cases pending : s.mux.pending with
  | nil =>
    rw [turn_last running pending due]
    exact h.teardown sight
  | cons id rest =>
    obtain ⟨p, there, same, attended⟩ := attended_turn h.consistent running pending sight means
    subst same
    obtain ⟨reads, read, standing⟩ := h.since
    refine ⟨kept_consistent.react h.consistent (.turn sight means),
      attended.config.trans h.config, fun _ => ?_,
      reads ++ (p.session.draws means.incoming).map (p.id, ·), ?_, fun k => ?_⟩
    · obtain ⟨more, commands⟩ := attended.commands
      exact ⟨behind ++ more, by rw [commands, due, List.cons_append]⟩
    · rw [attended.reads, read, List.append_assoc]
    · obtain ⟨es, heard, stands⟩ := standing k
      by_cases own : k = p.id
      · subst own
        obtain ⟨more, after, stands'⟩ := stands.attended there
          (pending ▸ List.mem_cons_self) h.config attended
        exact ⟨es ++ more, by rw [after, heard, List.append_assoc], stands'⟩
      · have spared := attended.others k own
        refine ⟨es, spared.fed.dispatched.trans ((List.append_nil _).trans heard), ?_⟩
        refine stands.spares spared.entry spared.pending fun outcome made => ?_
        obtain ⟨_, _, made⟩ := List.mem_map.mp made
        exact own (congrArg Prod.fst made).symm

theorem Winding.react (h : Winding r s) (stimulus : Stimulus) : Winding r (s.react stimulus) := by
  cases stimulus with
  | turn sight means =>
    cases running : s.running with
    | true => exact h.turn running sight means
    | false =>
      rw [Reactor.react, turn_ended running]
      exact h
  | _ => exact h.idle (react_idle s fun _ _ impossible => by cases impossible)

/-- **What is acted upon and what is read before the end of a run.** -/
theorem winding_run (stimuli : List Stimulus) : ∀ {s : Reactor}, Winding r s →
    Winding r (s.run stimuli) := by
  induction stimuli with
  | nil => exact fun h => h
  | cons stimulus stimuli ih => exact fun h => ih (h.react stimulus)

/-- A run is told to end while no command waits. -/
theorem winding_told (h : r.Consistent) (running : r.running = true)
    (none_due : r.queue.commands = []) : Winding r (r.react (.request .shutdown)) := by
  have idle := react_idle r (s := .request .shutdown) nofun
  refine ⟨h.idle idle, idle.config, fun _ => ⟨[], ?_⟩, [], ?_, fun id => ⟨[], ?_, ?_⟩⟩
  · rw [Reactor.react, if_pos running]
    show r.queue.commands ++ [.shutdown] = _
    rw [none_due]
    rfl
  · rw [List.append_nil, idle.unfed.read]
  · exact (idle.spares id).fed.dispatched
  · have pending := (idle.spares id).pending
    by_cases before : id ∈ r.mux.pending
    · obtain ⟨p, there⟩ := (h.isRegistered_iff id).mp (h.pending_watched id before)
      refine .waiting before (pending.mpr before) ((idle.spares id).entry.trans there) ?_ ?_
        fun _ => List.not_mem_nil
      · rw [buffer_eq there]
        rfl
      · rw [buffer_eq there]
    · exact .spared before (mt pending.mp before) rfl fun _ => List.not_mem_nil

/-! ### How long the end takes -/

/-- How many turns may serve those who were put back, if nothing more is read: one for each of
them, and one for each envelope that a buffer of theirs holds. -/
def dues (r : Reactor) : Nat :=
  r.mux.pending.length + (r.mux.pending.flatMap fun id => contained (r.buffer id)).length

theorem Idle.dues (idle : Idle r s) : s.dues = r.dues := by
  unfold Reactor.dues buffer
  rw [idle.pending, idle.table]

/-- A turn brings the end nearer, unless what is read puts the peer back. -/
theorem Attended.dues {incoming : Incoming} {rest : List PeerId} (h : r.Consistent)
    (consistent : s.Consistent) (pending : r.mux.pending = p.id :: rest)
    (there : r.table.get? p.id = some p) (attended : Attended r s p incoming)
    (long : p.id ∈ s.mux.pending → decodeOne p.session.inbound ≠ .ok none) : s.dues < r.dues := by
  have nodup := h.pending_nodup
  rw [pending] at nodup
  have behind : p.id ∉ rest := (List.nodup_cons.mp nodup).1
  have other {k : PeerId} (member : k ∈ rest) : k ≠ p.id := fun same => behind (same ▸ member)
  have still : rest.flatMap (fun id => contained (s.buffer id)) =
      rest.flatMap fun id => contained (r.buffer id) := by
    rw [List.flatMap_def, List.flatMap_def]
    congr 1
    refine List.map_congr_left fun k member => ?_
    rw [buffer, (attended.others k (other member)).entry, buffer]
  have waits (k : PeerId) (own : k ≠ p.id) : k ∈ s.mux.pending ↔ k ∈ rest := by
    rw [(attended.others k own).pending, pending, List.mem_cons, or_iff_right own]
  have due : r.dues = rest.length + 1 + ((contained p.session.inbound).length +
      (rest.flatMap fun id => contained (r.buffer id)).length) := by
    rw [Reactor.dues, pending, List.length_cons, List.flatMap_cons, List.length_append,
      buffer_eq there]
  rw [due, ← still]
  by_cases back : p.id ∈ s.mux.pending
  · have same : s.mux.pending.Perm (p.id :: rest) := by
      refine (List.perm_ext_iff_of_nodup consistent.pending_nodup nodup).mpr fun k => ?_
      by_cases own : k = p.id
      · exact iff_of_true (own ▸ back) (own ▸ List.mem_cons_self)
      · rw [waits k own, List.mem_cons, or_iff_right own]
    rw [Reactor.dues, same.length_eq, (same.flatMap_right _).length_eq, List.length_cons,
      List.flatMap_cons, List.length_append]
    cases attended.outcome with
    | acted found heard again =>
      obtain ⟨-, -, q, there', bytes⟩ := again back
      rw [buffer_eq there', bytes, contained_found found, List.length_cons]
      omega
    | refused found heard gone => exact absurd back gone
    | read short heard => exact absurd short (long back)
  · have same : s.mux.pending.Perm rest := by
      refine (List.perm_ext_iff_of_nodup consistent.pending_nodup
        (List.nodup_cons.mp nodup).2).mpr fun k => ?_
      by_cases own : k = p.id
      · exact iff_of_false (own ▸ back) (own ▸ behind)
      · exact waits k own
    rw [Reactor.dues, same.length_eq, (same.flatMap_right _).length_eq]
    omega

/-- If all buffers of those who were put back ended whole, none of them ever holds part of an
envelope only. -/
theorem Winding.long (h : Winding r s)
    (whole : ∀ id ∈ r.mux.pending, endsWhole r.config.closes (r.buffer id) = true)
    (there : s.table.get? id = some p) (waits : id ∈ s.mux.pending) :
    decodeOne p.session.inbound ≠ .ok none := by
  intro short
  obtain ⟨reads, -, standing⟩ := h.since
  obtain ⟨es, -, stands⟩ := standing id
  cases stands with
  | spared before now nothing unread => exact now waits
  | served before now ahead unread => exact now waits
  | overrun before part ahead =>
    rw [whole id before] at part
    cases part
  | waiting before now there' ahead same unread =>
    rw [there] at there'
    cases there'
    rw [whole id before, endsWhole_short short] at same
    cases same

/-- **If all buffers of those who were put back end whole, the run ends in time**, whatever the
other sides send. -/
theorem dues_run (whole : ∀ id ∈ r.mux.pending, endsWhole r.config.closes (r.buffer id) = true)
    (stimuli : List Stimulus) : ∀ {s : Reactor}, Winding r s →
      s.dues < stimuli.countP Stimulus.isTurn → (s.run stimuli).running = false := by
  induction stimuli with
  | nil => exact fun _ enough => absurd enough (Nat.not_lt_zero _)
  | cons stimulus stimuli ih =>
    intro s h enough
    have next := h.react stimulus
    rw [List.countP_cons] at enough
    rw [run_cons]
    cases running : s.running with
    | false => exact run_ended _ (react_ended running stimulus)
    | true =>
      cases stimulus with
      | turn sight means =>
        cases pending : s.mux.pending with
        | nil =>
          obtain ⟨behind, due⟩ := h.due running
          refine run_ended _ ?_
          rw [show s.react (.turn sight means) = _ from turn_last running pending due sight means]
          rfl
        | cons id rest =>
          obtain ⟨p, there, rfl, attended⟩ :=
            attended_turn h.consistent running pending sight means
          have nearer := attended.dues h.consistent next.consistent pending there fun _ =>
            h.long whole there (pending ▸ List.mem_cons_self)
          refine ih next (Nat.lt_of_lt_of_le nearer ?_)
          exact Nat.le_of_lt_succ enough
      | _ =>
        refine ih next (Nat.lt_of_le_of_lt (Nat.le_of_eq (Idle.dues ?_)) enough)
        exact react_idle s fun _ _ impossible => by cases impossible

/-! ### What lets a socket be read -/

/-- As long as no socket is read a buffer that does not end whole goes on being decoded. -/
theorem part_turn (h : r.Consistent) (running : r.running = true) {rest : List PeerId}
    (pending : r.mux.pending = p.id :: rest) (there : r.table.get? p.id = some p)
    (long : decodeOne p.session.inbound ≠ .ok none) (waits : id ∈ r.mux.pending)
    (part : endsWhole r.config.closes (r.buffer id) = false) (sight : Sight) {means : Means}
    (willing : Willing means.writes) :
    id ∈ (r.turn sight means).mux.pending ∧ endsWhole (r.turn sight means).config.closes
      ((r.turn sight means).buffer id) = false := by
  obtain ⟨q, there', -, attended⟩ := attended_turn h running pending sight means
  rw [there] at there'
  cases there'
  by_cases own : id = p.id
  · subst own
    rw [buffer_eq there] at part
    cases found : decodeOne p.session.inbound with
    | error error => rw [endsWhole_refused found] at part; cases part
    | ok decoded =>
      obtain - | ⟨e, used⟩ := decoded
      · exact absurd found long
      · rw [endsWhole_found found, Bool.or_eq_false_iff, Bool.or_eq_false_iff,
          List.isEmpty_eq_false_iff] at part
        obtain ⟨⟨goes_on, some_left⟩, part⟩ := part
        obtain ⟨q, there', -, turned⟩ := turn_head h running pending sight means
        rw [there] at there'
        cases there'
        have watched : r.mux.isRegistered p.id = true := h.pending_watched p.id waits
        have served := takeInput_decoded (r := { r with mux := { r.mux with pending := rest } })
          watched found means.incoming willing
        rw [← turned] at served
        obtain ⟨q, stays, left, again⟩ := served.stays goes_on
        exact ⟨again some_left, by rwa [attended.config, buffer_eq stays, left]⟩
  · have spared := attended.others id own
    refine ⟨spared.pending.mpr waits, ?_⟩
    rwa [attended.config, buffer, spared.entry]

/-- **A buffer that does not end whole lets its socket be read** before the end of the run. -/
theorem exists_reading (h : r.Consistent) (running : r.running = true) (waits : id ∈ r.mux.pending)
    (part : endsWhole r.config.closes (r.buffer id) = false) :
    ∃ more, readings (r.run more).deeds ≠ readings r.deeds := by
  -- Turn by turn the first is served, until one of those who were put back lets its socket be read.
  induction due : r.dues using Nat.strong_induction_on generalizing r with
  | _ n ih =>
    obtain ⟨first, rest, pending⟩ := List.exists_cons_of_ne_nil (List.ne_nil_of_mem waits)
    let sight : Sight := ⟨0, 0, .none, []⟩
    let means : Means := ⟨0, .ended, [], []⟩
    obtain ⟨p, there, same, attended⟩ := attended_turn h running pending sight means
    subst same
    have read := attended.reads
    by_cases short : decodeOne p.session.inbound = .ok none
    · refine ⟨[.turn sight means], fun unread => ?_⟩
      rw [Session.draws, if_pos (Session.isShort_iff.mpr short)] at read
      have same : readings (r.turn sight means).deeds = readings r.deeds := unread
      rw [read] at same
      exact List.cons_ne_nil _ _ (List.append_right_eq_self.mp same)
    · rw [Session.draws, if_neg (mt Session.isShort_iff.mp short), List.map_nil,
        List.append_nil] at read
      have consistent := kept_consistent.react h (.turn sight means)
      have nearer := attended.dues h consistent pending there fun _ => short
      have willing : Willing means.writes := fun _ nothing => absurd nothing List.not_mem_nil
      obtain ⟨waits', part'⟩ := part_turn h running pending there short waits part sight willing
      obtain ⟨more, reads⟩ := ih _ (due ▸ nearer) consistent (attended.running.trans running)
        waits' part' rfl
      exact ⟨.turn sight means :: more, fun unread => reads (unread.trans read.symm)⟩

/-! ### The end of a run -/

/-- What comes between the command to end a run and its end. -/
structure LastServed (r s : Reactor) : Prop where
  /-- Nothing is due before the end but those who were put back. -/
  due : s.running = true → ∃ behind, s.queue.commands = .shutdown :: behind
  /-- What is acted upon had been read before, unless the buffer does not end whole: then all of
  that comes first. -/
  acted : ∀ id, ∃ es, dispatchedTo id s.deeds = dispatchedTo id r.deeds ++ es ∧
    (id ∉ r.mux.pending → es = []) ∧ (es <+: contained (r.buffer id) ∨
      endsWhole r.config.closes (r.buffer id) = false ∧ contained (r.buffer id) <+: es)
  /-- What is read is read from somebody who was put back, if the buffer does not end whole, and
  after all that was in it has been acted upon. -/
  read : ∃ reads, readings s.deeds = readings r.deeds ++ reads ∧ ∀ id outcome,
    (id, outcome) ∈ reads → id ∈ r.mux.pending ∧
      endsWhole r.config.closes (r.buffer id) = false ∧
      ∃ es, dispatchedTo id s.deeds = dispatchedTo id r.deeds ++ contained (r.buffer id) ++ es

/-- The run has gone on as it stands with everybody. -/
theorem Winding.lastServed (h : Winding r s) : LastServed r s := by
  obtain ⟨reads, read, standing⟩ := h.since
  refine ⟨h.due, fun id => ?_, reads, read, fun id outcome made => ?_⟩
  · obtain ⟨es, heard, stands⟩ := standing id
    refine ⟨es, heard, ?_⟩
    cases stands with
    | spared before now nothing unread =>
      exact ⟨fun _ => nothing, Or.inl (nothing ▸ List.nil_prefix)⟩
    | waiting before now there ahead same unread =>
      exact ⟨fun not => absurd before not, Or.inl (ahead ▸ List.prefix_append _ _)⟩
    | served before now ahead unread => exact ⟨fun not => absurd before not, Or.inl ahead⟩
    | overrun before part ahead => exact ⟨fun not => absurd before not, Or.inr ⟨part, ahead⟩⟩
  · obtain ⟨es, heard, stands⟩ := standing id
    cases stands with
    | spared before now nothing unread => exact absurd made (unread outcome)
    | waiting before now there ahead same unread => exact absurd made (unread outcome)
    | served before now ahead unread => exact absurd made (unread outcome)
    | overrun before part ahead =>
      obtain ⟨more, rfl⟩ := ahead
      exact ⟨before, part, more, by rw [heard, List.append_assoc]⟩

/-- **Nothing is read before the end of a run just if all buffers of those who were put back end
whole.**

A run is told to end while no other command waits.  Whatever the sockets bring from then on, the
end is due as soon as nobody is put back, and what is acted upon before had been read before, from
those who were put back, up to the end of their buffers.  Where such a buffer ends in part of an
envelope, and only there, its socket may be read once more, and then the end has to wait for what is
read.  Where no buffer does, the run ends within a number of turns that is known beforehand. -/
theorem end_after_buffered (config : ReactorConfig) (shared : Shared) (now : Nat)
    (stimuli : List Stimulus) :
    let r := (start config shared now).run stimuli
    let told := r.react (.request .shutdown)
    r.running = true → r.queue.commands = [] →
      (∀ more, LastServed r (told.run more)) ∧
      ((∀ more, readings (told.run more).deeds = readings r.deeds) ↔
        ∀ id ∈ r.mux.pending, endsWhole r.config.closes (r.buffer id) = true) ∧
      ((∀ id ∈ r.mux.pending, endsWhole r.config.closes (r.buffer id) = true) →
        ∀ more, r.dues < more.countP Stimulus.isTurn → (told.run more).running = false) := by
  intro r told running none_due
  have consistent : r.Consistent := kept_consistent.run (consistent_start config shared now) stimuli
  have idle : Idle r told := react_idle r nofun
  have winding := winding_told consistent running none_due
  refine ⟨fun more => (winding_run more winding).lastServed, ⟨fun unread id waits => ?_,
    fun whole more => ?_⟩, fun whole more enough => ?_⟩
  · -- A buffer that does not end whole would let its socket be read.
    refine Bool.not_eq_false _ ▸ fun part => ?_
    obtain ⟨more, read⟩ := exists_reading winding.consistent (idle.running.trans running)
      (idle.pending ▸ waits) (by rwa [idle.config, buffer, idle.table])
    exact read ((unread more).trans (unread []).symm)
  · obtain ⟨reads, read, from_part⟩ := (winding_run more winding).lastServed.read
    have nothing : reads = [] := List.eq_nil_iff_forall_not_mem.mpr fun ⟨id, outcome⟩ made => by
      obtain ⟨waits, part, -⟩ := from_part id outcome made
      rw [whole id waits] at part
      cases part
    rw [read, nothing, List.append_nil]
  · exact dues_run whole more winding (idle.dues ▸ enough)

/-- Two envelopes arrive at once: when the first one has been acted upon the run is told to end, and
the second one is acted upon before the end, and nothing is read. -/
theorem end_after_buffered_pair :
    let odd : Envelope := ⟨9, .scalar .null⟩
    let idle : Means := ⟨0, .waiting (renderAll [odd, odd]), [], []⟩
    let stimuli : List Stimulus := [.turn ⟨0, 0, .connection ⟨3⟩ .elsewhere, []⟩ idle,
      .turn ⟨0, 0, .none, [(⟨1⟩, .ok .read)]⟩ idle]
    let r := (start default .empty 0).run stimuli
    let told := r.react (.request .shutdown)
    r.running = true ∧ r.queue.commands = [] ∧ r.mux.pending = [⟨1⟩] ∧
      r.buffer ⟨1⟩ = odd.render ∧ (∀ more, LastServed r (told.run more)) ∧
      (∀ more, readings (told.run more).deeds = readings r.deeds) ∧
      ∀ more, 2 < more.countP Stimulus.isTurn → (told.run more).running = false := by
  intro odd idle stimuli r told
  have running : r.running = true := by decide +kernel
  have none_due : r.queue.commands = [] := by decide +kernel
  have pending : r.mux.pending = [⟨1⟩] := by decide +kernel
  have left : r.buffer ⟨1⟩ = odd.render := by decide +kernel
  have found : decodeOne odd.render = .ok (some (odd, odd.render.length)) := by
    have whole := decodeOne_render_append (e := odd) rfl []
    rwa [List.append_nil] at whole
  have behind : odd.render.drop odd.render.length = [] := List.drop_length
  have whole : ∀ id ∈ r.mux.pending, endsWhole r.config.closes (r.buffer id) = true := by
    intro id waits
    rw [pending, List.mem_singleton] at waits
    rw [waits, left, endsWhole_found found, behind]
    exact Bool.or_eq_true_iff.mpr (Or.inl (Bool.or_true _))
  have dues : r.dues = 2 := by
    rw [Reactor.dues, pending, List.flatMap_singleton, left,
      contained_found found, behind, contained_nothing fun e used found => by cases found]
    rfl
  obtain ⟨last, unread, ends⟩ := end_after_buffered default .empty 0 stimuli running none_due
  exact ⟨running, none_due, pending, left, last, unread.mpr whole, dues ▸ ends whole⟩

/-! ### Putting off the end -/

/-- Since a moment of a run somebody has been put back again and again, always with the same part of
an envelope. -/
structure Lingers (id : PeerId) (e : Envelope) (part : Bytes) (n : Nat) (r s : Reactor) : Prop where
  consistent : s.Consistent
  config : s.config = r.config
  running : s.running = true
  alone : s.mux.pending = [id]
  there : ∃ p, s.table.get? id = some p ∧ p.session.inbound = part
  fed : Fed id r s (List.replicate n e) (n * e.render.length)

section Lingering

variable {e : Envelope} {part missing : Bytes} {n : Nat}

/-- A reading brings the rest of an envelope and the beginning of the next one. -/
theorem Lingers.turn (h : Lingers id e part n r s) (plain : e.isPlain = true)
    (goes_on : r.config.closes e = false) (cut : part ++ missing = e.render) (some_left : part ≠ [])
    (some_due : missing ≠ []) (small : e.render.length ≤ readChunk) (sight : Sight) :
    Lingers id e part (n + 1) r (s.turn sight ⟨0, .waiting (missing ++ part), [], []⟩) := by
  obtain ⟨consistent, config, running, alone, ⟨p, there, inbound⟩, fed⟩ := h
  let means : Means := ⟨0, .waiting (missing ++ part), [], []⟩
  obtain ⟨q, there', same, attended⟩ := attended_turn consistent running alone sight means
  obtain ⟨q', there'', -, turned⟩ := turn_head consistent running alone sight means
  rw [there] at there' there''
  cases there'
  cases there''
  subst same
  have lengths : e.render.length = part.length + missing.length := by
    rw [← cut, List.length_append]
  have chunk : (missing ++ part).take readChunk = missing ++ part :=
    List.take_of_length_le (by rw [List.length_append]; omega)
  have room : part.length + readChunk ≤ maxMessageSize := by
    have bounds : readChunk + readChunk ≤ maxMessageSize := by decide
    omega
  have short : decodeOne p.session.inbound = .ok none := by
    rw [inbound]
    exact decodeOne_of_part plain cut some_due (by omega)
  have found : decodeOne (p.session.inbound ++ (missing ++ part).take readChunk) =
      .ok (some (e, e.render.length)) := by
    rw [chunk, inbound, ← List.append_assoc, cut]
    exact decodeOne_render_append plain part
  have watched : s.mux.isRegistered p.id = true :=
    consistent.pending_watched p.id (alone ▸ List.mem_cons_self)
  have served := takeInput_complete (r := { s with mux := { s.mux with pending := [] } }) watched
    short (by rwa [inbound]) found willing_nil
  rw [← turned, chunk, inbound, ← List.append_assoc, cut, List.drop_left] at served
  obtain ⟨q, stays, left, again⟩ := served.stays (config ▸ goes_on)
  have consistent' := kept_consistent.react consistent (.turn sight means)
  refine ⟨consistent', attended.config.trans config, attended.running.trans running, ?_,
    ⟨q, stays, left⟩, ?_⟩
  · refine List.perm_singleton.mp ((List.perm_ext_iff_of_nodup consistent'.pending_nodup
      (List.nodup_singleton _)).mpr fun k => ?_)
    by_cases own : k = p.id
    · exact iff_of_true (own ▸ again some_left) (own ▸ List.mem_cons_self)
    · exact (attended.others k own).pending.trans (alone ▸ Iff.rfl)
  · have heard : Fed p.id s (s.turn sight means) [e] _ := ⟨served.fed.dispatched, served.fed.read⟩
    have both := fed.trans heard
    rw [List.length_append, Nat.add_comm missing.length, ← lengths, ← Nat.succ_mul,
      ← List.replicate_succ'] at both
    exact both

/-- **Whoever has been put back with part of an envelope may put off the end for as long as it
likes**, by sending envelopes in such a way that every reading brings the rest of one and the
beginning of the next. -/
theorem lingers_run (consistent : r.Consistent) (running : r.running = true)
    (alone : r.mux.pending = [id]) (left : r.buffer id = part) (plain : e.isPlain = true)
    (goes_on : r.config.closes e = false) (cut : part ++ missing = e.render) (some_left : part ≠ [])
    (some_due : missing ≠ []) (small : e.render.length ≤ readChunk) (sight : Sight) :
    ∀ n, Lingers id e part n r ((r.react (.request .shutdown)).run
      (List.replicate n (.turn sight ⟨0, .waiting (missing ++ part), [], []⟩))) := by
  intro n
  induction n with
  | zero =>
    have idle : Idle r (r.react (.request .shutdown)) := react_idle r nofun
    obtain ⟨p, there⟩ := (consistent.isRegistered_iff id).mp
      (consistent.pending_watched id (alone ▸ List.mem_cons_self))
    refine ⟨consistent.idle idle, idle.config, idle.running.trans running,
      idle.pending.trans alone, ⟨p, ?_, (buffer_eq there).symm.trans left⟩, ?_⟩
    · exact (idle.spares id).entry.trans there
    · rw [Nat.zero_mul]
      exact (idle.spares id).fed
  | succ n ih =>
    rw [List.replicate_succ', run_append]
    exact ih.turn plain goes_on cut some_left some_due small sight

end Lingering

/-- A peer sends envelopes without end, and each reading ends one byte behind the beginning of an
envelope.  The run is told to end, and no command is before that: no envelope is in the buffer, and
yet as many as the peer likes are read and acted upon, and the run has not ended. -/
theorem exists_postponed :
    let odd : Envelope := ⟨9, .scalar .null⟩
    let idle : Means := ⟨0, .waiting (odd.render ++ odd.render.take 1), [], []⟩
    let r := (start default .empty 0).run [.turn ⟨0, 0, .connection ⟨3⟩ .elsewhere, []⟩ idle,
      .turn ⟨0, 0, .none, [(⟨1⟩, .ok .read)]⟩ idle]
    r.running = true ∧ r.queue.commands = [] ∧ contained (r.buffer ⟨1⟩) = [] ∧ ∀ n, ∃ more,
      let s := (r.react (.request .shutdown)).run more
      more.countP Stimulus.isTurn = n ∧ s.running = true ∧
        dispatchedTo ⟨1⟩ s.deeds = dispatchedTo ⟨1⟩ r.deeds ++ List.replicate n odd ∧
        bytesRead ⟨1⟩ s.deeds = bytesRead ⟨1⟩ r.deeds + n * odd.render.length := by
  intro odd idle r
  have running : r.running = true := by decide +kernel
  have left : r.buffer ⟨1⟩ = odd.render.take 1 := by decide +kernel
  have consistent : r.Consistent := kept_consistent.run (consistent_start _ _ _) _
  have short : decodeOne (odd.render.take 1) = .ok none :=
    decodeOne_of_part (e := odd) rfl (List.take_append_drop 1 _) (by decide +kernel)
      (by decide +kernel)
  refine ⟨running, by decide +kernel, ?_, fun n => ?_⟩
  · rw [left]
    exact contained_nothing fun e used found => by rw [short] at found; cases found
  · have alone : r.mux.pending = [⟨1⟩] := by decide +kernel
    have cut : odd.render.take 1 ++ odd.render.drop 1 = odd.render := List.take_append_drop 1 _
    have lingers := lingers_run consistent running alone left rfl (by decide +kernel) cut
      (by decide +kernel) (by decide +kernel) (by decide +kernel) ⟨0, 0, .none, []⟩ n
    refine ⟨_, ?_, lingers.running, lingers.fed.dispatched, lingers.fed.read⟩
    rw [List.countP_replicate]
    rfl

end Reactor

end GossipNode
