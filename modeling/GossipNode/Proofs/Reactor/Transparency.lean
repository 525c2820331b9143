import GossipNode.Proofs.Reactor.Rest

/-!
# Messages of unknown kinds

A peer may use kinds of messages that a node does not know.  They are passed over, but they take up
bytes: they shift where reads end, what is left in the buffer, when the peer is put back, and when
rounds of dialing come between.  None of this can be seen from outside.

What can be seen of a run in which the peer alone is heard is settled by the envelopes that are
acted upon: it is as if they were acted upon one after the other, with nothing between.  In such a
list an envelope of an unknown kind makes no difference.

## Main definitions

* `Envelope.isKnown` — an envelope is of a kind that is known.
* `Reactor.hearAll` — envelopes are acted upon one after the other.
* `Reactor.Devoted` — a reactor that has nothing to do but for one peer.
* `Reactor.Outstanding` — what is left of what the peer has sent.
* `Reactor.SameEnd` — two runs have come to the same.

## Main results

* `Reactor.Devoted.unfolds` — what a turn comes to.
* `Reactor.Solo.hears` — **what can be seen of a run is settled by the envelopes.**
* `Reactor.unknown_transparent` — **envelopes of unknown kinds between messages change nothing.**
-/

namespace GossipNode

/-! ### Envelopes of unknown kinds -/

/-- Whether an envelope is of a kind that is known. -/
def Envelope.isKnown (e : Envelope) : Bool := (MessageKind.ofTag? e.tag).isSome

theorem Envelope.message_unknown {e : Envelope} (strange : e.isKnown = false) :
    e.message = .error (.unknownType e.tag) := by
  have nothing : MessageKind.ofTag? e.tag = none :=
    Option.isNone_iff_eq_none.mp (Option.isSome_eq_false_iff.mp strange)
  unfold message
  rw [nothing]

/-- An envelope of an unknown kind does not end the conversation. -/
theorem ReactorConfig.closes_unknown {e : Envelope} (strange : e.isKnown = false)
    (config : ReactorConfig) : config.closes e = false := by
  unfold closes
  rw [e.message_unknown strange]
  rfl

/-- What comes up to the end of the conversation does not depend on envelopes that do not end it. -/
theorem through_filter {closes keep : Envelope → Bool}
    (mild : ∀ e, keep e = false → closes e = false) (es : List Envelope) :
    through closes (es.filter keep) = (through closes es).filter keep := by
  induction es with
  | nil => rfl
  | cons e es ih =>
    cases kept : keep e with
    | true =>
      rw [List.filter_cons_of_pos kept, through, through, List.filter_cons_of_pos kept]
      cases closes e with
      | true => rfl
      | false => exact congrArg (e :: ·) ih
    | false =>
      have dropped : ¬ keep e = true := Bool.not_eq_true _ ▸ kept
      rw [List.filter_cons_of_neg dropped, through, List.filter_cons_of_neg dropped, mild e kept,
        ih]
      rfl

namespace Reactor

variable {id k : PeerId} {r s : Reactor} {p q : Peer} {e : Envelope}

/-! ### Envelopes one after the other -/

/-- An envelope is acted upon, if the peer is there. -/
def hear (id : PeerId) (r : Reactor) (e : Envelope) : Reactor :=
  match r.table.get? id with
  | none => r
  | some p => r.dispatch p e []

/-- Envelopes are acted upon one after the other. -/
def hearAll (id : PeerId) (r : Reactor) (es : List Envelope) : Reactor := es.foldl (hear id) r

theorem hear_gone (gone : r.table.get? id = none) (e : Envelope) : hear id r e = r := by
  unfold hear
  rw [gone]

theorem hear_there (there : r.table.get? id = some p) (e : Envelope) :
    hear id r e = r.dispatch p e [] := by
  unfold hear
  rw [there]

theorem hearAll_gone (gone : r.table.get? id = none) (es : List Envelope) :
    hearAll id r es = r := by
  induction es with
  | nil => rfl
  | cons e es ih =>
    rw [hearAll, List.foldl_cons, hear_gone gone]
    exact ih

/-- A reactor that goes on, and whose parts agree. -/
structure Sane (r : Reactor) : Prop where
  consistent : r.Consistent
  running : r.running = true

theorem Sane.hear (h : r.Sane) (id : PeerId) (e : Envelope) : (hear id r e).Sane := by
  cases there : r.table.get? id with
  | none =>
    rw [hear_gone there]
    exact h
  | some p =>
    have moves := dispatch_moves (h.consistent.holds there) e []
    rw [hear_there there]
    exact ⟨kept_consistent.moves h.consistent h.running moves, moves.keeps.1.trans h.running⟩

/-- What is acted upon alike looks alike afterwards. -/
theorem Alike.hear (h : Alike false r s) (sane : r.Sane) (sane' : s.Sane) (id : PeerId)
    (e : Envelope) : Alike false (hear id r e) (hear id s e) := by
  cases there : r.table.get? id with
  | none =>
    rw [hear_gone there, hear_gone (h.nobody there)]
    exact h
  | some p =>
    obtain ⟨q, there', shown⟩ := h.exists_peer there
    rw [hear_there there, hear_there there']
    exact (congruent_alike false).dispatch h (sane.consistent.holds there)
      (sane'.consistent.holds there') (Peer.id_of_face shown) e willing_nil willing_nil

theorem Alike.hearAll (h : Alike false r s) (sane : r.Sane) (sane' : s.Sane) (id : PeerId)
    (es : List Envelope) : Alike false (hearAll id r es) (hearAll id s es) := by
  induction es generalizing r s with
  | nil => exact h
  | cons e es ih => exact ih (h.hear sane sane' id e) (sane.hear id e) (sane'.hear id e)

/-- An envelope of an unknown kind is passed over. -/
theorem alike_unknown (strange : e.isKnown = false) (id : PeerId) (r : Reactor) :
    Alike false r (hear id r e) := by
  cases there : r.table.get? id with
  | none =>
    rw [hear_gone there]
    exact Alike.refl false r
  | some p =>
    have passed : r.dispatch p e [] = r.note (.dispatched p.id e) := by
      unfold dispatch
      rw [e.message_unknown strange]
      rfl
    rw [hear_there there, passed]
    exact (Alike.refl false r).heard p.id e

/-- **Among envelopes that are acted upon one after the other those of unknown kinds make no
difference.** -/
theorem Alike.hear_known (h : Alike false r s) (sane : r.Sane) (sane' : s.Sane) (id : PeerId)
    (es : List Envelope) :
    Alike false (Reactor.hearAll id r (es.filter (·.isKnown))) (Reactor.hearAll id s es) := by
  induction es generalizing r s with
  | nil => exact h
  | cons e es ih =>
    cases kind : e.isKnown with
    | true =>
      rw [List.filter_cons_of_pos kind]
      exact ih (h.hear sane sane' id e) (sane.hear id e) (sane'.hear id e)
    | false =>
      rw [List.filter_cons_of_neg (Bool.not_eq_true _ ▸ kind)]
      exact ih (h.trans (alike_unknown kind id s)) sane (sane'.hear id e)

/-! ### A reactor that has nothing to do but for one peer -/

/-- Nothing is left to do but for one peer: nobody else was put back, and the commands that wait are
rounds of dialing, which come to nothing. -/
structure Devoted (id : PeerId) (r : Reactor) : Prop extends r.Sane where
  aimless : r.config.target = 0
  lone : ∀ k ∈ r.mux.pending, k = id
  senders : r.queue.hasSenders = true
  rounds : ∀ c ∈ r.queue.commands, c = .tryConnect

/-- What is left of what a peer has sent, if it is still there: what is buffered and what is unread
make up some envelopes, and the peer has been put back if the first one of them is in the buffer. -/
def Outstanding (id : PeerId) (rest : List Envelope) (unread : Bytes) (r : Reactor) : Prop :=
  ∀ p, r.table.get? id = some p → p.session.inbound ++ unread = renderAll rest ∧
    (Short p.session.inbound rest ∨ id ∈ r.mux.pending)

/-- A turn passes by without the peer: what shows stays the same, the peer is left as it is, and
nothing more is left to do than before. -/
structure Bides (id : PeerId) (r s : Reactor) : Prop where
  alike : Alike false r s
  spares : Spares id r s
  running : s.running = r.running
  pending : s.mux.pending ⊆ r.mux.pending
  senders : s.queue.hasSenders = r.queue.hasSenders
  commands : s.queue.commands ⊆ r.queue.commands

theorem Bides.trans {t : Reactor} (h : Bides id r s) (h' : Bides id s t) : Bides id r t where
  alike := h.alike.trans h'.alike
  spares := h.spares.trans h'.spares
  running := h'.running.trans h.running
  pending := List.Subset.trans h'.pending h.pending
  senders := h'.senders.trans h.senders
  commands := List.Subset.trans h'.commands h.commands

section Turn

variable {rest : List Envelope} {unread : Bytes} {sight : Sight} {means : Means}

/-- What is left of what a gone peer has sent does not matter. -/
theorem outstanding_gone (gone : r.table.get? id = none) (rest : List Envelope) (unread : Bytes) :
    Outstanding id rest unread r := by
  intro p there
  rw [gone] at there
  cases there

theorem Outstanding.bides (h : Outstanding id rest unread r) (bides : Bides id r s) :
    Outstanding id rest (unread.drop (readSince id r s)) s := by
  intro p there
  rw [bides.spares.fed.readSince]
  obtain ⟨stream, due⟩ := h p (bides.spares.entry.symm.trans there)
  exact ⟨stream, due.imp_right bides.spares.pending.mpr⟩

/-- Waiting for something else than the peer or a command. -/
theorem bides_wait (consistent : r.Consistent)
    (unserved : ∀ ready, (r.wait sight).1 ≠ some (.peer id ready))
    (unasked : ∀ c, (r.wait sight).1 ≠ some (.control c)) : Bides id r (r.wait sight).2 where
  alike := (Alike.refl false r).unseen [] rfl rfl rfl rfl (fun _ => rfl) rfl
    (wait_queue unasked)
  spares := (wait_untouched consistent unserved (unasked _)).toSpares
  running := rfl
  pending := (r.mux.wait_spec r.queue r.owes sight).2.1.subset
  senders := by rw [wait_queue unasked]
  commands := by
    rw [wait_queue unasked]
    exact List.Subset.refl _

/-- A round of dialing that comes to nothing has been due and has been told. -/
theorem bides_round (consistent : r.Consistent)
    (due : (r.wait sight).1 = some (.control (some .tryConnect))) :
    Bides id r ((r.wait sight).2.notify .tryConnect) := by
  have commands := wait_command due
  have waited : Untouched id r (r.wait sight).2 := by
    refine wait_untouched consistent (fun ready busy => ?_) fun busy => ?_ <;>
    · rw [due] at busy
      cases busy
  constructor
  case alike =>
    refine ⟨rfl, rfl, rfl, fun _ => rfl, ?_, ?_⟩
    · show otherEvents ([_] ++ r.deeds) = _
      rw [otherEvents_append]
      exact List.append_nil _
    · unfold rounds
      rw [commands, List.count_cons_self]
      show (events (.notified .tryConnect _ :: r.deeds)).count _ + _ = _
      rw [events_notified, List.count_append, List.count_singleton_self]
      show _ + (r.wait sight).2.queue.commands.count _ = _
      omega
  case spares =>
    have told : Idle (r.wait sight).2 ((r.wait sight).2.notify .tryConnect) :=
      idle_notify (r.wait sight).2 fun _ => rfl
    exact waited.toSpares.trans (told.spares id)
  case running => rfl
  case pending => exact (r.mux.wait_spec r.queue r.owes sight).2.1.subset
  case senders =>
    rcases r.wait_commands sight with ⟨c, -, -, senders⟩ | ⟨other, -⟩ | ⟨other, -⟩
    · exact senders
    · rw [due] at other
      cases other
    · exact absurd due (other _)
  case commands =>
    rw [commands]
    exact List.subset_cons_self _ _

/-- Serving somebody who has nothing to be read offers output, if anything. -/
theorem serve_output (held : r.Holds p) {ready : Readiness}
    (mute : ready.readable = false ∧ ready.readClosed = false) (willing : Willing means.writes) :
    r.serve p.id ready means = r ∨
      r.serve p.id ready means = r.perform p (.flush means.writes) := by
  have found : r.table.get? p.id = some p := held
  have silent : ¬ (ready.readable = true ∨ ready.readClosed = true) := by
    rw [mute.1, mute.2]
    simp
  unfold serve
  rw [found]
  simp only [if_neg silent]
  split
  · have usable : (r.flush p means.writes).usable = true := (p.session.flush_willing willing).1
    rw [if_pos usable]
    exact Or.inr rfl
  · rw [if_pos rfl]
    exact Or.inl rfl

/-- Output to somebody else. -/
theorem bides_output (consistent : r.Consistent) (other : k ≠ id) {ready : Readiness}
    (mute : ready.readable = false ∧ ready.readClosed = false) (willing : Willing means.writes) :
    Bides id r (r.serve k ready means) := by
  have spares : Spares id r (r.serve k ready means) :=
    (serve_moves consistent.keyed ready means).spares fun same => other same.symm
  cases there : r.table.get? k with
  | none =>
    rw [serve_unknown there] at spares ⊢
    exact ⟨(Alike.refl false r).watching _, spares, rfl, List.filter_subset_self _, rfl,
      List.Subset.refl _⟩
  | some p =>
    have same := consistent.keyed k p there
    subst same
    rcases serve_output there mute willing with same | same
    · rw [same] at spares ⊢
      exact ⟨Alike.refl false r, spares, rfl, List.Subset.refl _, rfl, List.Subset.refl _⟩
    · rw [same] at spares ⊢
      exact ⟨(Alike.refl false r).mute there rfl, spares, rfl, List.Subset.refl _, rfl,
        List.Subset.refl _⟩

/-- **A turn passes by without the peer, or the peer is served.** -/
theorem Devoted.serves (h : Devoted id r) (willing : Willing means.writes)
    (alone : ∀ w, (r.wait sight).1 = some w → w.IsSolo id unread r means) :
    Bides id r (r.turn sight means) ∨ ∃ ready, (r.wait sight).1 = some (.peer id ready) ∧
      r.turn sight means = (r.wait sight).2.serve id ready means := by
  have waited (unserved : ∀ ready, (r.wait sight).1 ≠ some (.peer id ready))
      (unasked : ∀ c, (r.wait sight).1 ≠ some (.control c)) : Bides id r (r.wait sight).2 :=
    bides_wait h.consistent unserved unasked
  cases due : (r.wait sight).1 with
  | none =>
    have idle := waited (fun ready busy => by rw [due] at busy; cases busy)
      fun c busy => by rw [due] at busy; cases busy
    rcases turn_cases h.running sight means (h.consistent.wait sight).keyed with
      ⟨-, same⟩ | ⟨w, busy, -⟩
    · exact Or.inl (same ▸ idle)
    · rw [due] at busy
      cases busy
  | some w =>
    have solo := alone w due
    rw [turn_eq h.running due]
    have idle (unserved : ∀ ready, w ≠ .peer id ready) (unasked : ∀ c, w ≠ .control c) :
        Bides id r (r.wait sight).2 := by
      refine waited (fun ready busy => unserved ready ?_) fun c busy => unasked c ?_ <;>
      · exact Option.some.inj (due.symm.trans busy)
    cases w with
    | peer k ready =>
      by_cases same : k = id
      · subst same
        exact Or.inr ⟨ready, rfl, rfl⟩
      · refine Or.inl ((idle ?_ ?_).trans (bides_output (h.consistent.wait sight) same ?_ willing))
        · rintro _ ⟨⟩
          exact same rfl
        · exact fun c impossible => by cases impossible
        · have fresh : k ∉ r.mux.pending := fun waiting => same (h.lone k waiting)
          exact (solo.2.resolve_left same).resolve_left fresh
    | accept socket remote => exact solo.elim
    | acceptFailed why => exact solo.elim
    | failed why => exact solo.elim
    | tick =>
      have timely := expireHandshakes_timely (r := (r.wait sight).2) solo
      refine Or.inl ?_
      rw [handle, timely]
      exact idle (fun _ impossible => by cases impossible) fun _ impossible => by cases impossible
    | acceptResumed =>
      exact Or.inl (idle (fun _ impossible => by cases impossible)
        fun _ impossible => by cases impossible)
    | control command =>
      rcases r.wait_commands sight with ⟨c, first, commands, -⟩ | ⟨-, -, deserted, -⟩ | ⟨other, -⟩
      · have asked : c = .tryConnect := h.rounds c (commands ▸ List.mem_cons_self)
        subst asked
        cases due.symm.trans first
        refine Or.inl ?_
        rw [handle, obey, tryConnect_full (r := (r.wait sight).2) (h.aimless ▸ Nat.zero_le _)]
        exact bides_round h.consistent due
      · rw [h.senders] at deserted
        cases deserted
      · exact absurd due (other command)

/-! ### Serving the peer -/

/-- What serving a peer comes to whose socket does not fail: nothing that shows, or the peer is let
go, or an envelope is acted upon. -/
theorem serve_account (held : r.Holds p) (ready : Readiness) (willing : Willing means.writes) :
    (dispatchedTo p.id (r.serve p.id ready means).deeds = dispatchedTo p.id r.deeds ∧
        (Alike false r (r.serve p.id ready means) ∨
          (r.serve p.id ready means).table.get? p.id = none)) ∨
      ∃ e, dispatchedTo p.id (r.serve p.id ready means).deeds = dispatchedTo p.id r.deeds ++ [e] ∧
        Alike false (r.dispatch p e []) (r.serve p.id ready means) := by
  refine @serve_rule r p
    (fun t q => t.Holds q ∧ q.id = p.id ∧ Alike false r t ∧
      dispatchedTo p.id t.deeds = dispatchedTo p.id r.deeds)
    (fun s => (dispatchedTo p.id s.deeds = dispatchedTo p.id r.deeds ∧
        (Alike false r s ∨ s.table.get? p.id = none)) ∨
      ∃ e, dispatchedTo p.id s.deeds = dispatchedTo p.id r.deeds ++ [e] ∧
        Alike false (r.dispatch p e []) s)
    means ?mute ?left ?closed ?acted held ⟨held, rfl, Alike.refl false r, rfl⟩ ready
  case mute =>
    rintro t q c ⟨there, number, alike, dispatched⟩ mute
    have heard := (exchange_mute mute t q p.id).heard
    rw [List.append_nil] at heard
    exact ⟨holds_perform t q c, number, alike.mute there mute, heard.trans dispatched⟩
  case left =>
    rintro t q ⟨-, -, alike, dispatched⟩
    exact Or.inl ⟨dispatched, Or.inl alike⟩
  case closed =>
    rintro t q ⟨there, number, -, dispatched⟩
    have heard := (fed_close p.id there).dispatched
    rw [List.append_nil] at heard
    exact Or.inl ⟨heard.trans dispatched, Or.inr (number ▸ nobody_closePeer t q.id)⟩
  case acted =>
    rintro t q e writes ⟨there, number, alike, dispatched⟩ some_of
    have heard := (dispatch_exchange there e writes).choose_spec.2.heard
    have shown := (congruent_alike false).dispatch alike held there number e willing_nil
      fun w hw => willing w (some_of.subset hw)
    rw [number, dispatched] at heard
    refine Or.inr ⟨e, ?_, ?_⟩
    · rw [deeds_requeueBuffered, heard]
    · rcases requeueBuffered_cases (t.dispatch q e writes) q.id with same | same
      · rw [same]
        exact shown
      · rw [same]
        exact shown.watching _

/-- What a turn comes to of a reactor that has nothing to do but for one peer. -/
inductive Unfolds (id : PeerId) (rest : List Envelope) (unread : Bytes) (r s : Reactor) : Prop
  /-- Perhaps something is read, but no envelope is acted upon. -/
  | nothing (alike : Alike false r s)
    (outstanding : Outstanding id rest (unread.drop (readSince id r s)) s)
  /-- The next envelope is acted upon. -/
  | next {e : Envelope} {more : List Envelope} (first : rest = e :: more)
    (alike : Alike false (hear id r e) s)
    (parted : r.config.closes e = true → s.table.get? id = none)
    (outstanding : Outstanding id more (unread.drop (readSince id r s)) s)

/-- Serving the peer. -/
theorem Devoted.unfolds_serve (h : Devoted id r) (outstanding : Outstanding id rest unread r)
    (plain : ∀ e ∈ rest, e.isPlain = true)
    (small : ∀ e ∈ rest, e.render.length + readChunk ≤ maxMessageSize) {ready : Readiness}
    (due : (r.wait sight).1 = some (.peer id ready)) (fits : means.incoming.Fits unread false)
    (willing : Willing means.writes) :
    Unfolds id rest unread r ((r.wait sight).2.serve id ready means) := by
  have waited : Alike false r (r.wait sight).2 :=
    (Alike.refl false r).unseen [] rfl rfl rfl rfl (fun _ => rfl) rfl (wait_peer due).2
  cases there : r.table.get? id with
  | none =>
    have same := serve_unknown (r := (r.wait sight).2) there ready means
    have gone : ((r.wait sight).2.serve id ready means).table.get? id = none := by
      rw [same]
      exact there
    refine .nothing ?_ (outstanding_gone gone _ _)
    rw [same]
    exact waited.watching _
  | some p =>
    have number := h.consistent.keyed id p there
    subst number
    obtain ⟨stream, waiting⟩ := outstanding p there
    rw [← List.append_nil unread] at stream
    have hearing := serve_hearing h.consistent there plain small stream waiting due fits willing
    have account := serve_account (r := (r.wait sight).2) there ready willing
    have before : dispatchedTo p.id (r.wait sight).2.deeds = dispatchedTo p.id r.deeds := rfl
    have sane : (r.wait sight).2.Sane := ⟨h.consistent.wait sight, h.running⟩
    have dispatch (e : Envelope) :
        hear p.id (r.wait sight).2 e = (r.wait sight).2.dispatch p e [] :=
      hear_there (r := (r.wait sight).2) there e
    rw [before] at account
    generalize (r.wait sight).2.serve p.id ready means = s at hearing account ⊢
    cases hearing with
    | @acted e more left n first arrived further served =>
      rcases account with ⟨silent, -⟩ | ⟨e', heard, alike⟩
      · have one := served.fed.dispatched
        rw [silent] at one
        exact absurd one.symm (by simp)
      · have one := served.fed.dispatched
        rw [heard] at one
        cases List.append_cancel_left one
        rw [← dispatch e] at alike
        refine .next first ((waited.hear h.toSane sane p.id e).trans alike) served.closed ?_
        rw [served.fed.readSince]
        intro q found
        cases closes : r.config.closes e with
        | true =>
          rw [served.closed closes] at found
          cases found
        | false =>
          obtain ⟨q', there', inbound, next⟩ := served.due closes more
          rw [there'] at found
          cases found
          rw [List.append_nil] at further
          exact ⟨inbound ▸ further, inbound ▸ next⟩
    | @kept q n there' arrived further next fed =>
      rcases account with ⟨-, alike | gone⟩ | ⟨e', heard, -⟩
      · refine .nothing (waited.trans alike) ?_
        rw [fed.readSince]
        intro q' found
        rw [there'] at found
        cases found
        rw [List.append_nil] at further
        exact ⟨further, next⟩
      · rw [there'] at gone
        cases gone
      · have none_heard := fed.dispatched
        rw [heard] at none_heard
        exact absurd (List.append_cancel_left none_heard) (by simp)
    | parted ended => cases ended

/-- Serving the peer leaves nothing to do but for the peer. -/
theorem Devoted.serve (h : Devoted id r) {ready : Readiness}
    (due : (r.wait sight).1 = some (.peer id ready)) :
    Devoted id ((r.wait sight).2.serve id ready means) := by
  have waited := h.consistent.wait sight
  have moves : Moves (· = id) (r.wait sight).2 ((r.wait sight).2.serve id ready means) :=
    serve_moves waited.keyed ready means
  have queue := (wait_peer due).2
  constructor
  case toSane =>
    exact ⟨kept_consistent.moves waited h.running moves, moves.keeps.1.trans h.running⟩
  case aimless => exact moves.keeps.2 ▸ h.aimless
  case lone =>
    intro k waiting
    by_contra other
    have before := (moves.spares other).pending.mp waiting
    exact other (h.lone k ((r.mux.wait_spec r.queue r.owes sight).2.1.subset before))
  case senders =>
    rw [moves.extends.senders, queue]
    exact h.senders
  case rounds =>
    cases there : r.table.get? id with
    | none =>
      rw [serve_unknown (r := (r.wait sight).2) there]
      exact queue ▸ h.rounds
    | some p =>
      have number := h.consistent.keyed id p there
      subst number
      have commands : ∃ new, ((r.wait sight).2.serve p.id ready means).queue.commands =
          (r.wait sight).2.queue.commands ++ new ∧ ∀ c ∈ new, c = .tryConnect := by
        rcases serve_exchange (r := (r.wait sight).2) there ready means with
          exchange | ⟨e, said, -, exchange⟩ <;>
        · obtain ⟨new, added, seeks⟩ := exchange.commands
          exact ⟨new, added, fun c hc => (seeks c hc).1⟩
      obtain ⟨new, added, seeks⟩ := commands
      rw [added, queue]
      intro c hc
      exact (List.mem_append.mp hc).elim (h.rounds c) (seeks c)

/-- While a turn passes by without the peer nothing is left to do but for the peer. -/
theorem Devoted.bides (h : Devoted id r) (bides : Bides id r s) (consistent : s.Consistent) :
    Devoted id s where
  consistent := consistent
  running := bides.running.trans h.running
  aimless := bides.alike.config ▸ h.aimless
  lone k waiting := h.lone k (bides.pending waiting)
  senders := bides.senders.trans h.senders
  rounds c hc := h.rounds c (bides.commands hc)

/-- **What a turn comes to of a reactor that has nothing to do but for one peer**, when nobody else
is heard. -/
theorem Devoted.unfolds (h : Devoted id r) (outstanding : Outstanding id rest unread r)
    (plain : ∀ e ∈ rest, e.isPlain = true)
    (small : ∀ e ∈ rest, e.render.length + readChunk ≤ maxMessageSize)
    (willing : Willing means.writes)
    (alone : ∀ w, (r.wait sight).1 = some w → w.IsSolo id unread r means) :
    Devoted id (r.turn sight means) ∧ Unfolds id rest unread r (r.turn sight means) := by
  rcases h.serves willing alone with bides | ⟨ready, due, same⟩
  · exact ⟨h.bides bides (kept_consistent.turn h.consistent sight means),
      .nothing bides.alike (outstanding.bides bides)⟩
  · have solo := alone _ due
    have fits := solo.1
    rw [if_pos rfl] at fits
    rw [same]
    exact ⟨h.serve due, h.unfolds_serve outstanding plain small due fits willing⟩

end Turn

/-! ### Runs in which the peer alone is heard -/

variable {rest : List Envelope} {unread left : Bytes}

/-- A reactor that has ended does nothing more. -/
theorem Solo.ended (course : Solo id r unread s left) (ended : r.running = false) : s = r := by
  induction course with
  | rest => rfl
  | turn sight means willing alone later ih =>
    rw [turn_ended ended sight means] at ih
    exact ih ended

/-- A turn that serves what is due. -/
theorem Solo.due (sight : Sight) (means : Means) {w : Wakeup} (due : (r.wait sight).1 = some w)
    (willing : Willing means.writes) (solo : w.IsSolo id unread r means)
    (later : Solo id (r.turn sight means) (unread.drop (readSince id r (r.turn sight means)))
      s left) : Solo id r unread s left := by
  refine .turn sight means willing (fun w' due' => ?_) later
  cases due.symm.trans due'
  exact solo

theorem Solo.run (course : Solo id r unread s left) : ∃ stimuli, s = r.run stimuli := by
  induction course with
  | rest => exact ⟨[], rfl⟩
  | turn sight means willing alone later ih =>
    obtain ⟨stimuli, same⟩ := ih
    exact ⟨.turn sight means :: stimuli, same⟩

/-- **What can be seen of a run in which a peer alone is heard is settled by the envelopes it
sends**: it is as if those up to the one that ends the conversation were acted upon one after the
other. -/
theorem Solo.hears (course : Solo id r unread s left) (devoted : Devoted id r)
    (plain : ∀ e ∈ rest, e.isPlain = true)
    (small : ∀ e ∈ rest, e.render.length + readChunk ≤ maxMessageSize)
    (outstanding : Outstanding id rest unread r) (final : AtRest id left s) :
    Alike false (hearAll id r (through r.config.closes rest)) s := by
  -- Turn by turn the next envelope is acted upon or nothing shows.  What carries the induction is
  -- that what is buffered and what is unread make up the envelopes that are left.
  induction course generalizing rest with
  | rest r unread =>
    cases there : r.table.get? id with
    | none =>
      rw [hearAll_gone there]
      exact Alike.refl false r
    | some p =>
      -- All has been read, and no envelope is whole in the buffer, so none is left.
      obtain ⟨stream, due⟩ := outstanding p there
      have all : unread = [] := final.heard.resolve_left fun gone => by
        rw [there] at gone
        cases gone
      have few : Short p.session.inbound rest := due.resolve_right fun waiting => by
        rw [final.pending] at waiting
        cases waiting
      rw [all, List.append_nil] at stream
      rw [stream] at few
      rw [few.eq_nil]
      exact Alike.refl false r
  | @turn r s unread left sight means willing alone later ih =>
    obtain ⟨devoted', unfolds⟩ := devoted.unfolds outstanding plain small willing alone
    have config : (r.turn sight means).config = r.config :=
      ((kept_config r.config).turn ⟨devoted.consistent, rfl⟩ sight means).2
    cases unfolds with
    | nothing alike outstanding' =>
      have later := ih devoted' plain small outstanding' final
      rw [config] at later
      exact (alike.hearAll devoted.toSane devoted'.toSane id _).trans later
    | @next e more first alike parted outstanding' =>
      subst first
      have later := ih devoted' (fun f hf => plain f (List.mem_cons_of_mem e hf))
        (fun f hf => small f (List.mem_cons_of_mem e hf)) outstanding' final
      rw [config] at later
      rw [through]
      cases closes : r.config.closes e with
      | true =>
        rw [hearAll_gone (parted closes)] at later
        exact alike.trans later
      | false =>
        have further := alike.hearAll (devoted.toSane.hear id e) devoted'.toSane id
          (through r.config.closes more)
        exact further.trans later

/-! ### Two runs -/

/-- Two runs have come to the same: the same peers are there, as far as they have introduced
themselves and with the same identities, the same addresses wait, the same has been said to
everybody, to the byte whether or not the sockets have taken it, and the listeners have been told
the same but for when rounds of dialing came, of which there were as many. -/
structure SameEnd (r s : Reactor) : Prop where
  peers : ∀ k, (s.table.get? k).map (fun q => (q.session.state, q.session.identity)) =
    (r.table.get? k).map fun p => (p.session.state, p.session.identity)
  pool : s.shared.pool = r.shared.pool
  said : ∀ k, sentTo k s.deeds = sentTo k r.deeds
  bytes : ∀ k p q, r.Known k p → s.Known k q →
    wroteTo k s.deeds ++ q.session.outbound = wroteTo k r.deeds ++ p.session.outbound
  told : otherEvents s.deeds = otherEvents r.deeds
  dials : (events s.deeds).count .tryConnect = (events r.deeds).count .tryConnect

/-- Reactors that look alike when nothing is left to do have come to the same. -/
theorem Alike.sameEnd (h : Alike false r s) (balanced : r.Balanced) (balanced' : s.Balanced)
    (idle : r.queue.receive = none) (idle' : s.queue.receive = none) : SameEnd r s where
  peers k := by
    have shown := congrArg (Option.map fun p : Peer => (p.session.state, p.session.identity))
      (h.face k)
    rwa [Option.map_map, Option.map_map] at shown
  pool := h.pool
  said := h.said
  bytes k p q known known' := by
    rw [balanced.balance k p known, balanced'.balance k q known', h.said]
  told := h.told
  dials := by
    have same := h.rounds
    unfold Reactor.rounds at same
    rwa [(Multiplexer.receive_eq_none idle).1, (Multiplexer.receive_eq_none idle').1] at same

/-- What looks alike in a view of the whole looks alike. -/
theorem Alike.loose (h : Alike true r s) : Alike false r s where
  config := h.config
  peers := by
    have shown (t : PeerTable) : t.view (Peer.face false) =
        (t.view (Peer.face true)).map fun e => (e.1, e.2.face false) := by
      rw [IdMap.view, IdMap.view, List.map_map]
      rfl
    rw [shown, shown, h.peers]
  pool := h.pool
  said := h.said
  told := h.told
  rounds := h.rounds

/-- A calm reactor that goes on has nothing to do but for a peer that has not been heard. -/
theorem devoted_calm (id : PeerId) (sane : r.Sane) (aimless : r.config.target = 0) (calm : r.Calm) :
    Devoted id r := by
  obtain ⟨nobody, idle⟩ := calm.resolve_left (by rw [sane.running]; exact Bool.noConfusion)
  obtain ⟨commands, senders⟩ := Multiplexer.receive_eq_none idle
  refine ⟨sane, aimless, fun k waiting => ?_, senders, fun c hc => ?_⟩
  · rw [nobody] at waiting
    cases waiting
  · rw [commands] at hc
    cases hc

theorem Unheard.outstanding {sent : Bytes} (h : Unheard id sent unread r)
    (stream : sent = renderAll rest) : Outstanding id rest unread r := by
  intro p there
  obtain ⟨nothing, all⟩ := h.whole p there
  rw [nothing, all, stream]
  exact ⟨rfl, Or.inl (short_nil rest)⟩

/-- Two runs from calm twins, in one of which envelopes of unknown kinds are left out, look alike
when nothing is left to do. -/
theorem Solo.alike {u u' s' : Reactor} {v v' left' : Bytes} {items : List Envelope}
    (course : Solo id u v s left) (course' : Solo id u' v' s' left') (twins : Twins u u')
    (consistent : u.Consistent) (consistent' : u'.Consistent) (aimless : u.config.target = 0)
    (calm : u.Calm) (unheard : Unheard id (renderAll (items.filter (·.isKnown))) v u)
    (unheard' : Unheard id (renderAll items) v' u') (plain : ∀ e ∈ items, e.isPlain = true)
    (small : ∀ e ∈ items, e.render.length + readChunk ≤ maxMessageSize) (final : AtRest id left s)
    (final' : AtRest id left' s') : Alike false s s' := by
  have similar := twins.toAlike.loose
  by_cases running : u.running = true
  · have devoted := devoted_calm id ⟨consistent, running⟩ aimless calm
    have devoted' := devoted_calm id ⟨consistent', twins.running.trans running⟩
      (twins.config.symm ▸ aimless) (twins.calm_iff.mpr calm)
    have within : ∀ e ∈ items.filter (·.isKnown), e ∈ items := fun e he =>
      (List.mem_filter.mp he).1
    have first := course.hears devoted (fun e he => plain e (within e he))
      (fun e he => small e (within e he)) (unheard.outstanding rfl) final
    have second := course'.hears devoted' plain small (unheard'.outstanding rfl) final'
    have mild : ∀ e : Envelope, e.isKnown = false → u.config.closes e = false :=
      fun e strange => u.config.closes_unknown strange
    -- Both are compared with the same envelopes acted upon one after the other.
    rw [through_filter mild] at first
    rw [twins.config] at second
    exact first.symm.trans ((similar.hear_known devoted.toSane devoted'.toSane id _).trans second)
  · have ended := Bool.eq_false_iff.mpr running
    rw [course.ended ended, course'.ended (twins.running.trans ended)]
    exact similar

/-- **Envelopes of unknown kinds between messages change nothing.**

Somewhere in a run of a node that aims at no number of peers, a peer is there of which nothing has
been read and which has not been put back, such as one that has just been taken over.  From there on
it sends messages, or these messages with envelopes of unknown kinds between them.  In whatever
portions either is read, and whatever was left to do before: if nobody else is heard and the sockets
do not fail, there comes a time when nothing is left to do, and then it has come to the same. -/
theorem unknown_transparent {config : ReactorConfig} {shared : Shared} {now : Nat}
    {stimuli : List Stimulus} (reached : (start config shared now).run stimuli = r)
    (aimless : config.target = 0) (there : r.table.get? id = some p)
    (nothing : p.session.inbound = []) (aside : id ∉ r.mux.pending) {items : List Envelope}
    {messages : List Message} (sendable : ∀ e ∈ items, e.IsItem)
    (small : ∀ e ∈ items, e.render.length ≤ maxMessageSize - readChunk)
    (known : items.filter (·.isKnown) = messages.map Message.envelope) :
    (∀ {sent unread : Bytes} {t : Reactor}, Solo id r sent t unread →
      ∃ s left, Solo id t unread s left ∧ AtRest id left s) ∧
    ∀ {s s' : Reactor} {left left' : Bytes},
      Solo id r (renderAll (messages.map Message.envelope)) s left →
      Solo id r (renderAll items) s' left' → AtRest id left s → AtRest id left' s' →
      SameEnd s s' := by
  refine ⟨fun course => (course.astir (astir_run reached aimless there)).exists_rest _, ?_⟩
  intro s s' left left' course course' rest rest'
  subst reached
  have consistent := kept_consistent.run (consistent_start config shared now) stimuli
  have same := config_run config shared now stimuli
  have balanced {t : Reactor} {unread left : Bytes}
      (course : Solo id ((start config shared now).run stimuli) unread t left) : t.Balanced := by
    obtain ⟨more, rfl⟩ := course.run
    exact kept_balanced.run (kept_balanced.run (balanced_start config shared now) stimuli) more
  have bounded : ∀ e ∈ items, e.render.length + readChunk ≤ maxMessageSize := fun e he =>
    (Nat.le_sub_iff_add_le (by decide)).1 (small e he)
  have unheard (sent : Bytes) : Unheard id sent sent ((start config shared now).run stimuli) := by
    refine ⟨consistent.accounted.entered id p there, aside, fun q found => ⟨?_, rfl⟩⟩
    rw [there] at found
    cases found
    exact nothing
  -- What was left to do comes first, in step; then the two runs part.
  obtain ⟨u, u', v, v', twins, next, next', idle, calm, fresh, fresh', later, later'⟩ :=
    course.calms course' (Twins.refl _) consistent consistent (same.symm ▸ aimless) (unheard _)
      (unheard _) rest.calm rest'.calm
  rw [← known] at fresh
  have alike := later.alike later' twins next next' idle calm fresh fresh'
    (fun e he => (sendable e he).isPlain) bounded rest rest'
  exact alike.sameEnd (balanced course) (balanced course') rest.commands rest'.commands

/-- A list of addresses is sent, alone and between two envelopes of an unknown kind.  Everything is
read at once in both cases, but the second run takes two turns more, and the round of dialing comes
after both envelopes. -/
theorem unknown_transparent_between :
    let odd : Envelope := ⟨9, .scalar .null⟩
    let message := Message.discovery ["10.0.0.1:9"]
    let items := [odd, message.envelope, odd]
    let idle : Means := ⟨0, .waiting [], [], []⟩
    let wake : Sight := ⟨0, 0, .none, [(⟨1⟩, .ok .read)]⟩
    let still : Sight := ⟨0, 0, .none, []⟩
    let r := (start default .empty 0).run [.turn ⟨0, 0, .connection ⟨3⟩ .elsewhere, []⟩ idle]
    let s := (r.turn wake { idle with incoming := .waiting (renderAll [message.envelope]) }).turn
      still idle
    let s' := (((r.turn wake { idle with incoming := .waiting (renderAll items) }).turn
      still idle).turn still idle).turn still idle
    SameEnd s s' ∧ s'.shared.pool.entries = ["10.0.0.1:9"] := by
  intro odd message items idle wake still r s s'
  have calm : Willing idle.writes := willing_nil
  have came : (r.table.get? ⟨1⟩).map (·.session.inbound) = some [] := by decide +kernel
  obtain ⟨p, there, nothing⟩ := Option.map_eq_some_iff.mp came
  have sendable : ∀ e ∈ items, e.IsItem := by
    have strange : odd.IsItem := .unknown rfl rfl
    intro e he
    simp only [items, List.mem_cons, List.not_mem_nil, or_false] at he
    rcases he with rfl | rfl | rfl
    · exact strange
    · exact .message _
    · exact strange
  have small : ∀ e ∈ items, e.render.length ≤ maxMessageSize - readChunk := by decide +kernel
  have first : ∃ left, Solo ⟨1⟩ r (renderAll ([message].map Message.envelope)) s left ∧
      AtRest ⟨1⟩ left s := by
    let means : Means := { idle with incoming := .waiting (renderAll [message.envelope]) }
    let t := r.turn wake means
    have reading : (r.wait wake).1 = some (.peer ⟨1⟩ .read) := by decide +kernel
    have dialing : (t.wait still).1 = some (.control (some .tryConnect)) := by decide +kernel
    exact ⟨_, .due wake means reading calm ⟨List.prefix_rfl, Or.inl rfl⟩
      (.due still idle dialing calm trivial (.rest s _)), by decide +kernel, by decide +kernel,
      Or.inr (by decide +kernel)⟩
  have second : ∃ left, Solo ⟨1⟩ r (renderAll items) s' left ∧ AtRest ⟨1⟩ left s' := by
    let means : Means := { idle with incoming := .waiting (renderAll items) }
    let t := r.turn wake means
    let t' := t.turn still idle
    let t'' := t'.turn still idle
    have reading : (r.wait wake).1 = some (.peer ⟨1⟩ .read) := by decide +kernel
    have again : (t.wait still).1 = some (.peer ⟨1⟩ .read) := by decide +kernel
    have again' : (t'.wait still).1 = some (.peer ⟨1⟩ .read) := by decide +kernel
    have dialing : (t''.wait still).1 = some (.control (some .tryConnect)) := by decide +kernel
    exact ⟨_, .due wake means reading calm ⟨List.prefix_rfl, Or.inl rfl⟩
      (.due still idle again calm ⟨List.nil_prefix, Or.inl rfl⟩
        (.due still idle again' calm ⟨List.nil_prefix, Or.inl rfl⟩
          (.due still idle dialing calm trivial (.rest s' _)))), by decide +kernel,
      by decide +kernel, Or.inr (by decide +kernel)⟩
  obtain ⟨left, course, rest⟩ := first
  obtain ⟨left', course', rest'⟩ := second
  have known : items.filter (·.isKnown) = [message].map Message.envelope := rfl
  obtain ⟨-, same⟩ :=
    unknown_transparent rfl rfl there nothing (by decide +kernel) sendable small known
  exact ⟨same course course' rest rest', by decide +kernel⟩

end Reactor

end GossipNode
