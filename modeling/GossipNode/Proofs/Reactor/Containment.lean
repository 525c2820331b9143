import GossipNode.Proofs.Reactor.Frames
import GossipNode.Proofs.Reactor.Gossip
import GossipNode.Proofs.Reactor.Sole

/-!
# Trouble with one peer

Whatever goes wrong with a peer goes wrong with that peer alone.  It may send bytes that are no
envelope, or too many of them, it may come to its end, its socket may fail, the node may introduce
itself to it or take leave of it: all other peers stand where they stood, with the same bytes to
decode and to send and in the same order among those that were put back, and the node goes on.

## Main definitions

* `Wakeup.behalf?` — the peer on whose behalf something is served.
* `Multiplexer.WatchesOthers` — of all but one peer the same is watched, in the same order.
* `Reactor.Contained` — everybody but one peer is left alone.

## Main results

* `Reactor.Moves.contained` — moves on behalf of a peer are contained in it.
* `Reactor.wait_contained` — so is waiting, when a peer is served next.
* `Reactor.failures_contained` — **whatever is done on behalf of a peer is contained in it**, and
  the pool grows by the addresses it passes on, if it does.
-/

namespace GossipNode

/-- The peer on whose behalf something is served: it is served itself, the node introduces itself to
it, or takes leave of it. -/
def Wakeup.behalf? : Wakeup → Option PeerId
  | .peer id _ | .control (some (.sendHandshake id)) | .control (some (.closePeer id)) => some id
  | _ => none

/-! ### What is watched of the others -/

namespace Multiplexer

/-- Of all but one peer the same sockets are watched, and those of them that were put back keep
their order. -/
structure WatchesOthers (id : PeerId) (m n : Multiplexer) : Prop where
  sockets : ∀ k, k ≠ id → n.sockets.get? k = m.sockets.get? k
  order : n.pending.filter (· ≠ id) = m.pending.filter (· ≠ id)

theorem WatchesOthers.refl (id : PeerId) (m : Multiplexer) : WatchesOthers id m m :=
  ⟨fun _ _ => rfl, rfl⟩

theorem WatchesOthers.trans {id : PeerId} {m n o : Multiplexer} (h : WatchesOthers id m n)
    (h' : WatchesOthers id n o) : WatchesOthers id m o :=
  ⟨fun k other => (h'.sockets k other).trans (h.sockets k other), h'.order.trans h.order⟩

theorem watchesOthers_deregister (id : PeerId) (m : Multiplexer) :
    WatchesOthers id m (m.deregister id) := by
  refine ⟨fun k other => ?_, ?_⟩
  · rw [sockets_deregister, IdMap.get?_erase, if_neg (Ne.symm other)]
  · rw [deregister, List.filter_filter]
    simp

theorem watchesOthers_requeue (id : PeerId) (m : Multiplexer) :
    WatchesOthers id m (m.requeue id) := by
  refine ⟨fun k _ => by rw [sockets_requeue], ?_⟩
  unfold requeue
  split
  · simp
  · rfl

end Multiplexer

namespace Reactor

open Multiplexer (WatchesOthers watchesOthers_deregister watchesOthers_requeue)

variable {id : PeerId} {r s t : Reactor} {sight : Sight} {means : Means} {w : Wakeup}

/-- Everybody but one peer is left alone, and the node goes on. -/
structure Contained (id : PeerId) (r s : Reactor) : Prop where
  /-- What the table holds of the others, whether they were put back, and what is on record. -/
  spares : ∀ k, k ≠ id → Spares k r s
  watches : WatchesOthers id r.mux s.mux
  /-- The next connection has the number that it had. -/
  nextId : s.nextId = r.nextId
  running : s.running = r.running

theorem Contained.refl (id : PeerId) (r : Reactor) : Contained id r r :=
  ⟨fun k _ => Spares.refl k r, .refl id r.mux, rfl, rfl⟩

theorem Contained.trans (h : Contained id r s) (h' : Contained id s t) : Contained id r t where
  spares k other := (h.spares k other).trans (h'.spares k other)
  watches := h.watches.trans h'.watches
  nextId := h'.nextId.trans h.nextId
  running := h'.running.trans h.running

theorem Idle.contained (h : Idle r s) (id : PeerId) : Contained id r s where
  spares k _ := h.spares k
  watches := ⟨fun k _ => by rw [h.sockets], by rw [h.pending]⟩
  nextId := h.nextId
  running := h.running

/-! ### Moves -/

/-- A move on behalf of a peer watches or forgets that peer alone. -/
theorem Move.watches (move : Move r (some id) s) (old : id ≠ r.nextId) :
    WatchesOthers id r.mux s.mux := by
  cases move with
  | stray unknown => exact watchesOthers_deregister id r.mux
  | close held =>
    rw [mux_closePeer]
    exact watchesOthers_deregister _ r.mux
  | call held traffic => exact .refl _ r.mux
  | pass held known => exact .refl _ r.mux
  | welcome held introduced admitted new => exact .refl _ r.mux
  | @refuse p e info held introduced strange writes =>
    rcases onPeerInfo_strange (r := r.note (.dispatched p.id e)) strange p writes with
      ⟨m, refused⟩ | refused
    · rw [refused, mux_closePeer]
      exact watchesOthers_deregister p.id r.mux
    · rw [refused, mux_closePeer]
      exact watchesOthers_deregister p.id r.mux
  | requeue id => exact watchesOthers_requeue id r.mux
  | insert socket remote direction dialed now => exact absurd rfl old

/-- **Moves on behalf of a peer are contained in it**, unless it has only just come. -/
theorem Moves.contained (moves : Moves (· = id) r s) (old : id ≠ r.nextId) :
    Contained id r s := by
  -- A move on nobody's behalf leaves all connections alone.
  induction moves with
  | refl => exact Contained.refl id r
  | @step s t id? earlier last allowed ih =>
    refine ih.trans ?_
    cases id? with
    | none => exact last.idle.contained id
    | some k =>
      have same := allowed k rfl
      subst same
      have old' : k ≠ s.nextId := ih.nextId ▸ old
      have joined := last.joined.resolve_right fun new => old' new.1
      exact ⟨fun i other => last.spares (Ne.symm other), last.watches old', joined.1, last.keeps.1⟩

/-! ### Turns -/

/-- When a peer is to be served next, all others that were put back go on waiting. -/
theorem wait_contained (h : r.Consistent) (due : (r.wait sight).1 = some w)
    (behalf : w.behalf? = some id) : Contained id r (r.wait sight).2 := by
  obtain ⟨sockets, -, -⟩ := r.mux.wait_spec r.queue r.owes sight
  have order : (r.wait sight).2.mux.pending.filter (· ≠ id) =
      r.mux.pending.filter (· ≠ id) := by
    rcases r.mux.wait_cases r.queue r.owes sight with
      ⟨skipped, k, rest, pending, unwatched, -, waited⟩ | ⟨none_left, -, cleared, -⟩
    · -- The first one that was put back is served, and nobody is skipped.
      have first : (r.wait sight).1 = some (.peer k .read) := congrArg (fun out => out.1) waited
      have left : (r.wait sight).2.mux.pending = rest :=
        congrArg (fun out => out.2.1.pending) waited
      rw [due] at first
      cases first
      cases behalf
      cases skipped with
      | nil =>
        rw [left, pending]
        simp
      | cons i skipped =>
        have watched := h.pending_watched i (pending ▸ List.mem_cons_self)
        rw [unwatched i List.mem_cons_self] at watched
        cases watched
    · have nobody : r.mux.pending = [] := by
        refine List.eq_nil_iff_forall_not_mem.2 fun i waiting => ?_
        have watched := h.pending_watched i waiting
        rw [none_left i waiting] at watched
        cases watched
      rw [nobody]
      exact congrArg (List.filter _) cleared
  refine ⟨fun k other => ⟨rfl, ?_, [], rfl, List.forall_mem_nil _⟩, ⟨fun k _ => ?_, order⟩, rfl,
    rfl⟩
  · have same := congrArg (k ∈ ·) order
    simpa [other] using same
  · exact congrArg (·.get? k) sockets

/-- What is served on behalf of a peer is served by moves on its behalf, and is neither the end of
the run nor a round of dialing. -/
theorem behalf_spec (behalf : w.behalf? = some id) (r : Reactor) (means : Means) :
    w.ends = false ∧ r.concerns means w = (· = id) ∧ w ≠ .control (some .tryConnect) := by
  unfold Wakeup.behalf? at behalf
  split at behalf
  · cases behalf
    exact ⟨rfl, rfl, fun impossible => by cases impossible⟩
  · cases behalf
    exact ⟨rfl, rfl, fun impossible => by cases impossible⟩
  · cases behalf
    exact ⟨rfl, rfl, fun impossible => by cases impossible⟩
  · cases behalf

/-- To introduce oneself to nobody, or to take leave of nobody, is to do nothing. -/
theorem handle_nobody {c : Command} (behalf : (Wakeup.control (some c)).behalf? = some id)
    (nobody : r.table.get? id = none) (means : Means) :
    r.handle (.control (some c)) means = r := by
  cases c with
  | sendHandshake k =>
    cases behalf
    exact greet_unknown nobody means.writes
  | closePeer k =>
    cases behalf
    exact dismiss_unknown nobody means.writes
  | shutdown => cases behalf
  | tryConnect => cases behalf
  | adopt socket remote dialed => cases behalf

/-- Whatever is served on behalf of a peer is contained in it. -/
theorem handle_contained (h : r.Consistent) (behalf : w.behalf? = some id) (means : Means) :
    Contained id r (r.handle w means) := by
  obtain ⟨goes_on, concerned, -⟩ := behalf_spec behalf r means
  cases there : r.table.get? id with
  | some p =>
    have moves := handle_moves h.keyed goes_on means
    rw [concerned] at moves
    have old : id ≠ r.nextId := fun same => Nat.lt_irrefl _ (same ▸ h.numbered there)
    exact moves.contained old
  | none =>
    cases w with
    | peer k ready =>
      cases behalf
      rw [handle, serve_unknown there]
      exact ⟨fun i other => (Move.stray there).spares (Ne.symm other),
        watchesOthers_deregister id r.mux, rfl, rfl⟩
    | control command =>
      cases command with
      | none => cases behalf
      | some c =>
        rw [handle_nobody behalf there]
        exact Contained.refl id r
    | _ => cases behalf

/-- **Whatever is done on behalf of a peer is contained in it.**  The peer is served, with whatever
bytes have come from it or not and whatever its socket makes of output, or the node introduces
itself to it, or takes leave of it.  All others stand where they stood, the next connection has the
number that it had, and the node goes on.  The pool stays as it is unless an envelope is acted upon
that passes addresses on, and then these are added at its end.  To introduce oneself to nobody, or
to take leave of nobody, is to do nothing. -/
theorem failures_contained (config : ReactorConfig) (shared : Shared) (now : Nat)
    (stimuli : List Stimulus) (sight : Sight) (means : Means) (w : Wakeup) (id : PeerId) :
    let r := (start config shared now).run stimuli
    let s := r.turn sight means
    r.running = true → (r.wait sight).1 = some w → w.behalf? = some id →
      Contained id r s ∧ s.running = true ∧
        ((acts s.deeds = acts r.deeds ∧ s.shared.pool = r.shared.pool) ∨
          ∃ e, acts s.deeds = acts r.deeds ++ [(id, e)] ∧
            s.shared.pool = r.shared.pool.extend e.addresses) ∧
        ∀ c, w = .control (some c) → r.table.get? id = none → s = (r.wait sight).2 := by
  intro r s running due behalf
  have h : r.Consistent := kept_consistent.run (consistent_start config shared now) stimuli
  have served : s = (r.wait sight).2.handle w means := turn_eq running due means
  have contained : Contained id r s := by
    rw [served]
    exact (wait_contained h due behalf).trans (handle_contained (h.wait sight) behalf means)
  refine ⟨contained, contained.running.trans running, ?_, ?_⟩
  · have no_round : ¬ (r.running = true ∧ (r.wait sight).1 = some (.control (some .tryConnect))) :=
      fun round => (behalf_spec behalf r means).2.2 (Option.some.inj (due.symm.trans round.2))
    rcases turn_gathers h no_round means with quiet | ⟨p, e, -, acted⟩
    · refine Or.inl ⟨quiet.acts.trans (List.append_nil _), quiet.pool.trans ?_⟩
      exact AddressPool.extend_nil _
    · -- Nothing of anybody else is acted upon.
      have same : p.id = id := by
        refine Classical.not_not.1 fun other => ?_
        have spared := (contained.spares p.id other).fed.dispatched
        rw [dispatchedTo_of_acts acted.acts] at spared
        exact absurd (List.append_cancel_left spared) (List.cons_ne_nil e [])
      rw [← same]
      exact Or.inr ⟨e, acted.acts, acted.pool.trans (by rw [List.flatMap_singleton])⟩
  · rintro c rfl nobody
    rw [served]
    exact handle_nobody (r := (r.wait sight).2) behalf nobody means

/-- Two connections come, and the first one sends what is no envelope: it is let go, and the other
one is still there. -/
theorem failures_contained_malformed :
    let idle : Means := ⟨0, .waiting [], [], []⟩
    let coming (n : Nat) : Stimulus := .turn ⟨0, 0, .connection ⟨n⟩ .elsewhere, []⟩ idle
    let readable : Sight := ⟨0, 0, .none, [(⟨1⟩, .ok .read)]⟩
    let r := (start default .empty 0).run [coming 3, coming 4]
    let s := r.turn readable { idle with incoming := .waiting [0x78] }
    r.running = true ∧ (r.wait readable).1 = some (.peer ⟨1⟩ .read) ∧ Contained ⟨1⟩ r s ∧
      (s.table.get? ⟨1⟩).isNone ∧ s.table.get? ⟨2⟩ = r.table.get? ⟨2⟩ ∧
      (s.table.get? ⟨2⟩).isSome := by
  intro idle coming readable r s
  have running : r.running = true := by decide +kernel
  have due : (r.wait readable).1 = some (.peer ⟨1⟩ .read) := by decide +kernel
  have contained : Contained ⟨1⟩ r s :=
    (failures_contained default .empty 0 [coming 3, coming 4] readable _ _ ⟨1⟩ running due rfl).1
  exact ⟨running, due, contained, by decide +kernel, (contained.spares ⟨2⟩ (by decide)).entry,
    by decide +kernel⟩

end Reactor

end GossipNode
