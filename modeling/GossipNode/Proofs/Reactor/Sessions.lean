import GossipNode.Proofs.Reactor.Consistency

/-!
# Sessions change by calls only

A peer is known from the turn it comes until the end of the run, for when it goes it goes on record.
Whatever a reactor does, the session of a peer changes by calls, one after the other, and nothing
else reaches it.

## Main definitions

* `Reactor.Known` — a peer that is there or has gone.
* `Reactor.Evolves` — every session known later comes from one known before, or begins afresh.

## Main results

* `Reactor.evolves_run` — **sessions change by calls only, throughout runs.**
-/

namespace GossipNode

namespace Reactor

/-- A peer that is there, or has gone and is on record as it was then. -/
def Known (r : Reactor) (id : PeerId) (p : Peer) : Prop :=
  r.table.get? id = some p ∨ (.retired p ∈ r.deeds ∧ p.id = id)

/-- Every peer known before is known later, and its session has changed by calls only; every session
known later comes from one known before or from the beginning. -/
structure Evolves (r s : Reactor) : Prop where
  onward : ∀ id p, r.Known id p → ∃ q calls, s.Known id q ∧ q.session = p.session.after calls
  origin : ∀ id q, s.Known id q → (∃ p calls, r.Known id p ∧ q.session = p.session.after calls) ∨
    ∃ calls, q.session = Session.start.after calls

variable {r s t : Reactor}

theorem Evolves.trans (h : Evolves r s) (h' : Evolves s t) : Evolves r t where
  onward id p hp := by
    obtain ⟨q, calls, hq, hcalls⟩ := h.onward id p hp
    obtain ⟨q', more, hq', hmore⟩ := h'.onward id q hq
    exact ⟨q', calls ++ more, hq', by rw [hmore, hcalls, Session.after_append]⟩
  origin id q hq := by
    rcases h'.origin id q hq with ⟨p, calls, hp, hcalls⟩ | fresh
    · rcases h.origin id p hp with ⟨p', early, hp', hearly⟩ | ⟨early, hearly⟩
      · exact Or.inl ⟨p', early ++ calls, hp', by rw [hcalls, hearly, Session.after_append]⟩
      · exact Or.inr ⟨early ++ calls, by rw [hcalls, hearly, Session.after_append]⟩
    · exact Or.inr fresh

/-- Nothing happens to sessions where the same peers are there and have gone. -/
theorem evolves_same (table : ∀ k, s.table.get? k = r.table.get? k)
    (retired : ∀ q, .retired q ∈ s.deeds ↔ .retired q ∈ r.deeds) : Evolves r s := by
  have known (id : PeerId) (p : Peer) : s.Known id p ↔ r.Known id p := by
    rw [Known, Known, table, retired]
  exact ⟨fun id p hp => ⟨p, [], (known id p).2 hp, rfl⟩,
    fun id q hq => Or.inl ⟨q, [], (known id q).1 hq, rfl⟩⟩

/-- One peer's session changes by a call. -/
theorem evolves_change {p : Peer} {c : Session.Call} (held : r.Holds p)
    (table : ∀ k, s.table.get? k = if p.id = k then some (p.perform c) else r.table.get? k)
    (retired : ∀ q, .retired q ∈ s.deeds ↔ .retired q ∈ r.deeds) : Evolves r s := by
  constructor
  · intro id q hq
    rcases hq with hq | ⟨gone, same⟩
    · by_cases same : p.id = id
      · have this_one : q = p := Option.some.inj (hq.symm.trans (same ▸ held))
        exact ⟨p.perform c, [c], Or.inl ((table id).trans (if_pos same)), this_one ▸ rfl⟩
      · exact ⟨q, [], Or.inl ((table id).trans ((if_neg same).trans hq)), rfl⟩
    · exact ⟨q, [], Or.inr ⟨(retired q).2 gone, same⟩, rfl⟩
  · intro id q hq
    rcases hq with hq | ⟨gone, same⟩
    · rw [table] at hq
      split at hq
      · next same =>
        cases hq
        exact Or.inl ⟨p, [c], Or.inl (same ▸ held), rfl⟩
      · exact Or.inl ⟨q, [], Or.inl hq, rfl⟩
    · exact Or.inl ⟨q, [], Or.inr ⟨(retired q).1 gone, same⟩, rfl⟩

theorem evolves_perform {p : Peer} (held : r.Holds p) (c : Session.Call) :
    Evolves r (r.perform p c) :=
  evolves_change held (get?_perform r p c) fun _ => retired_quiet Peer.record_quiet

theorem evolves_note {d : Deed} (quiet : d.isTurnover = false) : Evolves r (r.note d) :=
  evolves_same (fun _ => rfl) fun _ => retired_note quiet

/-- A peer that goes is closed. -/
theorem evolves_close {p : Peer} (held : r.Holds p) : Evolves r (r.closePeer p.id) := by
  constructor
  · intro id q hq
    rcases hq with hq | ⟨gone, same⟩
    · by_cases same : p.id = id
      · have this_one : q = p := Option.some.inj (hq.symm.trans (same ▸ held))
        exact ⟨p.perform .markClosed, [.markClosed],
          Or.inr ⟨(retired_closePeer held).2 (Or.inl rfl), same⟩, this_one ▸ rfl⟩
      · exact ⟨q, [], Or.inl ((get?_closePeer r p.id id).trans ((if_neg same).trans hq)), rfl⟩
    · exact ⟨q, [], Or.inr ⟨(retired_closePeer held).2 (Or.inr gone), same⟩, rfl⟩
  · intro id q hq
    rcases hq with hq | ⟨gone, same⟩
    · rw [get?_closePeer] at hq
      split at hq
      · cases hq
      · exact Or.inl ⟨q, [], Or.inl hq, rfl⟩
    · rcases (retired_closePeer held).1 gone with rfl | gone
      · exact Or.inl ⟨p, [.markClosed], Or.inl (same ▸ held), rfl⟩
      · exact Or.inl ⟨q, [], Or.inr ⟨gone, same⟩, rfl⟩

/-- A connection that is taken over begins afresh. -/
theorem evolves_insert (h : r.Consistent) (socket : SocketId) (remote : SocketAddress)
    (direction : Direction) (dialed : Option String) (now : Nat) :
    Evolves r (r.insertPeer socket remote direction dialed now) := by
  have retired (q : Peer) :
      .retired q ∈ (r.insertPeer socket remote direction dialed now).deeds ↔
        .retired q ∈ r.deeds := by
    rw [deeds_insertPeer]
    simp
  constructor
  · intro id q hq
    rcases hq with hq | ⟨gone, same⟩
    · have other : r.nextId ≠ id := fun same => Nat.lt_irrefl _ (same ▸ h.numbered hq)
      exact ⟨q, [], Or.inl (by rw [get?_insertPeer, if_neg other, hq]), rfl⟩
    · exact ⟨q, [], Or.inr ⟨(retired q).2 gone, same⟩, rfl⟩
  · intro id q hq
    rcases hq with hq | ⟨gone, same⟩
    · rw [get?_insertPeer] at hq
      split at hq
      · -- The session on the new connection has seen no call yet.
        cases hq
        exact Or.inr ⟨[], rfl⟩
      · exact Or.inl ⟨q, [], Or.inl hq, rfl⟩
    · exact Or.inl ⟨q, [], Or.inr ⟨(retired q).1 gone, same⟩, rfl⟩

/-- At the end of a run every peer that is there is closed. -/
theorem evolves_teardown (h : r.Consistent) : Evolves r r.teardown := by
  constructor
  · intro id q hq
    rcases hq with hq | ⟨gone, same⟩
    · exact ⟨q.perform .markClosed, [.markClosed],
        Or.inr ⟨retired_teardown.2 (Or.inl ⟨id, q, hq, rfl⟩), h.keyed id q hq⟩, rfl⟩
    · exact ⟨q, [], Or.inr ⟨retired_teardown.2 (Or.inr gone), same⟩, rfl⟩
  · intro id q hq
    rcases hq with hq | ⟨gone, same⟩
    · cases hq
    · rcases retired_teardown.1 gone with ⟨k, p, there, rfl⟩ | gone
      · have key : k = id := (h.keyed k p there).symm.trans same
        exact Or.inl ⟨p, [.markClosed], Or.inl (key ▸ there), rfl⟩
      · exact Or.inl ⟨q, [], Or.inr ⟨gone, same⟩, rfl⟩

theorem evolves_idle (h : Idle r s) : Evolves r s := by
  obtain ⟨new, hnew, quiet⟩ := h.quiet
  refine evolves_same (fun k => by rw [h.table]) fun q => ?_
  rw [hnew]
  exact retired_quiet quiet

theorem evolves_move (h : r.Consistent) {id : PeerId} (move : Move r (some id) s) :
    Evolves r s := by
  cases move with
  | stray unknown => exact evolves_same (fun _ => rfl) fun _ => Iff.rfl
  | call held traffic => exact evolves_perform held _
  | pass held known => exact evolves_note rfl
  | @welcome p e info held introduced admitted new =>
    have quiet : ∀ d ∈ [Deed.notified (.peerWelcome p.id) r.shared.listeners.audience,
        .dispatched p.id e], d.isTurnover = false := by simp [Deed.isTurnover]
    exact evolves_change (c := .markReady info) held (get?_put _ (p.perform (.markReady info)))
      fun _ => retired_quiet quiet
  | @refuse p e info held introduced strange writes =>
    have noted : Evolves r (r.note (.dispatched p.id e)) := evolves_note rfl
    rcases onPeerInfo_strange (r := r.note (.dispatched p.id e)) strange p writes with
      ⟨m, refused⟩ | refused
    · rw [refused]
      exact noted.trans ((evolves_perform (r := r.note (.dispatched p.id e)) held
        (.send m writes)).trans (evolves_close (p := p.perform _) (holds_perform _ _ _)))
    · rw [refused]
      exact noted.trans (evolves_close (r := r.note (.dispatched p.id e)) held)
  | close held => exact evolves_close held
  | requeue id => exact evolves_same (fun _ => rfl) fun _ => Iff.rfl
  | insert socket remote direction dialed now =>
    exact evolves_insert h socket remote direction dialed now

theorem kept_evolves (r : Reactor) : Kept fun s => s.Consistent ∧ Evolves r s where
  keyed h := h.1.keyed
  wait sight h := ⟨h.1.wait sight, h.2.trans (evolves_same (fun _ => rfl) fun _ => Iff.rfl)⟩
  move h running move := ⟨h.1.move running move, h.2.trans (evolves_move h.1 move)⟩
  teardown h := ⟨h.1.teardown, h.2.trans (evolves_teardown h.1)⟩
  idle h idle := ⟨h.1.idle idle, h.2.trans (evolves_idle idle)⟩

/-- **Sessions change by calls only, throughout runs.** -/
theorem evolves_run (h : r.Consistent) (stimuli : List Stimulus) : Evolves r (r.run stimuli) :=
  ((kept_evolves r).run ⟨h, evolves_same (fun _ => rfl) fun _ => Iff.rfl⟩ stimuli).2

end Reactor

end GossipNode
