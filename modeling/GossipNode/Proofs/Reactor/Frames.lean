import GossipNode.Proofs.Reactor.Consistency

/-!
# Peers that are left alone

What is done on behalf of one peer leaves every other peer as it is: its entry in the table, whether
it was put back, and what is on record about it.

## Main definitions

* `Reactor.Spares` — a peer is left as it is.

## Main results

* `Reactor.Moves.spares` — **moves on behalf of others leave a peer as it is.**
* `Reactor.wait_pending` — a peer that was put back stays so until it is served.
-/

namespace GossipNode

theorem Peer.record_about {p : Peer} {c : Session.Call} : ∀ d ∈ p.record c,
    d.about = some p.id := by
  intro d hd
  cases c <;> simp only [record, List.mem_cons, List.not_mem_nil, or_false] at hd
  · rcases hd with rfl | rfl <;> rfl
  · rw [hd]; rfl
  · rw [hd]; rfl

namespace Reactor

/-- A peer is left as it is: what the table holds of it, whether it was put back, and the record. -/
structure Spares (k : PeerId) (r s : Reactor) : Prop where
  entry : s.table.get? k = r.table.get? k
  pending : k ∈ s.mux.pending ↔ k ∈ r.mux.pending
  deeds : ∃ new, s.deeds = new ++ r.deeds ∧ ∀ d ∈ new, d.about ≠ some k

variable {k : PeerId} {r s t : Reactor}

theorem Spares.refl (k : PeerId) (r : Reactor) : Spares k r r :=
  ⟨rfl, Iff.rfl, [], rfl, fun _ h => absurd h List.not_mem_nil⟩

theorem Spares.trans (h : Spares k r s) (h' : Spares k s t) : Spares k r t := by
  obtain ⟨new, hnew, about⟩ := h.deeds
  obtain ⟨new', hnew', about'⟩ := h'.deeds
  refine ⟨h'.entry.trans h.entry, h'.pending.trans h.pending, new' ++ new, ?_, fun d hd => ?_⟩
  · rw [hnew', hnew, List.append_assoc]
  · exact (List.mem_append.1 hd).elim (about' d) (about d)

theorem spares_note {d : Deed} (h : d.about ≠ some k) : Spares k r (r.note d) :=
  ⟨rfl, Iff.rfl, [d], rfl, fun _ hd => List.mem_singleton.1 hd ▸ h⟩

theorem spares_perform {p : Peer} (other : p.id ≠ k) (c : Session.Call) :
    Spares k r (r.perform p c) := by
  refine ⟨(get?_perform r p c k).trans (if_neg other), Iff.rfl, p.record c, rfl, fun d hd => ?_⟩
  rw [Peer.record_about d hd]
  exact fun same => other (Option.some.inj same)

theorem spares_close {p : Peer} (held : r.Holds p) (other : p.id ≠ k) :
    Spares k r (r.closePeer p.id) := by
  refine ⟨(get?_closePeer r p.id k).trans (if_neg other), ?_,
    [.notified (.peerClose p.id) _, .retired (p.perform .markClosed)], deeds_closePeer held,
    fun d hd same => ?_⟩
  · rw [mux_closePeer, Multiplexer.mem_deregister]
    exact and_iff_left (Ne.symm other)
  · rcases List.mem_cons.1 hd with rfl | hd
    · exact other (Option.some.inj same)
    · rw [List.mem_singleton.1 hd] at same
      exact other (Option.some.inj same)

theorem Idle.spares (h : Idle r s) (k : PeerId) : Spares k r s := by
  obtain ⟨new, hnew, about⟩ := h.deeds
  refine ⟨by rw [h.table], by rw [h.pending], new, hnew, fun d hd => ?_⟩
  rw [about d hd]
  exact fun impossible => by cases impossible

/-- A move on behalf of another peer leaves a peer as it is. -/
theorem Move.spares {id : PeerId} (move : Move r (some id) s) (other : id ≠ k) :
    Spares k r s := by
  cases move with
  | stray unknown =>
    refine ⟨rfl, ?_, [], rfl, fun _ h => absurd h List.not_mem_nil⟩
    rw [Multiplexer.mem_deregister]
    exact and_iff_left (Ne.symm other)
  | call held traffic => exact spares_perform other _
  | pass held known => exact spares_note fun same => other (Option.some.inj same)
  | @welcome p e info held introduced admitted new =>
    have noted : Spares k r (r.note (.dispatched p.id e)) :=
      spares_note fun same => other (Option.some.inj same)
    have marked : Spares k (r.note (.dispatched p.id e))
        ((r.note (.dispatched p.id e)).perform p (.markReady info)) := spares_perform other _
    refine noted.trans (marked.trans ?_)
    refine ⟨rfl, Iff.rfl, [.notified (.peerWelcome p.id) _], rfl, fun d hd same => ?_⟩
    rw [List.mem_singleton.1 hd] at same
    exact other (Option.some.inj same)
  | @refuse p e info held introduced strange writes =>
    have noted : Spares k r (r.note (.dispatched p.id e)) :=
      spares_note fun same => other (Option.some.inj same)
    rcases onPeerInfo_strange (r := r.note (.dispatched p.id e)) strange p writes with
      ⟨m, refused⟩ | refused
    · rw [refused]
      exact noted.trans ((spares_perform other _).trans
        (spares_close (p := p.perform _) (holds_perform _ _ _) other))
    · rw [refused]
      exact noted.trans (spares_close (r := r.note (.dispatched p.id e)) held other)
  | close held => exact spares_close held other
  | requeue id =>
    refine ⟨rfl, ?_, [], rfl, fun _ h => absurd h List.not_mem_nil⟩
    rw [Multiplexer.mem_requeue]
    exact or_iff_left fun same => other same.1.symm
  | insert socket remote direction dialed now =>
    refine ⟨(get?_insertPeer r ..).trans (if_neg other), by rw [mux_insertPeer]; exact Iff.rfl,
      [_], deeds_insertPeer r .., fun d hd same => ?_⟩
    rw [List.mem_singleton.1 hd] at same
    exact other (Option.some.inj same)

/-- **Moves on behalf of others leave a peer as it is.** -/
theorem Moves.spares {who : PeerId → Prop} (moves : Moves who r s) (other : ¬ who k) :
    Spares k r s := by
  induction moves with
  | refl => exact Spares.refl k r
  | @step _ _ id? _ last allowed ih =>
    cases id? with
    | none => exact ih.trans (last.idle.spares k)
    | some id => exact ih.trans (last.spares fun same => other (same ▸ allowed id rfl))

/-- A peer that was put back stays so until it is served. -/
theorem wait_pending (sight : Sight) (watched : r.mux.isRegistered k = true)
    (waiting : k ∈ r.mux.pending) :
    k ∈ (r.wait sight).2.mux.pending ∨ (r.wait sight).1 = some (.peer k .read) := by
  rcases r.mux.wait_cases r.queue r.owes sight with
    ⟨skipped, id, rest, hpending, none_skipped, -, hwait⟩ | ⟨none_left, -⟩
  · rw [hpending] at waiting
    rcases List.mem_append.1 waiting with early | late
    · rw [none_skipped k early] at watched
      cases watched
    · rcases List.mem_cons.1 late with rfl | late
      · exact Or.inr (congrArg (fun out => out.1) hwait)
      · refine Or.inl ?_
        rw [show (r.wait sight).2.mux = _ from congrArg (fun out => out.2.1) hwait]
        exact late
  · rw [none_left k waiting] at watched
    cases watched

end Reactor

end GossipNode
