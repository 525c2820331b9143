import GossipNode.Proofs.Reactor.Connections
import GossipNode.Proofs.Reactor.Handling

/-!
# Nothing that has been read waits for more

A socket that has been read reports nothing further until more bytes arrive.  An envelope that has
been read and not acted upon would therefore wait for bytes that may never come, and so would bytes
that are no envelope at all.  It is the peers that were put back that keep this from happening:
between turns, every peer of which more has been read than the beginning of an envelope is among
them, whatever arrives in whatever portions.

## Main definitions

* `Reactor.Prompt` — what has been read on a connection does not wait for more.

## Main results

* `Reactor.prompt_digest` — whatever has been read, acting upon its first envelope leaves nothing
  that waits.
* `Reactor.Prompt.attends` — nothing that may happen to a connection makes it wait.
* `Reactor.never_stalls` — **a peer of which more than the beginning of an envelope has been read
  has been put back**, throughout runs.
-/

namespace GossipNode

namespace Reactor

/-- What has been read on a connection and not decoded is the beginning of an envelope, or the peer
has been put back. -/
def Prompt (k : PeerId) (r : Reactor) : Prop :=
  ∀ p, r.table.get? k = some p → decodeOne p.session.inbound = .ok none ∨ k ∈ r.mux.pending

variable {k : PeerId} {r s : Reactor} {p : Peer}

theorem prompt_gone (gone : r.table.get? k = none) : Prompt k r := by
  intro p hp
  rw [gone] at hp
  cases hp

theorem Prompt.untouched (h : Prompt k r) (untouched : Untouched k r s) : Prompt k s := by
  intro p hp
  rw [untouched.entry] at hp
  exact (h p hp).imp_right untouched.pending.2

/-- Output makes nothing wait. -/
theorem Prompt.perform (h : Prompt p.id r) (held : r.Holds p) {c : Session.Call}
    (inbound : (p.session.perform c).inbound = p.session.inbound) :
    Prompt p.id (r.perform p c) := by
  intro q hq
  rw [get?_perform, if_pos rfl] at hq
  cases hq
  show decodeOne (p.session.perform c).inbound = .ok none ∨ p.id ∈ r.mux.pending
  rw [inbound]
  exact h p held

/-- Waiting for something else makes nothing wait that did not. -/
theorem Prompt.wait (h : Prompt k r) (consistent : r.Consistent) {sight : Sight}
    (other : (r.wait sight).1 ≠ some (.peer k .read)) : Prompt k (r.wait sight).2 := by
  intro p hp
  refine (h p hp).imp_right fun waiting => ?_
  exact (wait_pending sight (consistent.pending_watched k waiting) waiting).resolve_right other

/-! ### Input -/

/-- A peer with bytes left to decode is put back. -/
theorem prompt_requeueBuffered (h : r.Consistent) (k : PeerId) :
    Prompt k (r.requeueBuffered k) := by
  intro p hp
  unfold requeueBuffered at hp ⊢
  cases there : r.table.get? k with
  | none =>
    rw [there] at hp
    simp only at hp
    rw [there] at hp
    cases hp
  | some q =>
    rw [there] at hp
    simp only at hp ⊢
    have watched := (h.isRegistered_iff k).2 ⟨q, there⟩
    by_cases nothing : q.session.inbound = []
    · have done : ¬ (r.mux.isRegistered k = true ∧ q.session.hasBufferedInput = true) := by
        rw [Session.hasBufferedInput, nothing]
        exact fun both => by cases both.2
      rw [if_neg done, there] at hp
      cases hp
      rw [nothing]
      exact Or.inl rfl
    · have more : r.mux.isRegistered k = true ∧ q.session.hasBufferedInput = true := by
        refine ⟨watched, ?_⟩
        rwa [Session.hasBufferedInput, Bool.not_eq_true', List.isEmpty_eq_false_iff]
      rw [if_pos more]
      exact Or.inr (Multiplexer.mem_requeue.2 (Or.inr ⟨rfl, watched⟩))

theorem Consistent.running (h : r.Consistent) (there : r.table.get? k = some p) :
    r.running = true := by
  cases running : r.running with
  | true => rfl
  | false =>
    rw [h.ended running k] at there
    cases there

/-- **Whatever has been read, acting upon its first envelope leaves nothing that waits.** -/
theorem prompt_digest (h : r.Consistent) (held : r.Holds p) (writes : List WriteOutcome) :
    Prompt p.id (r.digest p writes) := by
  have taken := h.perform (c := .nextEnvelope) held rfl
  have held' := holds_perform r p .nextEnvelope
  rcases digest_cases r p writes with ⟨e, acted⟩ | ⟨short, same, left⟩ | closed
  · have moves := dispatch_moves held' e writes
    rw [acted]
    exact prompt_requeueBuffered (kept_consistent.moves taken (taken.running held') moves) p.id
  · -- The beginning of an envelope is all there is.
    rw [left]
    intro q hq
    rw [get?_perform, if_pos rfl, same] at hq
    cases hq
    exact Or.inl short
  · rw [closed]
    exact prompt_gone (nobody_closePeer _ p.id)

theorem prompt_takeInput (h : r.Consistent) (held : r.Holds p) (incoming : Incoming)
    (writes : List WriteOutcome) : Prompt p.id (r.takeInput p incoming writes) := by
  rcases takeInput_cases r p incoming writes with digested | closed | digested
  · rw [digested]
    exact prompt_digest h held writes
  · rw [closed]
    exact prompt_gone (nobody_closePeer _ p.id)
  · rw [digested]
    exact prompt_digest (h.perform (c := .fill incoming) held rfl)
      (holds_perform r p (.fill incoming)) writes

/-- Nothing waits once a peer has been served, if it was served for input or nothing waited
before. -/
theorem prompt_serve (h : r.Consistent) (held : r.Holds p) {ready : Readiness}
    (due : ready.readable = true ∨ Prompt p.id r) (means : Means) :
    Prompt p.id (r.serve p.id ready means) := by
  obtain ⟨s, q, writes, offered, -, served⟩ := serve_cases held ready means
  have after : s.Consistent ∧ s.Holds q ∧ q.id = p.id ∧ (Prompt p.id r → Prompt p.id s) := by
    rcases offered with ⟨rfl, rfl⟩ | ⟨rfl, rfl⟩
    · exact ⟨h, held, rfl, id⟩
    · exact ⟨h.perform held rfl, holds_perform r p _, rfl, fun before => before.perform held rfl⟩
  obtain ⟨consistent, held', same, before⟩ := after
  rcases served with closed | ⟨silent, left⟩ | input
  · rw [closed, ← same]
    exact prompt_gone (nobody_closePeer s q.id)
  · rw [left]
    rcases due with readable | prompt
    · rw [silent] at readable
      cases readable
    · exact before prompt
  · rw [input, ← same]
    exact prompt_takeInput consistent held' means.incoming writes

/-! ### Runs -/

/-- **Nothing that may happen to a connection makes it wait.** -/
theorem Prompt.attends {means : Means} (h : Prompt k r) (consistent : r.Consistent)
    (attends : Attends k r means s) : Prompt k s := by
  cases attends with
  | untouched quiet => exact h.untouched quiet
  | comes sight socket remote direction dialed fresh began =>
    intro p hp
    have new : (r.wait sight).2.nextId = k := fresh
    rw [get?_insertPeer, if_pos new] at hp
    cases hp
    exact Or.inl rfl
  | @greeted sight p there due =>
    have same := consistent.keyed k p there
    subst same
    have waited : Prompt p.id (r.wait sight).2 := h.wait consistent fun busy => by
      rw [due] at busy
      cases busy
    rcases greet_cases (r := (r.wait sight).2) there means.writes with told | closed
    · rw [told]
      exact waited.perform there (Session.inbound_send _ _ _)
    · rw [closed]
      exact prompt_gone (nobody_closePeer _ p.id)
  | @served sight p ready there due =>
    have same := consistent.keyed k p there
    subst same
    refine prompt_serve (consistent.wait sight) there ?_ means
    by_cases putBack : ready = .read
    · exact Or.inl (putBack ▸ rfl)
    · refine Or.inr (h.wait consistent fun busy => putBack ?_)
      rw [due] at busy
      cases busy
      rfl
  | @dismissed t p before consistent' there =>
    have same := consistent'.keyed k p there
    subst same
    rw [dismiss_eq there]
    exact prompt_gone (nobody_closePeer _ p.id)
  | expired before consistent' there after =>
    exact (prompt_gone (nobody_closePeer _ k)).untouched after
  | ended sight there => exact prompt_gone rfl

/-- **A peer of which more than the beginning of an envelope has been read has been put back**,
throughout runs.  It does not wait for its socket: as long as anybody has been put back, the next
turn serves one of those, whatever is seen of the outside. -/
theorem never_stalls (config : ReactorConfig) (shared : Shared) (now : Nat)
    (stimuli : List Stimulus) (id : PeerId) :
    let r := (start config shared now).run stimuli
    r.mux.isRegistered id = true → ∃ p, r.table.get? id = some p ∧
      (decodeOne p.session.inbound ≠ .ok none → id ∈ r.mux.pending ∧
        ∀ sight, ∃ k ∈ r.mux.pending, (r.wait sight).1 = some (.peer k .read)) := by
  intro r registered
  have consistent : r.Consistent := kept_consistent.run (consistent_start config shared now) stimuli
  have prompt : Prompt id r :=
    lasting_run (fun consistent h attends => h.attends consistent attends)
      (consistent_start config shared now) (prompt_gone rfl) stimuli
  obtain ⟨p, there⟩ := (consistent.isRegistered_iff id).1 registered
  refine ⟨p, there, fun more => ?_⟩
  have waiting := (prompt p there).resolve_left more
  refine ⟨waiting, fun sight => ?_⟩
  rcases r.mux.wait_cases r.queue r.owes sight with
    ⟨skipped, k, rest, hpending, -, -, hwait⟩ | ⟨none_left, -⟩
  · refine ⟨k, ?_, congrArg (fun out => out.1) hwait⟩
    rw [hpending]
    exact List.mem_append_right skipped List.mem_cons_self
  · rw [none_left id waiting] at registered
    cases registered

/-- Two envelopes arrive at once.  Once the first one has been acted upon the peer is put back for
the sake of the second one. -/
theorem never_stalls_pipelined :
    let odd : Envelope := ⟨9, .scalar .null⟩
    let r := (start default .empty 0).run
      [.turn ⟨0, 0, .connection ⟨3⟩ .elsewhere, []⟩ ⟨0, .waiting [], [], []⟩,
        .turn ⟨0, 0, .none, [(⟨1⟩, .ok .read)]⟩ ⟨0, .waiting (odd.render ++ odd.render), [], []⟩]
    ⟨1⟩ ∈ r.mux.pending := by
  intro odd r
  have registered : r.mux.isRegistered ⟨1⟩ = true := by decide +kernel
  have left : (r.table.get? ⟨1⟩).map (·.session.inbound) = some odd.render := by decide +kernel
  obtain ⟨p, there, due⟩ := never_stalls default .empty 0 _ ⟨1⟩ registered
  have same : p.session.inbound = odd.render := by
    rw [show r.table.get? ⟨1⟩ = some p from there] at left
    exact Option.some.inj left
  refine (due fun short => ?_).1
  have whole : (decodeOne odd.render).toOption.join.isSome = true := by decide +kernel
  rw [← same, short] at whole
  cases whole

end Reactor

end GossipNode
