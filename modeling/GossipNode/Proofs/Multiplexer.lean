import GossipNode.Multiplexer

/-!
# What the multiplexer watches

## Main definitions

* `Sight.Steady` — every socket can be waited for.
* `Multiplexer.Due` — what can be due, and why.

## Main results

* `Multiplexer.wait_cases` — **what waiting comes to**: either the first peer that was put back and
  is still watched is to be served, or no such peer is left.
* `Multiplexer.due_wait` — **whatever waiting comes to is due**.
* `Multiplexer.wait_served` — commands come before sockets.
* `Multiplexer.wait_steady` — waiting does not fail where every socket can be waited for.
* `Multiplexer.mem_deregister`, `Multiplexer.mem_requeue` — who has been put back after a change.
-/

namespace GossipNode

/-- Every socket can be waited for. -/
def Sight.Steady (sight : Sight) : Prop := ∀ id why, (id, .error why) ∉ sight.reports

namespace Multiplexer

@[simp] theorem sockets_deregister (m : Multiplexer) (id : PeerId) :
    (m.deregister id).sockets = m.sockets.erase id := rfl

@[simp] theorem mem_deregister {m : Multiplexer} {id k : PeerId} :
    k ∈ (m.deregister id).pending ↔ k ∈ m.pending ∧ k ≠ id := by
  simp [deregister]

@[simp] theorem sockets_requeue (m : Multiplexer) (id : PeerId) :
    (m.requeue id).sockets = m.sockets := by
  unfold requeue
  split <;> rfl

@[simp] theorem mem_requeue {m : Multiplexer} {id k : PeerId} :
    k ∈ (m.requeue id).pending ↔ k ∈ m.pending ∨ k = id ∧ m.isRegistered id = true := by
  unfold requeue
  split
  · next h => simp [h.1]
  · next h =>
    constructor
    · exact Or.inl
    · rintro (h' | ⟨rfl, registered⟩)
      · exact h'
      · exact Classical.not_not.1 fun absent => h ⟨registered, absent⟩

theorem nodup_requeue {m : Multiplexer} (h : m.pending.Nodup) (id : PeerId) :
    (m.requeue id).pending.Nodup := by
  unfold requeue
  split
  · next fresh =>
    refine List.nodup_append.2 ⟨h, List.pairwise_singleton _ _, fun a ha b hb => ?_⟩
    rw [List.mem_singleton.1 hb]
    rintro rfl
    exact fresh.2 ha
  · exact h

/-- The first peer that was put back and is still watched, if there is one. -/
theorem nextPending_cases (sockets : IdMap SocketId) (pending : List PeerId) :
    (∃ skipped id rest, pending = skipped ++ id :: rest ∧
        (∀ k ∈ skipped, sockets.contains k = false) ∧ sockets.contains id = true ∧
        nextPending sockets pending = some (id, rest)) ∨
      (∀ k ∈ pending, sockets.contains k = false) ∧ nextPending sockets pending = none := by
  induction pending with
  | nil => exact Or.inr ⟨fun k hk => absurd hk List.not_mem_nil, rfl⟩
  | cons id pending ih =>
    by_cases watched : sockets.contains id = true
    · exact Or.inl ⟨[], id, pending, rfl, fun k hk => absurd hk List.not_mem_nil, watched,
        if_pos watched⟩
    · have unwatched : sockets.contains id = false := Bool.eq_false_iff.2 watched
      have skip : nextPending sockets (id :: pending) = nextPending sockets pending :=
        if_neg watched
      rw [skip]
      rcases ih with ⟨skipped, k, rest, rfl, none_skipped, hk, found⟩ | ⟨none_left, found⟩
      · exact Or.inl ⟨id :: skipped, k, rest, rfl, List.forall_mem_cons.2
          ⟨unwatched, none_skipped⟩, hk, found⟩
      · exact Or.inr ⟨List.forall_mem_cons.2 ⟨unwatched, none_left⟩, found⟩

/-- Commands are taken from the front, and when none is left and none can be given any more that is
noticed. -/
theorem receive_cases {queue rest : ControlQueue} {command : Option Command}
    (h : queue.receive = some (command, rest)) :
    (∃ c, command = some c ∧ queue.commands = c :: rest.commands ∧
        rest.hasSenders = queue.hasSenders) ∨
      command = none ∧ queue.commands = [] ∧ queue.hasSenders = false ∧ rest = queue := by
  unfold ControlQueue.receive at h
  split at h
  · next c commands some_left =>
    cases h
    exact Or.inl ⟨c, rfl, some_left, rfl⟩
  · next none_left =>
    split at h
    · cases h
    · next deserted =>
      cases h
      exact Or.inr ⟨rfl, none_left, Bool.eq_false_iff.2 deserted, rfl⟩

/-- When nothing is received no command is left, and more can be given. -/
theorem receive_eq_none {queue : ControlQueue} (quiet : queue.receive = none) :
    queue.commands = [] ∧ queue.hasSenders = true := by
  unfold ControlQueue.receive at quiet
  split at quiet
  · cases quiet
  · next none_left =>
    split at quiet
    · next senders => exact ⟨none_left, senders⟩
    · cases quiet

theorem receive_suffix {queue rest : ControlQueue} {command : Option Command}
    (h : queue.receive = some (command, rest)) : rest.commands <:+ queue.commands := by
  rcases receive_cases h with ⟨c, -, commands, -⟩ | ⟨-, -, -, rfl⟩
  · exact commands ▸ List.suffix_cons c rest.commands
  · exact List.suffix_rfl

@[simp] theorem sockets_liftPause (m : Multiplexer) (now : Nat) :
    (m.liftPause now).sockets = m.sockets := by
  unfold liftPause
  split <;> rfl

@[simp] theorem pending_liftPause (m : Multiplexer) (now : Nat) :
    (m.liftPause now).pending = m.pending := by
  unfold liftPause
  split <;> rfl

/-- A report that is heeded is of a watched socket: its peer is to be served, or it cannot be waited
for. -/
theorem firstReport_cases {m : Multiplexer} {owing : PeerId → Bool}
    {reports : List (PeerId × Except IoError Readiness)} {w : Wakeup}
    (first : m.firstReport owing reports = some w) :
    ∃ id, m.isRegistered id = true ∧
      ((∃ ready, w = .peer id ready) ∨ ∃ why, (id, .error why) ∈ reports ∧ w = .failed why) := by
  obtain ⟨⟨id, report⟩, member, heeded⟩ := List.exists_of_findSome?_eq_some first
  simp only at heeded
  split at heeded
  · next watched =>
    refine ⟨id, watched, ?_⟩
    unfold heed at heeded
    split at heeded
    · simp only at heeded
      split at heeded
      · cases heeded
        exact Or.inl ⟨_, rfl⟩
      · cases heeded
    · cases heeded
      exact Or.inr ⟨_, member, rfl⟩
  · cases heeded

theorem clockWakeup_spec (m : Multiplexer) (now : Nat) :
    (m.clockWakeup now).2.sockets = m.sockets ∧ (m.clockWakeup now).2.pending = m.pending := by
  unfold clockWakeup
  split
  · exact ⟨rfl, rfl⟩
  · split <;> exact ⟨rfl, rfl⟩

/-- **What waiting comes to**: the first peer that was put back and is still watched is to be
served, or no such peer is left. -/
theorem wait_cases (m : Multiplexer) (queue : ControlQueue) (owing : PeerId → Bool)
    (sight : Sight) :
    (∃ skipped id rest, m.pending = skipped ++ id :: rest ∧
        (∀ k ∈ skipped, m.isRegistered k = false) ∧ m.isRegistered id = true ∧
        m.wait queue owing sight = (some (.peer id .read), { m with pending := rest }, queue)) ∨
      (∀ k ∈ m.pending, m.isRegistered k = false) ∧
        (m.wait queue owing sight).2.1.sockets = m.sockets ∧
        (m.wait queue owing sight).2.1.pending = [] ∧
        (m.wait queue owing sight).2.2.commands <:+ queue.commands := by
  rcases nextPending_cases m.sockets m.pending with
    ⟨skipped, id, rest, hpending, none_skipped, watched, found⟩ | ⟨none_left, found⟩
  · refine Or.inl ⟨skipped, id, rest, hpending, none_skipped, watched, ?_⟩
    unfold wait
    rw [found]
  · refine Or.inr ⟨none_left, ?_⟩
    unfold wait
    rw [found]
    simp only
    split
    · next received => exact ⟨by simp, by simp, receive_suffix received⟩
    · split
      · exact ⟨by simp, by simp, List.suffix_rfl⟩
      · exact ⟨by simp, by simp, List.suffix_rfl⟩
      · split
        · exact ⟨by simp, by simp, List.suffix_rfl⟩
        · have clock := clockWakeup_spec (({ m with pending := [] } : Multiplexer).liftPause
            sight.began) sight.now
          exact ⟨by rw [clock.1, sockets_liftPause], by rw [clock.2, pending_liftPause],
            List.suffix_rfl⟩

/-- Waiting changes neither who is watched nor puts anybody back or gives a command. -/
theorem wait_spec (m : Multiplexer) (queue : ControlQueue) (owing : PeerId → Bool)
    (sight : Sight) :
    (m.wait queue owing sight).2.1.sockets = m.sockets ∧
      (m.wait queue owing sight).2.1.pending <:+ m.pending ∧
      (m.wait queue owing sight).2.2.commands <:+ queue.commands := by
  rcases wait_cases m queue owing sight with
    ⟨skipped, id, rest, hpending, -, -, hwait⟩ | ⟨-, sockets, pending, commands⟩
  · rw [hwait, hpending]
    exact ⟨rfl, (List.suffix_cons id rest).trans (List.suffix_append _ _), List.suffix_rfl⟩
  · exact ⟨sockets, pending ▸ List.nil_suffix, commands⟩

/-! ### What is due -/

/-- What can be due, and why. -/
inductive Due (m : Multiplexer) (queue : ControlQueue) (sight : Sight) : Wakeup → Prop
  /-- A peer was put back. -/
  | again {id : PeerId} (waits : id ∈ m.pending) (watched : m.isRegistered id = true) :
    Due m queue sight (.peer id .read)
  /-- A command waits, or none will ever come. -/
  | control {c : Option Command} {rest : ControlQueue} (next : queue.receive = some (c, rest)) :
    Due m queue sight (.control c)
  /-- Somebody has come. -/
  | accept {socket : SocketId} {remote : SocketAddress} (quiet : queue.receive = none)
    (came : sight.arrival = .connection socket remote) : Due m queue sight (.accept socket remote)
  /-- Somebody has come and could not be let in. -/
  | acceptFailed {why : IoError} (quiet : queue.receive = none)
    (came : sight.arrival = .failed why) : Due m queue sight (.acceptFailed why)
  /-- A watched socket reports something. -/
  | report {id : PeerId} {ready : Readiness} (quiet : queue.receive = none)
    (watched : m.isRegistered id = true) : Due m queue sight (.peer id ready)
  /-- A watched socket cannot be waited for. -/
  | failed {id : PeerId} {why : IoError} (quiet : queue.receive = none)
    (watched : m.isRegistered id = true) (fault : (id, .error why) ∈ sight.reports) :
    Due m queue sight (.failed why)
  /-- It is time. -/
  | tick (quiet : queue.receive = none) : Due m queue sight .tick
  /-- A pause is over. -/
  | acceptResumed (quiet : queue.receive = none) : Due m queue sight .acceptResumed

variable {m : Multiplexer} {queue : ControlQueue} {owing : PeerId → Bool} {sight : Sight}

theorem due_clock {n : Multiplexer} {w : Wakeup} (quiet : queue.receive = none)
    (due : (n.clockWakeup sight.now).1 = some w) : Due m queue sight w := by
  unfold clockWakeup at due
  split at due
  · cases due
    exact .tick quiet
  · split at due
    · cases due
      exact .acceptResumed quiet
    · cases due

/-- **Whatever waiting comes to is due.** -/
theorem due_wait {w : Wakeup} (due : (m.wait queue owing sight).1 = some w) :
    Due m queue sight w := by
  rcases m.wait_cases queue owing sight with
    ⟨skipped, id, rest, pending, -, watched, waited⟩ | ⟨none_left, -⟩
  · rw [waited] at due
    cases due
    exact .again (pending ▸ List.mem_append_right skipped List.mem_cons_self) watched
  · have none_found : nextPending m.sockets m.pending = none := by
      rcases nextPending_cases m.sockets m.pending with
        ⟨skipped, id, rest, split, -, watched, -⟩ | ⟨-, none_found⟩
      · have unwatched := none_left id (split ▸ List.mem_append_right _ List.mem_cons_self)
        exact absurd watched (Bool.eq_false_iff.1 unwatched)
      · exact none_found
    unfold wait at due
    rw [none_found] at due
    simp only at due
    split at due
    · next next =>
      cases due
      exact .control next
    · next quiet =>
      split at due
      · next came =>
        cases due
        exact .accept quiet came
      · next came =>
        cases due
        exact .acceptFailed quiet came
      · split at due
        · next first =>
          cases due
          obtain ⟨id, watched, ⟨ready, rfl⟩ | ⟨why, fault, rfl⟩⟩ := firstReport_cases first
          · exact .report quiet (by simpa [isRegistered] using watched)
          · exact .failed quiet (by simpa [isRegistered] using watched) fault
        · exact due_clock quiet due

/-- Commands come before sockets: a command is served when it is the next one, and a peer when it
was put back or when no command waits. -/
theorem wait_served (m : Multiplexer) (queue : ControlQueue) (owing : PeerId → Bool)
    (sight : Sight) :
    (∃ c, (m.wait queue owing sight).1 = some (.control c) ∧
        queue.receive = some (c, (m.wait queue owing sight).2.2)) ∨
      (∀ c, (m.wait queue owing sight).1 ≠ some (.control c)) ∧
        (m.wait queue owing sight).2.2 = queue ∧
        ∀ id ready, (m.wait queue owing sight).1 = some (.peer id ready) →
          (id ∈ m.pending ∧ ready = .read) ∨ queue.commands = [] := by
  rcases nextPending_cases m.sockets m.pending with
    ⟨skipped, id, rest, hpending, -, -, found⟩ | ⟨-, found⟩
  · refine Or.inr ?_
    unfold wait
    rw [found]
    refine ⟨(fun c impossible => by cases impossible), rfl, fun k ready h => Or.inl ?_⟩
    cases h
    rw [hpending]
    exact ⟨List.mem_append_right skipped List.mem_cons_self, rfl⟩
  · cases received : queue.receive with
    | some next =>
      obtain ⟨c, rest⟩ := next
      refine Or.inl ⟨c, ?_⟩
      unfold wait
      rw [found, received]
      exact ⟨rfl, rfl⟩
    | none =>
      refine Or.inr ⟨fun c due => ?_, ?_, fun _ _ _ => Or.inr (receive_eq_none received).1⟩
      · cases due_wait due with
        | control next =>
          rw [received] at next
          cases next
      · unfold wait
        rw [found, received]
        simp only
        split
        · rfl
        · rfl
        · split <;> rfl

/-- Whoever is to be served is watched. -/
theorem wait_watched {id : PeerId} {ready : Readiness}
    (due : (m.wait queue owing sight).1 = some (.peer id ready)) : m.isRegistered id = true := by
  cases due_wait due with
  | again _ watched => exact watched
  | report _ watched => exact watched

/-- **Waiting does not fail where every socket can be waited for.** -/
theorem wait_steady (steady : sight.Steady) (why : IoError) :
    (m.wait queue owing sight).1 ≠ some (.failed why) := by
  intro due
  cases due_wait due with
  | failed _ _ fault => exact steady _ why fault

end Multiplexer

end GossipNode
