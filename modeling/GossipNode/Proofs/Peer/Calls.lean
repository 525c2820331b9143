import GossipNode.Peer.Session

/-!
# What calls do to a session

A node works on a session by six operations, and the other side decides in which order.  Whatever
the order, a conversation is accepted once at most, keeps the identity it was accepted with, and
stays over once it is over.

## Main definitions

* `Session.Call` — one operation with what it is given.
* `Session.after` — the session after calls.
* `Session.acceptances` — how many of the calls accepted an introduction.

## Main results

* `Session.perform_cases` — what one call may do to the state and the identity.
* `Session.acceptances_le_one` — **at most one introduction is accepted.**
* `Session.isSome_identity_iff` — **there is an identity if the session has once been ready.**
* `Session.identity_after`, `Session.closed_after` — **an identity and an end are for good.**
-/

namespace GossipNode

namespace Session

/-- One operation on a session, with what it is given. -/
inductive Call
  | send (m : Message) (outcomes : List WriteOutcome)
  | flush (outcomes : List WriteOutcome)
  | fill (incoming : Incoming)
  | nextEnvelope
  | markReady (identity : PeerInfo)
  | markClosed

/-- The session after a call. -/
def perform (s : Session) : Call → Session
  | .send m outcomes => (s.send m outcomes).session
  | .flush outcomes => (s.flush outcomes).session
  | .fill incoming => (s.fill incoming).2
  | .nextEnvelope => s.nextEnvelope.2
  | .markReady identity => (s.markReady identity).2
  | .markClosed => s.markClosed

/-- The session after some calls. -/
def after (s : Session) (calls : List Call) : Session := calls.foldl perform s

/-- Whether a call notes who the other side is. -/
def accepts (s : Session) : Call → Bool
  | .markReady identity => (s.markReady identity).1
  | _ => false

/-- How many of some calls note who the other side is. -/
def acceptances : Session → List Call → Nat
  | _, [] => 0
  | s, c :: calls => (s.accepts c).toNat + acceptances (s.perform c) calls

@[simp] theorem after_nil (s : Session) : s.after [] = s := rfl

@[simp] theorem after_cons (s : Session) (c : Call) (calls : List Call) :
    s.after (c :: calls) = (s.perform c).after calls := rfl

@[simp] theorem after_append (s : Session) (calls more : List Call) :
    s.after (calls ++ more) = (s.after calls).after more := List.foldl_append

/-! ### What the operations leave alone -/

@[simp] theorem state_flush (s : Session) (outcomes : List WriteOutcome) :
    (s.flush outcomes).session.state = s.state := rfl

@[simp] theorem identity_flush (s : Session) (outcomes : List WriteOutcome) :
    (s.flush outcomes).session.identity = s.identity := rfl

@[simp] theorem inbound_flush (s : Session) (outcomes : List WriteOutcome) :
    (s.flush outcomes).session.inbound = s.inbound := rfl

@[simp] theorem state_send (s : Session) (m : Message) (outcomes : List WriteOutcome) :
    (s.send m outcomes).session.state = s.state := by
  unfold send
  split <;> rfl

@[simp] theorem identity_send (s : Session) (m : Message) (outcomes : List WriteOutcome) :
    (s.send m outcomes).session.identity = s.identity := by
  unfold send
  split <;> rfl

@[simp] theorem inbound_send (s : Session) (m : Message) (outcomes : List WriteOutcome) :
    (s.send m outcomes).session.inbound = s.inbound := by
  unfold send
  split <;> rfl

@[simp] theorem state_fill (s : Session) (incoming : Incoming) :
    (s.fill incoming).2.state = s.state := by
  unfold fill
  split <;> rfl

@[simp] theorem identity_fill (s : Session) (incoming : Incoming) :
    (s.fill incoming).2.identity = s.identity := by
  unfold fill
  split <;> rfl

@[simp] theorem state_nextEnvelope (s : Session) : s.nextEnvelope.2.state = s.state := rfl

@[simp] theorem identity_nextEnvelope (s : Session) : s.nextEnvelope.2.identity = s.identity := rfl

@[simp] theorem inbound_markReady (s : Session) (info : PeerInfo) :
    (s.markReady info).2.inbound = s.inbound := by
  unfold markReady
  split <;> rfl

@[simp] theorem state_markClosed (s : Session) : s.markClosed.state = .closed := rfl

@[simp] theorem identity_markClosed (s : Session) : s.markClosed.identity = s.identity := rfl

theorem markReady_unverified {s : Session} (h : s.state = .unverified) (info : PeerInfo) :
    s.markReady info = (true, { s with state := .ready, identity := some info }) := if_pos h

theorem markReady_known {s : Session} (h : s.state ≠ .unverified) (info : PeerInfo) :
    s.markReady info = (false, s) := if_neg h

/-! ### One call -/

/-- What a call may do to the state and the identity: nothing, accept an introduction, or end the
conversation. -/
theorem perform_cases (s : Session) (c : Call) :
    (s.accepts c = false ∧ (s.perform c).state = s.state ∧
        (s.perform c).identity = s.identity) ∨
      (s.accepts c = true ∧ s.state = .unverified ∧ (s.perform c).state = .ready ∧
        (s.perform c).identity.isSome) ∨
      (s.accepts c = false ∧ (s.perform c).state = .closed ∧
        (s.perform c).identity = s.identity) := by
  cases c with
  | markReady info =>
    by_cases h : s.state = .unverified
    · refine Or.inr (Or.inl ⟨?_, h, ?_, ?_⟩) <;> simp [accepts, perform, markReady_unverified h]
    · refine Or.inl ⟨?_, ?_, ?_⟩ <;> simp [accepts, perform, markReady_known h]
  | markClosed => exact Or.inr (Or.inr ⟨rfl, rfl, rfl⟩)
  | send m outcomes => exact Or.inl ⟨rfl, state_send s m outcomes, identity_send s m outcomes⟩
  | flush outcomes => exact Or.inl ⟨rfl, rfl, rfl⟩
  | fill incoming => exact Or.inl ⟨rfl, state_fill s incoming, identity_fill s incoming⟩
  | nextEnvelope => exact Or.inl ⟨rfl, rfl, rfl⟩

/-! ### Many calls -/

/-- A session whose introduction has been dealt with: no later one is accepted. -/
theorem after_settled {calls : List Call} : ∀ {s : Session}, s.state = .ready ∨ s.state = .closed →
    (s.after calls).identity = s.identity ∧ s.acceptances calls = 0 := by
  induction calls with
  | nil => intro s _; exact ⟨rfl, rfl⟩
  | cons c calls ih =>
    intro s h
    rw [after_cons, acceptances]
    rcases perform_cases s c with ⟨no, state, same⟩ | ⟨-, state, -⟩ | ⟨no, state, same⟩
    · obtain ⟨kept, none_later⟩ := ih (state ▸ h)
      exact ⟨kept.trans same, by rw [no, none_later]; rfl⟩
    · rw [state] at h
      rcases h with h | h <;> cases h
    · obtain ⟨kept, none_later⟩ := ih (Or.inr state)
      exact ⟨kept.trans same, by rw [no, none_later]; rfl⟩

/-- **At most one introduction is accepted**, whatever is called. -/
theorem acceptances_le_one (calls : List Call) : ∀ s : Session, s.acceptances calls ≤ 1 := by
  induction calls with
  | nil => intro s; exact Nat.zero_le 1
  | cons c calls ih =>
    intro s
    rw [acceptances]
    rcases perform_cases s c with ⟨no, -⟩ | ⟨yes, -, ready, -⟩ | ⟨no, -⟩
    · rw [no]
      simpa using ih (s.perform c)
    · rw [yes, (after_settled (Or.inl ready)).2]
      exact Nat.le_refl 1
    · rw [no]
      simpa using ih (s.perform c)

/-- A call notes who the other side is exactly if it makes the session ready. -/
theorem accepts_iff (s : Session) (c : Call) :
    s.accepts c = true ↔ s.state ≠ .ready ∧ (s.perform c).state = .ready := by
  rcases perform_cases s c with ⟨no, state, -⟩ | ⟨yes, new, ready, -⟩ | ⟨no, closed, -⟩
  · simp [no, state]
  · simp [yes, new, ready]
  · simp [no, closed]

/-- **The end is for good.** -/
theorem closed_after (calls : List Call) : ∀ {s : Session}, s.state = .closed →
    (s.after calls).state = .closed := by
  induction calls with
  | nil => intro s h; exact h
  | cons c calls ih =>
    intro s h
    rw [after_cons]
    rcases perform_cases s c with ⟨-, state, -⟩ | ⟨-, state, -⟩ | ⟨-, state, -⟩
    · exact ih (state.trans h)
    · rw [h] at state
      cases state
    · exact ih state

/-- How state and identity go together: there is no identity before the conversation is accepted,
and there is one from then on. -/
def Sound (s : Session) : Prop :=
  (s.state = .unverified ∧ s.identity = none) ∨ (s.state = .ready ∧ s.identity.isSome) ∨
    s.state = .closed

theorem sound_start : Sound start := Or.inl ⟨rfl, rfl⟩

theorem Sound.perform {s : Session} (h : s.Sound) (c : Call) : (s.perform c).Sound := by
  rcases perform_cases s c with ⟨-, state, same⟩ | ⟨-, -, ready, identity⟩ | ⟨-, state, -⟩
  · simpa only [Sound, state, same] using h
  · exact Or.inr (Or.inl ⟨ready, identity⟩)
  · exact Or.inr (Or.inr state)

theorem Sound.after {s : Session} (h : s.Sound) (calls : List Call) : (s.after calls).Sound := by
  induction calls generalizing s with
  | nil => exact h
  | cons c calls ih => exact ih (h.perform c)

/-- Calls accept an introduction exactly if there is an identity after them and was none before. -/
theorem isSome_identity_after (calls : List Call) : ∀ {s : Session}, s.Sound →
    (s.after calls).identity.isSome.toNat = s.identity.isSome.toNat + s.acceptances calls := by
  induction calls with
  | nil => intro s _; rfl
  | cons c calls ih =>
    intro s sound
    rw [after_cons, ih (sound.perform c), acceptances]
    rcases perform_cases s c with ⟨no, -, same⟩ | ⟨yes, new, -, known⟩ | ⟨no, -, same⟩
    · simp [no, same]
    · rcases sound with ⟨-, unknown⟩ | ⟨state, -⟩ | state
      · simp [yes, unknown, known]
      · cases new.symm.trans state
      · cases new.symm.trans state
    · simp [no, same]

/-- **An identity is for good.** -/
theorem identity_after {s : Session} (h : s.Sound) {info : PeerInfo}
    (hidentity : s.identity = some info) (calls : List Call) :
    (s.after calls).identity = some info := by
  have settled : s.state = .ready ∨ s.state = .closed := by
    rcases h with ⟨-, none⟩ | ⟨ready, -⟩ | closed
    · rw [hidentity] at none
      cases none
    · exact Or.inl ready
    · exact Or.inr closed
  rw [(after_settled settled).1, hidentity]

/-- A session that comes to have an identity has been ready on the way. -/
theorem exists_ready {calls : List Call} : ∀ {s : Session}, s.identity = none →
    (s.after calls).identity.isSome →
      ∃ early, early <+: calls ∧ (s.after early).state = .ready := by
  induction calls with
  | nil =>
    intro s none h
    rw [after_nil, none] at h
    cases h
  | cons c calls ih =>
    intro s none h
    rw [after_cons] at h
    have later (still : (s.perform c).identity = Option.none) :
        ∃ early, early <+: c :: calls ∧ (s.after early).state = .ready := by
      obtain ⟨early, prefixed, ready⟩ := ih still h
      exact ⟨c :: early, List.prefix_cons_inj c |>.2 prefixed, ready⟩
    rcases perform_cases s c with ⟨-, -, same⟩ | ⟨-, -, ready, -⟩ | ⟨-, -, same⟩
    · exact later (same.trans none)
    · exact ⟨[c], List.prefix_append [c] calls, ready⟩
    · exact later (same.trans none)

/-- **There is an identity if the session has once been ready**, and only then. -/
theorem isSome_identity_iff (calls : List Call) :
    (start.after calls).identity.isSome ↔ ∃ early, early <+: calls ∧
      (start.after early).state = .ready := by
  constructor
  · exact exists_ready rfl
  · rintro ⟨early, ⟨rest, rfl⟩, ready⟩
    rw [after_append]
    rcases sound_start.after early with ⟨state, -⟩ | ⟨-, some⟩ | state
    · rw [ready] at state
      cases state
    · rwa [(after_settled (Or.inl ready)).1]
    · rw [ready] at state
      cases state

end Session

end GossipNode
