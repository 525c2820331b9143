import GossipNode.Proofs.Reactor.Frames
import GossipNode.Proofs.Reactor.Serving

/-!
# What becomes of one connection

A turn serves whatever is due, and most of it is on behalf of somebody else.  What happens to a
given connection in a turn is one of a few things, and what is true of it throughout runs is shown
by looking at each of them once.

## Main definitions

* `Reactor.greetingsDue` — how many introductions are still due on a connection.
* `Reactor.Untouched` — nothing happens to a connection.
* `Reactor.Attends` — what may happen to a connection.

## Main results

* `Reactor.Moves.untouched`, `Reactor.wait_untouched` — what serves others does not touch a
  connection, nor does waiting for it.
* `Reactor.attends_turn` — **what happens to a connection in a turn is one of these things.**
* `Reactor.lasting_run` — what each of them keeps is kept by runs.
-/

namespace GossipNode

namespace Reactor

/-- How many introductions of the node are still due on a connection. -/
def greetingsDue (r : Reactor) (k : PeerId) : Nat := r.queue.commands.count (.sendHandshake k)

/-- Nothing happens to a connection.  What is due on one that is not there does not matter. -/
structure Untouched (k : PeerId) (r s : Reactor) : Prop extends Spares k r s where
  config : s.config = r.config
  due : ∀ p, r.table.get? k = some p → s.greetingsDue k = r.greetingsDue k

variable {k : PeerId} {r s t : Reactor}

theorem Untouched.refl (k : PeerId) (r : Reactor) : Untouched k r r :=
  ⟨Spares.refl k r, rfl, fun _ _ => rfl⟩

theorem Untouched.trans (h : Untouched k r s) (h' : Untouched k s t) : Untouched k r t :=
  ⟨h.toSpares.trans h'.toSpares, h'.config.trans h.config, fun p hp =>
    (h'.due p (h.entry.trans hp)).trans (h.due p hp)⟩

/-- Where the queue stays as it is nothing more is due. -/
theorem Spares.untouched (h : Spares k r s) (config : s.config = r.config)
    (queue : s.queue = r.queue) : Untouched k r s :=
  ⟨h, config, fun _ _ => by rw [greetingsDue, greetingsDue, queue]⟩

theorem Idle.untouched (h : Idle r s) (k : PeerId) : Untouched k r s := by
  refine ⟨h.spares k, h.config, fun p hp => ?_⟩
  obtain ⟨new, commands, none_due⟩ := h.commands
  rw [greetingsDue, commands, List.count_append, List.count_eq_zero.2 (none_due k)]
  rfl

/-! ### Others are served -/

section Insert

variable (socket : SocketId) (remote : SocketAddress) (direction : Direction)
  (dialed : Option String) (now : Nat)

/-- An introduction is due on a connection that is taken over if the node began it. -/
theorem greetingsDue_insertPeer (k : PeerId) :
    (r.insertPeer socket remote direction dialed now).greetingsDue k =
      r.greetingsDue k + if direction = .outbound ∧ r.nextId = k then 1 else 0 := by
  unfold insertPeer
  simp only
  split
  · next outbound =>
    refine (List.count_append ..).trans (congrArg (r.greetingsDue k + ·) ?_)
    by_cases same : r.nextId = k
    · rw [if_pos ⟨outbound, same⟩, ← same]
      exact List.count_singleton_self
    · rw [if_neg fun both => same both.2]
      refine List.count_eq_zero.2 fun due => same ?_
      cases List.mem_singleton.1 due
      rfl
  · next other =>
    rw [if_neg fun both => other both.1]
    rfl

end Insert

/-- A move on behalf of another peer does not touch a connection. -/
theorem Move.untouched {id : PeerId} (move : Move r (some id) s) (other : id ≠ k) :
    Untouched k r s := by
  have spares := move.spares other
  have config := move.keeps.2
  cases move with
  | close held => exact spares.untouched config (queue_closePeer r _)
  | insert socket remote direction dialed now =>
    refine ⟨spares, config, fun p hp => ?_⟩
    rw [greetingsDue_insertPeer, if_neg fun both => other both.2]
    rfl
  | @refuse p e info held introduced strange writes =>
    refine spares.untouched config ?_
    rcases onPeerInfo_strange (r := r.note (.dispatched p.id e)) strange p writes with
      ⟨m, refused⟩ | refused <;>
    · rw [refused, queue_closePeer]
      rfl
  | _ => exact spares.untouched config rfl

/-- **Moves on behalf of others do not touch a connection.** -/
theorem Moves.untouched {who : PeerId → Prop} (moves : Moves who r s) (other : ¬ who k) :
    Untouched k r s := by
  induction moves with
  | refl => exact Untouched.refl k r
  | @step _ _ id? _ last allowed ih =>
    cases id? with
    | none => exact ih.trans (last.idle.untouched k)
    | some id => exact ih.trans (last.untouched fun same => other (same ▸ allowed id rfl))

/-- What waiting does to the commands: the first one is due, or there is none and there will be none
any more, or they are left as they are and something else is due, if anything is. -/
theorem wait_commands (r : Reactor) (sight : Sight) :
    (∃ c, (r.wait sight).1 = some (.control (some c)) ∧
        r.queue.commands = c :: (r.wait sight).2.queue.commands ∧
        (r.wait sight).2.queue.hasSenders = r.queue.hasSenders) ∨
      ((r.wait sight).1 = some (.control none) ∧ r.queue.commands = [] ∧
        r.queue.hasSenders = false ∧ (r.wait sight).2.queue = r.queue) ∨
      (∀ c, (r.wait sight).1 ≠ some (.control c)) ∧ (r.wait sight).2.queue = r.queue := by
  rcases r.mux.wait_served r.queue r.owes sight with ⟨command, due, received⟩ | ⟨other, queue, -⟩
  · rcases Multiplexer.receive_cases received with
      ⟨c, rfl, commands, senders⟩ | ⟨rfl, none_left, deserted, queue⟩
    · exact Or.inl ⟨c, due, commands, senders⟩
    · exact Or.inr (Or.inl ⟨due, none_left, deserted, queue⟩)
  · exact Or.inr (Or.inr ⟨other, queue⟩)

/-- Waiting does not touch a connection that is not due itself. -/
theorem wait_untouched (h : r.Consistent) {sight : Sight}
    (unserved : ∀ ready, (r.wait sight).1 ≠ some (.peer k ready))
    (ungreeted : (r.wait sight).1 ≠ some (.control (some (.sendHandshake k)))) :
    Untouched k r (r.wait sight).2 := by
  obtain ⟨-, pending, -⟩ := r.mux.wait_spec r.queue r.owes sight
  constructor
  case toSpares =>
    refine ⟨rfl, ⟨fun later => pending.subset later, fun waiting => ?_⟩, [], rfl,
      fun _ hd => absurd hd List.not_mem_nil⟩
    exact (wait_pending sight (h.pending_watched k waiting) waiting).resolve_right (unserved .read)
  case config => rfl
  case due =>
    intro p _
    rw [greetingsDue, greetingsDue]
    rcases r.wait_commands sight with ⟨c, due, commands, -⟩ | ⟨-, -, -, queue⟩ | ⟨-, queue⟩
    · rw [commands]
      refine (List.count_cons_of_ne fun same => ungreeted ?_).symm
      subst same
      exact due
    · rw [queue]
    · rw [queue]

/-- A command that is due is the first one of those that wait. -/
theorem wait_command {sight : Sight} {c : Command}
    (due : (r.wait sight).1 = some (.control (some c))) :
    r.queue.commands = c :: (r.wait sight).2.queue.commands := by
  rcases r.wait_commands sight with ⟨c', due', commands, -⟩ | ⟨none_due, -⟩ | ⟨other, -⟩
  · rw [due] at due'
    cases due'
    exact commands
  · rw [due] at none_due
    cases none_due
  · exact absurd due (other _)

/-- When the node introduces itself it is because that was due. -/
theorem greetingsDue_wait {sight : Sight}
    (due : (r.wait sight).1 = some (.control (some (.sendHandshake k)))) :
    r.greetingsDue k = (r.wait sight).2.greetingsDue k + 1 := by
  rw [greetingsDue, wait_command due, List.count_cons_self, greetingsDue]

/-- A peer is served because it was put back, or when no command waits; either way the commands are
left as they are. -/
theorem wait_peer {sight : Sight} {ready : Readiness}
    (due : (r.wait sight).1 = some (.peer k ready)) :
    (k ∈ r.mux.pending ∨ r.queue.commands = []) ∧ (r.wait sight).2.queue = r.queue := by
  rcases r.mux.wait_served r.queue r.owes sight with ⟨c, same, -⟩ | ⟨-, queue, served⟩
  · have both := (show some (Wakeup.control c) = _ from same.symm).trans due
    cases both
  · exact ⟨(served k ready due).imp_left And.left, queue⟩

/-! ### Nobody is there -/

/-- A connection that is not there is not put back. -/
theorem Consistent.not_pending (h : r.Consistent) (unknown : r.table.get? k = none) :
    k ∉ r.mux.pending := by
  intro waiting
  obtain ⟨p, hp⟩ := (h.isRegistered_iff k).1 (h.pending_watched k waiting)
  rw [unknown] at hp
  cases hp

/-- To watch no longer a connection that is not there does not touch it. -/
theorem untouched_stray (h : r.Consistent) (unknown : r.table.get? k = none) :
    Untouched k r { r with mux := r.mux.deregister k } := by
  refine Spares.untouched ⟨rfl, ?_, [], rfl, fun _ hd => absurd hd List.not_mem_nil⟩ rfl rfl
  rw [Multiplexer.mem_deregister]
  exact and_iff_left_of_imp fun waiting => absurd waiting (h.not_pending unknown)

/-- Waiting does not touch a connection that is not there. -/
theorem wait_unknown (h : r.Consistent) (unknown : r.table.get? k = none) (sight : Sight) :
    Untouched k r (r.wait sight).2 := by
  refine ⟨⟨rfl, ?_, [], rfl, fun _ hd => absurd hd List.not_mem_nil⟩, rfl, fun p hp => ?_⟩
  · exact iff_of_false ((h.wait sight).not_pending unknown) (h.not_pending unknown)
  · rw [unknown] at hp
    cases hp

/-- The end of a run does not touch a connection that is not there. -/
theorem untouched_teardown (h : r.Consistent) (unknown : r.table.get? k = none) :
    Untouched k r r.teardown := by
  obtain ⟨new, deeds, kinds, -⟩ := deeds_teardown r
  refine ⟨⟨unknown.symm, iff_of_false List.not_mem_nil (h.not_pending unknown), new, deeds, ?_⟩,
    rfl, fun p hp => ?_⟩
  · intro d hd
    rcases kinds d hd with ⟨audience, rfl⟩ | ⟨socket, rfl⟩ | ⟨id, q, found, rfl⟩
    · exact fun impossible => by cases impossible
    · exact fun impossible => by cases impossible
    · intro same
      have key : id = k := (h.keyed id q found).symm.trans (Option.some.inj same)
      rw [key, unknown] at found
      cases found
  · rw [unknown] at hp
    cases hp

/-! ### A connection is attended to -/

/-- What may happen to a connection in a turn. -/
inductive Attends (k : PeerId) (r : Reactor) (means : Means) : Reactor → Prop
  /-- Others are served, or nobody. -/
  | untouched {s : Reactor} (h : Untouched k r s) : Attends k r means s
  /-- The connection is taken over. -/
  | comes (sight : Sight) (socket : SocketId) (remote : SocketAddress) (direction : Direction)
      (dialed : Option String) (fresh : r.nextId = k) (began : direction ≠ .unknown) :
    Attends k r means ((r.wait sight).2.insertPeer socket remote direction dialed means.now)
  /-- The node introduces itself. -/
  | greeted (sight : Sight) {p : Peer} (there : r.table.get? k = some p)
      (due : (r.wait sight).1 = some (.control (some (.sendHandshake k)))) :
    Attends k r means ((r.wait sight).2.greet k means.writes)
  /-- The socket reports something, or the peer was put back. -/
  | served (sight : Sight) {p : Peer} {ready : Readiness} (there : r.table.get? k = some p)
      (due : (r.wait sight).1 = some (.peer k ready)) :
    Attends k r means ((r.wait sight).2.serve k ready means)
  /-- The peer is dismissed. -/
  | dismissed {t : Reactor} {p : Peer} (before : Untouched k r t) (consistent : t.Consistent)
      (there : t.table.get? k = some p) : Attends k r means (t.dismiss k means.writes)
  /-- The peer has had its time to introduce itself. -/
  | expired {t s : Reactor} {p : Peer} (before : Untouched k r t) (consistent : t.Consistent)
      (there : t.table.get? k = some p) (after : Untouched k (t.closePeer k) s) :
    Attends k r means s
  /-- The run ends. -/
  | ended (sight : Sight) {p : Peer} (there : r.table.get? k = some p) :
    Attends k r means (r.wait sight).2.teardown

theorem Idle.attends (h : Idle r s) (k : PeerId) (means : Means) : Attends k r means s :=
  .untouched (h.untouched k)

variable {means : Means}

/-- Among peers that are let go one after the other a connection is one of them or is not
touched. -/
theorem attends_foldl_close (ids : List PeerId) : ∀ {r : Reactor}, r.Consistent →
    Untouched k r (ids.foldl closePeer r) ∨ ∃ t p, Untouched k r t ∧ t.Consistent ∧
      t.table.get? k = some p ∧ Untouched k (t.closePeer k) (ids.foldl closePeer r) := by
  induction ids with
  | nil => intro r _; exact Or.inl (Untouched.refl k r)
  | cons id ids ih =>
    intro r h
    have closed : (r.closePeer id).Consistent := by
      cases hp : r.table.get? id with
      | none => exact closePeer_unknown hp ▸ h.stray hp
      | some p =>
        have same := h.keyed id p hp
        subst same
        exact h.close hp
    by_cases same : id = k
    · subst same
      cases hp : r.table.get? id with
      | none =>
        have stray : Untouched id r (r.closePeer id) :=
          closePeer_unknown hp ▸ untouched_stray h hp
        rcases ih closed with later | ⟨t, p, before, consistent, there, after⟩
        · exact Or.inl (stray.trans later)
        · exact Or.inr ⟨t, p, stray.trans before, consistent, there, after⟩
      | some p =>
        rcases ih closed with later | ⟨t, q, before, -, there, -⟩
        · exact Or.inr ⟨r, p, Untouched.refl id r, h, hp, later⟩
        · -- Once it has been let go it is not there to be let go again.
          rw [before.entry, get?_closePeer, if_pos rfl] at there
          cases there
    · have other : Untouched k r (r.closePeer id) := by
        cases hp : r.table.get? id with
        | none => exact (closePeer_unknown hp).symm ▸ (Move.stray hp).untouched same
        | some p =>
          have keyed := h.keyed id p hp
          subst keyed
          exact (Move.close hp).untouched same
      rcases ih closed with later | ⟨t, p, before, consistent, there, after⟩
      · exact Or.inl (other.trans later)
      · exact Or.inr ⟨t, p, other.trans before, consistent, there, after⟩

theorem attends_expire {t : Reactor} (waited : Untouched k r t)
    (consistent : t.Consistent) (now : Nat) : Attends k r means (t.expireHandshakes now) := by
  unfold expireHandshakes
  split
  · exact .untouched waited
  · rcases attends_foldl_close (k := k) _ consistent with
      later | ⟨u, p, before, consistent', there, after⟩
    · exact .untouched (waited.trans later)
    · exact .expired (waited.trans before) consistent' there after

/-- What is due in a turn attends to a connection in one of these ways. -/
theorem attends_handle (h : r.Consistent) {sight : Sight} {w : Wakeup}
    (due : (r.wait sight).1 = some w) (means : Means) (k : PeerId) :
    Attends k r means ((r.wait sight).2.handle w means) := by
  have consistent := h.wait sight
  have waited (unserved : ∀ ready, w ≠ .peer k ready)
      (ungreeted : w ≠ .control (some (.sendHandshake k))) : Untouched k r (r.wait sight).2 := by
    refine wait_untouched h (fun ready busy => unserved ready ?_) fun busy => ungreeted ?_
    · exact Option.some.inj (due.symm.trans busy)
    · exact Option.some.inj (due.symm.trans busy)
  have ended : Attends k r means (r.wait sight).2.teardown := by
    cases hp : r.table.get? k with
    | some p => exact .ended sight hp
    | none => exact .untouched ((wait_unknown h hp sight).trans (untouched_teardown consistent hp))
  have others (going : w.ends = false) (other : ¬ (r.wait sight).2.concerns means w k) :
      Attends k r means ((r.wait sight).2.handle w means) := by
    refine .untouched ((waited (fun ready same => other ?_) fun same => other ?_).trans
      ((handle_moves consistent.keyed going means).untouched other))
    · subst same
      exact rfl
    · subst same
      exact rfl
  cases w with
  | peer id ready =>
    by_cases same : k = id
    · subst same
      cases hp : r.table.get? k with
      | some p => exact .served sight hp due
      | none =>
        have stray := untouched_stray consistent (k := k) hp
        refine .untouched ((wait_unknown h hp sight).trans ?_)
        show Untouched k _ ((r.wait sight).2.serve k ready means)
        rwa [serve_unknown (r := (r.wait sight).2) hp]
    · exact others rfl same
  | accept socket remote =>
    by_cases same : k = r.nextId
    · exact .comes sight socket remote .inbound none same.symm fun impossible => by cases impossible
    · exact others rfl same
  | acceptFailed why => exact others rfl id
  | acceptResumed => exact others rfl id
  | failed why => exact ended
  | tick =>
    exact attends_expire (waited (fun _ same => by cases same) fun same => by cases same)
      consistent means.now
  | control command =>
    cases command with
    | none => exact ended
    | some c =>
      cases c with
      | shutdown => exact ended
      | tryConnect => exact others rfl id
      | adopt socket remote dialed =>
        by_cases same : k = r.nextId
        · exact .comes sight socket remote .outbound (some dialed) same.symm
            fun impossible => by cases impossible
        · exact others rfl same
      | closePeer id =>
        by_cases same : k = id
        · subst same
          have quiet := waited (fun _ same => by cases same) fun same => by cases same
          cases hp : r.table.get? k with
          | some p => exact .dismissed quiet consistent hp
          | none =>
            show Attends k r means ((r.wait sight).2.dismiss k means.writes)
            rw [dismiss_unknown (r := (r.wait sight).2) hp]
            exact .untouched quiet
        · exact others rfl same
      | sendHandshake id =>
        by_cases same : k = id
        · subst same
          cases hp : r.table.get? k with
          | some p => exact .greeted sight hp due
          | none =>
            show Attends k r means ((r.wait sight).2.greet k means.writes)
            rw [greet_unknown (r := (r.wait sight).2) hp]
            exact .untouched (wait_unknown h hp sight)
        · exact others rfl same

/-- **What happens to a connection in a turn is one of these things.** -/
theorem attends_turn (h : r.Consistent) (sight : Sight) (means : Means) (k : PeerId) :
    Attends k r means (r.turn sight means) := by
  by_cases running : r.running = true
  · cases due : (r.wait sight).1 with
    | some w => exact turn_eq running due means ▸ attends_handle h due means k
    | none =>
      have quiet : Untouched k r (r.wait sight).2 := by
        refine wait_untouched h (fun ready busy => ?_) fun busy => ?_ <;>
        · rw [due] at busy
          cases busy
      rcases turn_cases running sight means (h.wait sight).keyed with ⟨-, same⟩ | ⟨w, busy, -⟩
      · exact same ▸ .untouched quiet
      · rw [due] at busy
        cases busy
  · rw [turn_ended (Bool.eq_false_iff.2 running)]
    exact .untouched (Untouched.refl k r)

/-- **What everything that may happen to a connection keeps is kept by runs.** -/
theorem lasting_run {P : Reactor → Prop}
    (lasts : ∀ {r s means}, r.Consistent → P r → Attends k r means s → P s)
    (h : r.Consistent) (start : P r) (stimuli : List Stimulus) : P (r.run stimuli) := by
  induction stimuli generalizing r with
  | nil => exact start
  | cons s stimuli ih =>
    refine ih (kept_consistent.react h s) ?_
    cases s with
    | turn sight means => exact lasts h start (attends_turn h sight means k)
    | _ =>
      -- Between turns it does not matter what the outside would do while something is served.
      exact lasts h start ((react_idle r fun _ _ impossible => by cases impossible).attends k
        ⟨0, .ended, [], []⟩)

end Reactor

end GossipNode
