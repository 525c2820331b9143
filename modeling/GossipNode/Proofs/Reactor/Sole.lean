import GossipNode.Proofs.Reactor.Delivery
import GossipNode.Proofs.Reactor.Replies
import GossipNode.Proofs.Reactor.Search

/-!
# A node with a single connection

Of a node that has no more than one connection everything that happens in a turn can be said at
once: the connection comes, the node introduces itself on it, the peer is served, or the turn passes
by without anything happening to the connection.

## Main definitions

* `PeerId.first` — the number of the first connection.
* `Reactor.Sole` — no other connection has come than the first.
* `Reactor.Passes` — a turn in which nothing happens to the connection.
* `Reactor.Happens` — what a turn comes to.

## Main results

* `Reactor.numbered_run` — the next connection has the number after those that came.
* `Reactor.Sole.happens` — **what happens in a turn of a node with a single connection**, if nothing
  gets into its way.
-/

namespace GossipNode

/-- The number of the first connection. -/
def PeerId.first : PeerId := ⟨1⟩

/-- Whether a command takes a connection over. -/
def Command.isAdopt : Command → Bool
  | .adopt .. => true
  | _ => false

namespace Reactor

variable {r s t : Reactor} {sight : Sight} {means : Means}

/-! ### The numbers of connections -/

/-- A move takes over the next connection, or none. -/
theorem Move.joined {id : PeerId} (move : Move r (some id) s) :
    (s.nextId = r.nextId ∧ joinedIds s.deeds = joinedIds r.deeds) ∨
      (id = r.nextId ∧ s.nextId = r.nextId.next ∧
        joinedIds s.deeds = r.nextId :: joinedIds r.deeds) := by
  cases move with
  | stray unknown => exact Or.inl ⟨rfl, rfl⟩
  | requeue id => exact Or.inl ⟨rfl, rfl⟩
  | call held traffic => exact Or.inl ⟨rfl, joinedIds_quiet Peer.record_quiet⟩
  | pass held known => exact Or.inl ⟨rfl, rfl⟩
  | welcome held introduced admitted new => exact Or.inl ⟨rfl, rfl⟩
  | close held =>
    rw [deeds_closePeer held]
    exact Or.inl ⟨nextId_closePeer r _, rfl⟩
  | insert socket remote direction dialed now =>
    rw [deeds_insertPeer]
    exact Or.inr ⟨rfl, nextId_insertPeer .., rfl⟩
  | @refuse p e info held introduced strange writes =>
    refine Or.inl ?_
    rcases onPeerInfo_strange (r := r.note (.dispatched p.id e)) strange p writes with
      ⟨m, refused⟩ | refused
    · have told := holds_perform (r.note (.dispatched p.id e)) p (.send m writes)
      have gone := congrArg joinedIds (deeds_closePeer (p := p.perform _) told)
      rw [refused]
      exact ⟨nextId_closePeer _ _, gone⟩
    · rw [refused, deeds_closePeer (r := r.note (.dispatched p.id e)) held]
      exact ⟨nextId_closePeer _ _, rfl⟩

theorem Idle.joined (h : Idle r s) : joinedIds s.deeds = joinedIds r.deeds := by
  obtain ⟨new, deeds, quiet⟩ := h.quiet
  rw [deeds, joinedIds_quiet quiet]

/-- Moves on behalf of others than the next connection do not take it over. -/
theorem Moves.joined {who : PeerId → Prop} (moves : Moves who r s) (other : ¬ who r.nextId) :
    s.nextId = r.nextId ∧ joinedIds s.deeds = joinedIds r.deeds := by
  induction moves with
  | refl => exact ⟨rfl, rfl⟩
  | @step _ _ id? _ last allowed ih =>
    cases id? with
    | none => exact ⟨last.idle.nextId.trans ih.1, last.idle.joined.trans ih.2⟩
    | some id =>
      rcases last.joined with ⟨nextId, joined⟩ | ⟨same, -⟩
      · exact ⟨nextId.trans ih.1, joined.trans ih.2⟩
      · rw [ih.1] at same
        exact absurd (same ▸ allowed id rfl) other

/-- The next connection has the number after those that came. -/
structure Numbered (r : Reactor) : Prop where
  consistent : r.Consistent
  number : r.nextId.value = (joinedIds r.deeds).length + 1

theorem kept_numbered : Kept Numbered where
  keyed h := h.consistent.keyed
  wait sight h := ⟨h.consistent.wait sight, h.number⟩
  move h running move := by
    refine ⟨h.consistent.move running move, ?_⟩
    rcases move.joined with ⟨nextId, joined⟩ | ⟨-, nextId, joined⟩
    · rw [nextId, joined]
      exact h.number
    · rw [nextId, joined, List.length_cons, PeerId.next, h.number]
  teardown h := by
    refine ⟨h.consistent.teardown, ?_⟩
    rw [joinedIds_teardown]
    exact h.number
  idle h idle := by
    refine ⟨h.consistent.idle idle, ?_⟩
    rw [idle.nextId, idle.joined]
    exact h.number

/-- The next connection has the number after those that came, throughout runs. -/
theorem numbered_run (config : ReactorConfig) (shared : Shared) (now : Nat)
    (stimuli : List Stimulus) : ((start config shared now).run stimuli).Numbered :=
  kept_numbered.run ⟨consistent_start config shared now, rfl⟩ stimuli

/-! ### A turn of a node with a single connection -/

/-- No other connection has come than the first. -/
structure Sole (r : Reactor) : Prop extends Numbered r where
  sole : ∀ id ∈ joinedIds r.deeds, id = .first

theorem Sole.eq_first (h : r.Sole) {id : PeerId} {p : Peer} (there : r.table.get? id = some p) :
    id = .first := h.sole id (h.consistent.accounted.entered id p there)

/-- A turn in which nothing happens to the connection.  A command may be obeyed that does not take a
connection over, and if it asks for a round of dialing the addresses that are picked are dialed. -/
structure Passes (r s : Reactor) : Prop extends Untouched .first r s where
  joined : joinedIds s.deeds = joinedIds r.deeds
  commands : s.queue.commands = r.queue.commands ∨
    ∃ c, r.queue.commands = c :: s.queue.commands ∧ c.isAdopt = false
  dialing : s.dialing = r.dialing ∨ (.tryConnect ∈ r.queue.commands ∧
    ∃ words, s.dialing = r.dialing ++ r.picks words)

/-- What a turn comes to of a node with a single connection. -/
inductive Happens (r : Reactor) (sight : Sight) (means : Means) : Reactor → Prop
  | passes {s : Reactor} (h : Passes r s) : Happens r sight means s
  /-- A connection that the node has dialed is taken over. -/
  | adopts {socket : SocketId} {remote : SocketAddress} {address : String}
      (commands : r.queue.commands =
        .adopt socket remote address :: (r.wait sight).2.queue.commands) :
    Happens r sight means
      ((r.wait sight).2.insertPeer socket remote .outbound (some address) means.now)
  /-- A connection that the other side has dialed is taken over. -/
  | accepts {socket : SocketId} {remote : SocketAddress}
      (due : (r.wait sight).1 = some (.accept socket remote)) :
    Happens r sight means ((r.wait sight).2.insertPeer socket remote .inbound none means.now)
  /-- The node introduces itself. -/
  | greets {p : Peer} (there : r.table.get? .first = some p)
      (due : (r.wait sight).1 = some (.control (some (.sendHandshake .first)))) :
    Happens r sight means ((r.wait sight).2.greet .first means.writes)
  /-- The peer is served. -/
  | serves {p : Peer} {ready : Readiness} (there : r.table.get? .first = some p)
      (due : (r.wait sight).1 = some (.peer .first ready)) :
    Happens r sight means ((r.wait sight).2.serve .first ready means)

/-- Where no command is due the commands are left as they are. -/
theorem wait_queue (other : ∀ c, (r.wait sight).1 ≠ some (.control c)) :
    (r.wait sight).2.queue = r.queue := by
  rcases r.mux.wait_served r.queue r.owes sight with ⟨c, same, -⟩ | ⟨-, queue, -⟩
  · exact absurd same (other c)
  · exact queue

/-- Nobody is let go who has time left. -/
theorem expireHandshakes_timely {now : Nat} (timely : ∀ id, ¬ r.Overdue now id) :
    r.expireHandshakes now = r := by
  unfold expireHandshakes
  split
  · rfl
  · next limit limited =>
    have nobody : (r.table.entries.filter fun e => isStale limit now e.2) = [] := by
      refine List.filter_eq_nil_iff.2 fun e entered stale => ?_
      exact timely e.1 ⟨limit, e.2, limited, entered, stale⟩
    rw [nobody]
    rfl

/-- A round of dialing gives no commands. -/
theorem queue_tryConnect (r : Reactor) (words : List UInt64) :
    (r.tryConnect words).queue = r.queue := by
  unfold tryConnect
  simp only
  rw [foldl_dial]
  rfl

/-- A turn passes by in which the node just waits. -/
theorem passes_wait (h : r.Consistent)
    (unserved : ∀ ready, (r.wait sight).1 ≠ some (.peer .first ready))
    (uncommanded : ∀ c, (r.wait sight).1 ≠ some (.control c)) : Passes r (r.wait sight).2 where
  toUntouched := wait_untouched h unserved (uncommanded _)
  joined := rfl
  commands := Or.inl (congrArg (·.commands) (wait_queue uncommanded))
  dialing := Or.inl rfl

/-- A turn passes by in which a command comes to nothing. -/
theorem passes_command {c : Command} (quiet : Untouched .first r (r.wait sight).2)
    (due : (r.wait sight).1 = some (.control (some c))) (no_adopt : c.isAdopt = false) :
    Passes r (r.wait sight).2 where
  toUntouched := quiet
  joined := rfl
  commands := Or.inr ⟨c, wait_command due, no_adopt⟩
  dialing := Or.inl rfl

section Turn

variable {unread : Bytes} {ends : Bool}

/-- What a command comes to that is due. -/
theorem Sole.obeys (h : r.Sole) {c : Command}
    (due : (r.wait sight).1 = some (.control (some c)))
    (suits : (Wakeup.control (some c)).Suits .first unread ends r means) :
    Happens r sight means ((r.wait sight).2.obey c means) := by
  have consistent := h.consistent.wait sight
  have unserved : ∀ ready, (r.wait sight).1 ≠ some (.peer .first ready) := by
    intro ready busy
    rw [due] at busy
    cases busy
  have quiet (other : c ≠ .sendHandshake .first) : Untouched .first r (r.wait sight).2 := by
    refine wait_untouched h.consistent unserved fun busy => other ?_
    rw [due] at busy
    cases busy
    rfl
  have absent {id : PeerId} (other : id ≠ .first) : (r.wait sight).2.table.get? id = none := by
    cases there : r.table.get? id with
    | none => exact there
    | some p => exact absurd (h.eq_first there) other
  cases c with
  | shutdown => exact suits.elim
  | closePeer id =>
    show Happens r sight means ((r.wait sight).2.dismiss id means.writes)
    rw [dismiss_unknown (absent suits)]
    exact .passes (passes_command (quiet fun same => by cases same) due rfl)
  | tryConnect =>
    have waited := passes_command (quiet fun same => by cases same) due rfl
    have idle : Idle (r.wait sight).2 ((r.wait sight).2.tryConnect means.words) :=
      (Move.seek means.words).idle
    refine .passes ⟨waited.toUntouched.trans (idle.untouched .first),
      idle.joined.trans waited.joined, Or.inr ⟨.tryConnect, ?_, rfl⟩, Or.inr ⟨?_, means.words, ?_⟩⟩
    · show r.queue.commands =
        .tryConnect :: ((r.wait sight).2.tryConnect means.words).queue.commands
      rw [queue_tryConnect]
      exact wait_command due
    · rw [wait_command due]
      exact List.mem_cons_self
    · exact dialing_tryConnect (r.wait sight).2 means.words
  | adopt socket remote address => exact .adopts (wait_command due)
  | sendHandshake id =>
    by_cases same : id = .first
    · subst same
      cases there : r.table.get? .first with
      | some p => exact .greets there due
      | none =>
        show Happens r sight means ((r.wait sight).2.greet .first means.writes)
        rw [greet_unknown (r := (r.wait sight).2) there]
        exact .passes (passes_command (wait_unknown h.consistent there sight) due rfl)
    · show Happens r sight means ((r.wait sight).2.greet id means.writes)
      rw [greet_unknown (absent same)]
      refine .passes (passes_command (quiet fun equal => same ?_) due rfl)
      cases equal
      rfl

/-- **What happens in a turn of a node with a single connection**, if nothing gets into its way. -/
theorem Sole.happens (h : r.Sole) (running : r.running = true)
    (suits : (Stimulus.turn sight means).Suits .first unread ends r) :
    Happens r sight means (r.turn sight means) := by
  have consistent := h.consistent.wait sight
  cases due : (r.wait sight).1 with
  | none =>
    have other (w : Wakeup) : (r.wait sight).1 ≠ some w := by
      rw [due]
      exact fun impossible => by cases impossible
    rcases turn_cases running sight means consistent.keyed with ⟨-, same⟩ | ⟨w, busy, -⟩
    · rw [same]
      exact .passes (passes_wait h.consistent (fun _ => other _) fun _ => other _)
    · exact absurd busy (other w)
  | some w =>
    have suits' := suits w due
    have other {w' : Wakeup} (different : w' ≠ w) : (r.wait sight).1 ≠ some w' := by
      rw [due]
      exact fun same => different (Option.some.inj same).symm
    rw [turn_eq running due]
    cases w with
    | peer id ready =>
      obtain ⟨p, there⟩ := (h.consistent.isRegistered_iff id).1
        (Multiplexer.wait_watched due)
      have same := h.eq_first there
      subst same
      exact .serves there due
    | control command =>
      cases command with
      | none => exact suits'.elim
      | some c => exact h.obeys due suits'
    | accept socket remote => exact .accepts due
    | acceptFailed why =>
      have waited : Passes r (r.wait sight).2 := passes_wait h.consistent
        (fun _ => other fun same => by cases same) fun _ => other fun same => by cases same
      have idle : Idle (r.wait sight).2 _ := (Move.pause means.now acceptBackoff).idle
      exact .passes { waited with
        toUntouched := waited.toUntouched.trans (idle.untouched .first) }
    | tick =>
      have timely : ∀ id, ¬ (r.wait sight).2.Overdue means.now id := by
        rintro id ⟨limit, p, limited, entered, stale⟩
        have same := h.eq_first (IdMap.mem_entries_iff.1 entered)
        subst same
        exact suits' ⟨limit, p, limited, entered, stale⟩
      show Happens r sight means ((r.wait sight).2.expireHandshakes means.now)
      rw [expireHandshakes_timely timely]
      exact .passes (passes_wait h.consistent (fun _ => other fun same => by cases same)
        fun _ => other fun same => by cases same)
    | failed why => exact suits'.elim
    | acceptResumed =>
      exact .passes (passes_wait h.consistent (fun _ => other fun same => by cases same)
        fun _ => other fun same => by cases same)

end Turn

end Reactor

end GossipNode
