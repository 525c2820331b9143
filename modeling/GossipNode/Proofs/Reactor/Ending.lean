import GossipNode.Proofs.Reactor.Sole
import GossipNode.Proofs.Reactor.Writing

/-!
# How a run comes to its end

As long as somebody is left who could give commands, a run ends by a command, or because waiting has
failed, and by nothing else.  The command waits behind others that were given before, and a turn
that finds nobody put back takes the next one.

## Main definitions

* `Activity` — what a reactor does and what its dials come to.
* `Activity.Steady` — waiting does not fail.
* `Reactor.Extends` — commands are added, and none that ends the run.
* `Reactor.Takes` — what a turn does to the commands.
* `Reactor.GoesOn` — a run, with nothing in it that would end it.
* `Reactor.Doomed` — a run with the command to end behind some others.
* `Reactor.unhindered` — how many turns find nobody put back.
* `Reactor.Placed` — what has become of a connection that was dialed.

## Main results

* `Reactor.turn_takes` — a turn takes no command, or the first one.
* `Reactor.GoesOn.run` — a run goes on by itself, as long as waiting does not fail.
* `Reactor.Doomed.run` — **a run that is told to end comes to its end** once it has had turns enough
  that find nobody put back.
* `Reactor.cleared_run` — when a run has ended no command is left.
* `Reactor.placed_run` — no connection that was dialed is lost.
-/

namespace GossipNode

/-- What goes on in a node between the calls on it. -/
inductive Activity
  /-- Its reactor takes a turn. -/
  | turn (sight : Sight) (means : Means)
  /-- The attempt to dial an address has come to its end. -/
  | dialEnded (address : String) (outcome : Option (SocketId × SocketAddress))

namespace Activity

/-- What happens to the reactor. -/
def stimulus : Activity → Stimulus
  | turn sight means => .turn sight means
  | dialEnded address outcome => .dialEnded address outcome

/-- Whether the reactor takes a turn. -/
def isTurn : Activity → Bool
  | turn .. => true
  | dialEnded .. => false

/-- If it is a turn, every socket can be waited for. -/
def Steady : Activity → Prop
  | turn sight _ => sight.Steady
  | dialEnded .. => True

end Activity

namespace Reactor

variable {r s t : Reactor} {sight : Sight} {means : Means}

/-! ### Commands that are added -/

/-- Commands are added at the end, and none of them ends the run. -/
structure Extends (r s : Reactor) : Prop where
  senders : s.queue.hasSenders = r.queue.hasSenders
  commands : ∃ more, s.queue.commands = r.queue.commands ++ more ∧ .shutdown ∉ more

theorem extends_same (queue : s.queue = r.queue) : Extends r s :=
  ⟨by rw [queue], [], by rw [queue, List.append_nil], List.not_mem_nil⟩

theorem Extends.trans (h : Extends r s) (h' : Extends s t) : Extends r t := by
  obtain ⟨more, added, calm⟩ := h.commands
  obtain ⟨more', added', calm'⟩ := h'.commands
  refine ⟨h'.senders.trans h.senders, more ++ more', ?_, fun last => ?_⟩
  · rw [added', added, List.append_assoc]
  · exact (List.mem_append.1 last).elim calm calm'

theorem extends_command (r : Reactor) {c : Command} (other : c ≠ .shutdown) :
    Extends r (r.command c) :=
  ⟨rfl, [c], rfl, fun last => other (List.mem_singleton.1 last).symm⟩

/-- No move ends the run later on. -/
theorem Move.extends {id? : Option PeerId} (move : Move r id? s) : Extends r s := by
  cases move with
  | @refuse p e info held introduced strange writes =>
    rcases onPeerInfo_strange (r := r.note (.dispatched p.id e)) strange p writes with
      ⟨m, refused⟩ | refused <;>
    · rw [refused]
      exact extends_same (queue_closePeer _ _)
  | close held => exact extends_same (queue_closePeer r _)
  | learn addresses => exact ⟨rfl, [.tryConnect], rfl, by simp⟩
  | seek words => exact extends_same (queue_tryConnect r words)
  | insert socket remote direction dialed now =>
    unfold insertPeer
    simp only
    split
    · exact ⟨rfl, [.sendHandshake r.nextId], rfl, by simp⟩
    · exact extends_same rfl
  | _ => exact extends_same rfl

theorem Moves.extends {who : PeerId → Prop} (moves : Moves who r s) : Extends r s := by
  induction moves with
  | refl => exact extends_same rfl
  | step _ last _ ih => exact ih.trans last.extends

/-! ### Commands that are taken -/

/-- If nobody was put back the next command is due. -/
theorem wait_first {c : Command} {rest : List Command} (nobody : r.mux.pending = [])
    (first : r.queue.commands = c :: rest) : (r.wait sight).1 = some (.control (some c)) := by
  have received : r.queue.receive = some (some c, { r.queue with commands := rest }) := by
    unfold ControlQueue.receive
    rw [first]
  unfold wait Multiplexer.wait
  rw [nobody, Multiplexer.nextPending]
  simp only
  rw [received]

/-- What waiting does to the commands: none is taken, or the first one is. -/
theorem wait_takes (senders : r.queue.hasSenders = true) (sight : Sight) :
    ((∀ c, (r.wait sight).1 ≠ some (.control c)) ∧ (r.wait sight).2.queue = r.queue) ∨
      ∃ c, (r.wait sight).1 = some (.control (some c)) ∧
        r.queue.commands = c :: (r.wait sight).2.queue.commands ∧
        (r.wait sight).2.queue.hasSenders = true := by
  rcases r.wait_commands sight with ⟨c, due, commands, same⟩ | ⟨-, -, deserted, -⟩ | unasked
  · exact Or.inr ⟨c, due, commands, same.trans senders⟩
  · rw [senders] at deserted
    cases deserted
  · exact Or.inl unasked

/-- What a turn does to the commands. -/
inductive Takes (r : Reactor) (sight : Sight) (s : Reactor) : Prop
  /-- None is taken, for somebody was put back if one was due. -/
  | nothing (running : s.running = true) (added : Extends r s)
    (busy : r.queue.commands ≠ [] → r.mux.pending ≠ [])
  /-- The first one is taken, and it does not end the run. -/
  | first {c : Command} {rest more : List Command} (running : s.running = true)
    (due : r.queue.commands = c :: rest) (other : c ≠ .shutdown)
    (senders : s.queue.hasSenders = true) (left : s.queue.commands = rest ++ more)
    (calm : .shutdown ∉ more)
  /-- The first one is taken, and it ends the run. -/
  | last {rest : List Command} (due : r.queue.commands = .shutdown :: rest)
    (ended : s.running = false)
  /-- None is taken, for waiting has failed, which ends the run. -/
  | failed (fault : ¬ sight.Steady) (ended : s.running = false)

/-- **A turn takes no command, or the first one.** -/
theorem turn_takes (h : r.Consistent) (running : r.running = true)
    (senders : r.queue.hasSenders = true) (sight : Sight) (means : Means) :
    Takes r sight (r.turn sight means) := by
  have waited : (r.wait sight).2.running = true := running
  have busy (other : ∀ c, (r.wait sight).1 ≠ some (.control c)) :
      r.queue.commands ≠ [] → r.mux.pending ≠ [] := by
    intro some_due nobody
    obtain ⟨c, rest, commands⟩ := List.exists_cons_of_ne_nil some_due
    exact other _ (wait_first nobody commands)
  rcases turn_cases running sight means (h.wait sight).keyed with
    ⟨quiet, same⟩ | ⟨w, due, ⟨last, same⟩ | ⟨goes_on, moves⟩⟩
  · rcases wait_takes senders sight with ⟨other, queue⟩ | ⟨c, due, -⟩
    · rw [same]
      exact .nothing waited (extends_same queue) (busy other)
    · rw [quiet] at due
      cases due
  · rcases wait_takes senders sight with ⟨other, -⟩ | ⟨c, due', commands, -⟩
    · cases w with
      | control command => exact absurd due (other command)
      | failed why =>
        rw [same]
        exact .failed (fun steady => Multiplexer.wait_steady steady why due) rfl
      | _ => cases last
    · rw [due] at due'
      cases due'
      cases c with
      | shutdown =>
        rw [same]
        exact .last commands rfl
      | _ => cases last
  · have still := moves.keeps.1.trans waited
    obtain ⟨senders', more, added, calm⟩ := moves.extends
    rcases wait_takes senders sight with ⟨other, queue⟩ | ⟨c, due', commands, left⟩
    · refine .nothing still ⟨?_, more, ?_, calm⟩ (busy other)
      · rw [senders', queue]
      · rw [added, queue]
    · rw [due] at due'
      cases due'
      refine .first still commands ?_ (senders'.trans left) added calm
      rintro rfl
      cases goes_on

/-! ### A run that goes on -/

/-- A run with nothing in it that would end it. -/
structure GoesOn (r : Reactor) : Prop where
  consistent : r.Consistent
  running : r.running = true
  senders : r.queue.hasSenders = true
  calm : .shutdown ∉ r.queue.commands

/-- A run goes on when commands are added that do not end it. -/
theorem GoesOn.extends (h : r.GoesOn) (consistent : s.Consistent) (running : s.running = true)
    (added : Extends r s) : s.GoesOn := by
  obtain ⟨senders, more, commands, calm⟩ := added
  refine ⟨consistent, running, senders.trans h.senders, fun last => ?_⟩
  rw [commands] at last
  exact (List.mem_append.1 last).elim h.calm calm

theorem GoesOn.idle (h : r.GoesOn) (idle : Idle r s) (added : Extends r s) : s.GoesOn :=
  h.extends (h.consistent.idle idle) (idle.running.trans h.running) added

/-- What comes of dialing adds a command at most. -/
theorem dialEnded_extends (r : Reactor) (address : String)
    (outcome : Option (SocketId × SocketAddress)) : Extends r (r.dialEnded address outcome) := by
  rcases r.dialEnded_cases address outcome with
    ⟨-, ended⟩ | ⟨socket, remote, -, ⟨-, ended⟩ | ⟨-, ended⟩⟩
  · rw [ended]
    exact extends_same rfl
  · rw [ended]
    exact ⟨rfl, [_], rfl, by simp⟩
  · rw [ended]
    exact extends_same rfl

/-- Nothing that goes on by itself ends the run unless waiting fails, nor does it ask for that. -/
theorem GoesOn.react (h : r.GoesOn) {a : Activity} (steady : a.Steady) :
    (r.react a.stimulus).GoesOn := by
  have consistent := kept_consistent.react h.consistent a.stimulus
  cases a with
  | dialEnded address outcome =>
    exact h.idle (react_idle r nofun) (dialEnded_extends r address outcome)
  | turn sight means =>
    cases turn_takes h.consistent h.running h.senders sight means with
    | nothing running added _ => exact h.extends consistent running added
    | first running due other senders left calm =>
      refine ⟨consistent, running, senders, fun last => ?_⟩
      have before := h.calm
      rw [due] at before
      rw [Activity.stimulus, Reactor.react, left] at last
      rcases List.mem_append.1 last with early | late
      · exact before (List.mem_cons_of_mem _ early)
      · exact calm late
    | last due _ => exact absurd (due ▸ List.mem_cons_self) h.calm
    | failed fault _ => exact absurd steady fault

/-- **A run goes on by itself**, as long as waiting does not fail. -/
theorem GoesOn.run {activities : List Activity} (steady : ∀ a ∈ activities, a.Steady) :
    ∀ {r : Reactor}, r.GoesOn → (r.run (activities.map Activity.stimulus)).GoesOn := by
  induction activities with
  | nil => exact fun h => h
  | cons a activities ih =>
    obtain ⟨first, later⟩ := List.forall_mem_cons.1 steady
    exact fun h => ih later (h.react first)

/-! ### A run that comes to its end -/

theorem react_ended (ended : r.running = false) (stimulus : Stimulus) :
    (r.react stimulus).running = false := by
  cases stimulus with
  | turn sight means =>
    rw [react, turn_ended ended]
    exact ended
  | _ => exact (react_idle r fun _ _ impossible => by cases impossible).running.trans ended

theorem run_ended (stimuli : List Stimulus) : ∀ {r : Reactor}, r.running = false →
    (r.run stimuli).running = false := by
  induction stimuli with
  | nil => exact fun ended => ended
  | cons stimulus stimuli ih => exact fun ended => ih (react_ended ended stimulus)

/-- The command to end the run waits behind some others. -/
structure Doomed (ahead : List Command) (r : Reactor) : Prop where
  consistent : r.Consistent
  senders : r.queue.hasSenders = true
  due : ∃ behind, r.queue.commands = ahead ++ .shutdown :: behind

variable {ahead : List Command}

/-- Adding commands does not put off the end. -/
theorem Doomed.extends (h : Doomed ahead r) (consistent : s.Consistent) (added : Extends r s) :
    Doomed ahead s := by
  obtain ⟨behind, due⟩ := h.due
  obtain ⟨senders, more, commands, -⟩ := added
  refine ⟨consistent, senders.trans h.senders, behind ++ more, ?_⟩
  rw [commands, due, List.append_assoc, List.cons_append]

/-- A turn brings the end nearer unless it finds somebody put back. -/
theorem Doomed.turn (h : Doomed ahead r) (running : r.running = true) (sight : Sight)
    (means : Means) :
    (r.turn sight means).running = false ∨
      (r.mux.pending ≠ [] ∧ Doomed ahead (r.turn sight means)) ∨
      ∃ c rest, ahead = c :: rest ∧ Doomed rest (r.turn sight means) := by
  have consistent : (r.turn sight means).Consistent :=
    kept_consistent.react h.consistent (.turn sight means)
  obtain ⟨behind, due⟩ := h.due
  cases turn_takes h.consistent running h.senders sight means with
  | nothing _ added busy =>
    refine Or.inr (Or.inl ⟨busy ?_, h.extends consistent added⟩)
    rw [due]
    simp
  | @first c rest more _ next other senders left _ =>
    cases ahead with
    | nil =>
      rw [due] at next
      cases next
      exact absurd rfl other
    | cons first ahead =>
      rw [due, List.cons_append, List.cons.injEq] at next
      obtain ⟨-, rfl⟩ := next
      refine Or.inr (Or.inr ⟨first, ahead, rfl, consistent, senders, behind ++ more, ?_⟩)
      rw [left, List.append_assoc, List.cons_append]
  | last _ ended => exact Or.inl ended
  | failed _ ended => exact Or.inl ended

/-- How many turns find nobody put back. -/
def unhindered (r : Reactor) : List Activity → Nat
  | [] => 0
  | a :: rest =>
    (if a.isTurn ∧ r.mux.pending = [] then 1 else 0) + (r.react a.stimulus).unhindered rest

/-- **A run that is told to end comes to its end** when more turns find nobody put back than there
are commands ahead. -/
theorem Doomed.run (activities : List Activity) : ∀ {r : Reactor} {ahead : List Command},
    Doomed ahead r → ahead.length < r.unhindered activities →
      (r.run (activities.map Activity.stimulus)).running = false := by
  -- Every turn that is counted takes one of the commands ahead, and one more ends the run.
  induction activities with
  | nil => exact fun _ enough => absurd enough (Nat.not_lt_zero _)
  | cons a activities ih =>
    intro r ahead h enough
    rw [unhindered] at enough
    rw [List.map_cons, run_cons]
    cases running : r.running with
    | false => exact run_ended _ (react_ended running a.stimulus)
    | true =>
      cases a with
      | dialEnded address outcome =>
        have consistent := kept_consistent.react h.consistent (.dialEnded address outcome)
        refine ih (h.extends consistent (dialEnded_extends r address outcome)) ?_
        rwa [if_neg (fun both => by cases both.1), Nat.zero_add] at enough
      | turn sight means =>
        rcases h.turn running sight means with ended | ⟨busy, same⟩ | ⟨c, rest, rfl, nearer⟩
        · exact run_ended _ ended
        · refine ih same ?_
          rwa [if_neg (fun both => busy both.2), Nat.zero_add] at enough
        · refine ih nearer ?_
          show rest.length < (r.react (Activity.turn sight means).stimulus).unhindered activities
          rw [List.length_cons] at enough
          split at enough <;> omega

/-- When the run has ended no command is left. -/
def Cleared (r : Reactor) : Prop := r.running = false → r.queue.commands = []

theorem Cleared.react (h : r.Cleared) (consistent : r.Consistent) (stimulus : Stimulus) :
    (r.react stimulus).Cleared := by
  intro ended
  cases running : r.running with
  | false =>
    -- Nothing is asked of a run that has ended, and a turn of it does nothing.
    have none_left := h running
    cases stimulus with
    | turn sight means =>
      rw [Reactor.react, turn_ended running]
      exact none_left
    | request q =>
      rw [Reactor.react, if_neg (Bool.eq_false_iff.1 running)]
      exact none_left
    | dialEnded address outcome =>
      rw [Reactor.react]
      rcases r.dialEnded_cases address outcome with
        ⟨-, ended⟩ | ⟨socket, remote, -, ⟨runs, -⟩ | ⟨-, ended⟩⟩
      · rw [ended]
        exact none_left
      · rw [running] at runs
        cases runs
      · rw [ended]
        exact none_left
    | _ => exact none_left
  | true =>
    cases stimulus with
    | turn sight means =>
      rw [Reactor.react] at ended ⊢
      rcases turn_cases running sight means (consistent.wait sight).keyed with
        ⟨-, same⟩ | ⟨w, -, ⟨-, same⟩ | ⟨-, moves⟩⟩
      · rw [same, show (r.wait sight).2.running = true from running] at ended
        cases ended
      · rw [same]
        rfl
      · rw [moves.keeps.1, show (r.wait sight).2.running = true from running] at ended
        cases ended
    | _ =>
      have still := (react_idle r fun _ _ turn => ?_).running.symm.trans ended
      · rw [running] at still
        cases still
      · cases turn

theorem cleared_run (stimuli : List Stimulus) : ∀ {r : Reactor}, r.Consistent → r.Cleared →
    (r.run stimuli).Cleared := by
  induction stimuli with
  | nil => exact fun _ h => h
  | cons stimulus stimuli ih =>
    intro r consistent h
    exact ih (kept_consistent.react consistent stimulus) (h.react consistent stimulus)

/-! ### Connections that were dialed -/

/-- A connection that was dialed waits to be taken over, or has been taken over, or has been
closed. -/
def Placed (socket : SocketId) (r : Reactor) : Prop :=
  (∃ remote dialed, .adopt socket remote dialed ∈ r.queue.commands) ∨
    (∃ p, .joined p ∈ r.deeds ∧ p.socket = socket) ∨ .dropped socket ∈ r.deeds

variable {socket : SocketId}

/-- Nothing is lost where commands and the record only grow. -/
theorem Placed.grow (h : Placed socket r) (queue : ∀ c ∈ r.queue.commands, c ∈ s.queue.commands)
    (deeds : ∀ d ∈ r.deeds, d ∈ s.deeds) : Placed socket s := by
  rcases h with ⟨remote, dialed, waits⟩ | ⟨p, joined, same⟩ | dropped
  · exact Or.inl ⟨remote, dialed, queue _ waits⟩
  · exact Or.inr (Or.inl ⟨p, deeds _ joined, same⟩)
  · exact Or.inr (Or.inr (deeds _ dropped))

theorem Extends.subset (h : Extends r s) : ∀ c ∈ r.queue.commands, c ∈ s.queue.commands := by
  obtain ⟨more, added, -⟩ := h.commands
  intro c waits
  rw [added]
  exact List.mem_append_left more waits

/-- A command that waits goes on waiting, or is the one that is due. -/
theorem wait_waits {c : Command} (waits : c ∈ r.queue.commands) (sight : Sight) :
    c ∈ (r.wait sight).2.queue.commands ∨ (r.wait sight).1 = some (.control (some c)) := by
  rcases r.wait_commands sight with ⟨first, due, commands, -⟩ | ⟨-, -, -, queue⟩ | ⟨-, queue⟩
  · rw [commands] at waits
    rcases List.mem_cons.1 waits with rfl | later
    · exact Or.inr due
    · exact Or.inl later
  · exact Or.inl (queue ▸ waits)
  · exact Or.inl (queue ▸ waits)

/-- When the run ends every connection is closed that waits to be taken over. -/
theorem dropped_teardown {remote : SocketAddress} {dialed : String}
    (waits : .adopt socket remote dialed ∈ r.queue.commands) :
    .dropped socket ∈ r.teardown.deeds := by
  have unclaimed : socket ∈ unclaimedSockets r.queue.commands :=
    List.mem_filterMap.2 ⟨_, waits, rfl⟩
  refine List.mem_append_left _ (List.mem_reverse.2 (List.mem_append_right _ ?_))
  exact List.mem_map_of_mem unclaimed

/-- A turn loses no connection. -/
theorem Placed.turn (h : Placed socket r) (consistent : r.Consistent) (sight : Sight)
    (means : Means) : Placed socket (r.turn sight means) := by
  obtain ⟨new, grown⟩ := deeds_react consistent (.turn sight means)
  have deeds : ∀ d ∈ r.deeds, d ∈ (r.turn sight means).deeds := by
    intro d hd
    rw [show (r.turn sight means).deeds = _ from grown]
    exact List.mem_append_right new hd
  rcases h with ⟨remote, dialed, waits⟩ | ⟨p, joined, same⟩ | dropped
  · by_cases running : r.running = true
    -- The command goes on waiting or is cleared away at the end, or it is taken now.
    · rcases wait_waits waits sight with still | due
      · rcases turn_cases running sight means (consistent.wait sight).keyed with
          ⟨-, same⟩ | ⟨w, -, ⟨-, same⟩ | ⟨-, moves⟩⟩
        · exact Or.inl ⟨remote, dialed, same ▸ still⟩
        · exact Or.inr (Or.inr (same ▸ dropped_teardown still))
        · exact Or.inl ⟨remote, dialed, moves.extends.subset _ still⟩
      · refine Or.inr (Or.inl ⟨(r.wait sight).2.newPeer socket remote .outbound (some dialed)
          means.now, ?_, rfl⟩)
        rw [turn_eq running due, handle, obey, deeds_insertPeer]
        exact List.mem_cons_self
    · rw [turn_ended (Bool.eq_false_iff.2 running)]
      exact Or.inl ⟨remote, dialed, waits⟩
  · exact Or.inr (Or.inl ⟨p, deeds _ joined, same⟩)
  · exact Or.inr (Or.inr (deeds _ dropped))

theorem Placed.react (h : Placed socket r) (consistent : r.Consistent) (a : Activity) :
    Placed socket (r.react a.stimulus) := by
  cases a with
  | turn sight means => exact h.turn consistent sight means
  | dialEnded address outcome =>
    obtain ⟨new, grown⟩ := deeds_react consistent (.dialEnded address outcome)
    refine h.grow (dialEnded_extends r address outcome).subset fun d hd => ?_
    rw [show (r.react (Activity.dialEnded address outcome).stimulus).deeds = _ from grown]
    exact List.mem_append_right new hd

/-- A connection that dialing has come to waits to be taken over, or is closed at once. -/
theorem placed_dialEnded (r : Reactor) (address : String) (socket : SocketId)
    (remote : SocketAddress) : Placed socket (r.dialEnded address (some (socket, remote))) := by
  rcases r.dialEnded_cases address (some (socket, remote)) with
    ⟨none_made, -⟩ | ⟨_, _, made, ⟨-, ended⟩ | ⟨-, ended⟩⟩
  · cases none_made
  · cases made
    rw [ended]
    exact Or.inl ⟨remote, address, List.mem_append_right _ List.mem_cons_self⟩
  · cases made
    rw [ended]
    exact Or.inr (Or.inr List.mem_cons_self)

/-- **No connection that was dialed is lost**, neither one that waits to be taken over nor one that
dialing comes to later. -/
theorem placed_run (activities : List Activity) : ∀ {r : Reactor}, r.Consistent →
    (Placed socket r ∨ ∃ address remote, .dialEnded address (some (socket, remote)) ∈ activities) →
      Placed socket (r.run (activities.map Activity.stimulus)) := by
  induction activities with
  | nil =>
    rintro r - (h | ⟨address, remote, impossible⟩)
    · exact h
    · cases impossible
  | cons a activities ih =>
    intro r consistent h
    refine ih (kept_consistent.react consistent a.stimulus) ?_
    rcases h with placed | ⟨address, remote, member⟩
    · exact Or.inl (placed.react consistent a)
    · rcases List.mem_cons.1 member with rfl | later
      · exact Or.inl (placed_dialEnded r address socket remote)
      · exact Or.inr ⟨address, remote, later⟩

end Reactor

end GossipNode
