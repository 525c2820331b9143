import GossipNode.Proofs.Multiplexer
import GossipNode.Proofs.Reactor.Moves

/-!
# Runs

A run of a reactor is any sequence of turns, with whatever the outside does in them and between
them: it asks for things, begins and ends dialing, and listens.

## Main definitions

* `Request`, `Stimulus`, `Reactor.react` — what can happen to a reactor.
* `Reactor.run` — a run.
* `SocketAddress.elsewhere` — where somebody comes from, in examples of runs.
* `Deed.about` — the connection that something on record is about.
* `Reactor.Idle` — nothing happens to connections.
* `Reactor.Kept` — what a property needs to hold throughout runs.

## Main results

* `Reactor.turn_cases` — what a turn comes to.
* `Reactor.Kept.run` — **what waiting, every move, the end of a run and the outside keep is kept by
  runs.**
-/

namespace GossipNode

/-- What a running node can be asked for from outside. -/
inductive Request
  | shutdown
  | closePeer (id : PeerId)
  | tryConnect
  | adopt (socket : SocketId) (remote : SocketAddress) (dialed : String)

/-- The command a request becomes. -/
def Request.command : Request → Command
  | shutdown => .shutdown
  | closePeer id => .closePeer id
  | tryConnect => .tryConnect
  | adopt socket remote dialed => .adopt socket remote dialed

/-- What can happen to a reactor. -/
inductive Stimulus
  /-- It takes a turn. -/
  | turn (sight : Sight) (means : Means)
  /-- Something is asked for. -/
  | request (q : Request)
  /-- Nobody is left who could ask for anything. -/
  | desertion
  /-- An address begins to be dialed. -/
  | dial (address : String)
  /-- The attempt to dial an address has come to its end. -/
  | dialEnded (address : String) (outcome : Option (SocketId × SocketAddress))
  /-- All that is being dialed is given up. -/
  | dialsAbandoned
  /-- A listener is added. -/
  | listen (label : String) (answer : List Event → Event → Bool)

namespace Reactor

/-- What a reactor makes of what happens to it. -/
def react (r : Reactor) : Stimulus → Reactor
  | .turn sight means => r.turn sight means
  | .request q => if r.running then r.command q.command else r
  | .desertion => { r with queue := r.queue.dropSenders }
  | .dial address => r.dial address
  | .dialEnded address outcome => r.dialEnded address outcome
  | .dialsAbandoned => { r with dialing := [] }
  | .listen label answer =>
    { r with shared := { r.shared with listeners := r.shared.listeners.register label answer } }

/-- A run. -/
def run (r : Reactor) (stimuli : List Stimulus) : Reactor := stimuli.foldl react r

@[simp] theorem run_nil (r : Reactor) : r.run [] = r := rfl

@[simp] theorem run_cons (r : Reactor) (s : Stimulus) (stimuli : List Stimulus) :
    r.run (s :: stimuli) = (r.react s).run stimuli := rfl

theorem run_append (r : Reactor) (stimuli more : List Stimulus) :
    r.run (stimuli ++ more) = (r.run stimuli).run more := List.foldl_append

end Reactor

/-- An address from which somebody may come. -/
def SocketAddress.elsewhere : SocketAddress := ⟨.v4 ⟨10, 0, 0, 1⟩, 5000⟩

/-! ### What does not concern connections -/

/-- The connection that something on record is about. -/
def Deed.about : Deed → Option PeerId
  | .notified (.peerWelcome id) _ | .notified (.peerClose id) _ => some id
  | .joined p | .retired p => some p.id
  | .sent id _ | .wrote id _ | .read id _ | .dispatched id _ => some id
  | .notified _ _ | .dialed _ | .dropped _ => none

namespace Reactor

/-- Nothing happens to connections: no peer comes, goes or changes, and what is put on record is
about none. -/
structure Idle (r s : Reactor) : Prop where
  config : s.config = r.config
  table : s.table = r.table
  sockets : s.mux.sockets = r.mux.sockets
  pending : s.mux.pending = r.mux.pending
  nextId : s.nextId = r.nextId
  running : s.running = r.running
  commands : ∃ new, s.queue.commands = r.queue.commands ++ new ∧ ∀ id, .sendHandshake id ∉ new
  deeds : ∃ new, s.deeds = new ++ r.deeds ∧ ∀ d ∈ new, d.about = none

theorem Idle.refl (r : Reactor) : Idle r r where
  config := rfl
  table := rfl
  sockets := rfl
  pending := rfl
  nextId := rfl
  running := rfl
  commands := ⟨[], (List.append_nil _).symm, fun _ => List.not_mem_nil⟩
  deeds := ⟨[], rfl, fun _ h => absurd h List.not_mem_nil⟩

theorem Idle.trans {r s t : Reactor} (h : Idle r s) (h' : Idle s t) : Idle r t := by
  obtain ⟨cs, hcs, quiet⟩ := h.commands
  obtain ⟨cs', hcs', quiet'⟩ := h'.commands
  obtain ⟨ds, hds, about⟩ := h.deeds
  obtain ⟨ds', hds', about'⟩ := h'.deeds
  refine ⟨h'.config.trans h.config, h'.table.trans h.table, h'.sockets.trans h.sockets,
    h'.pending.trans h.pending, h'.nextId.trans h.nextId, h'.running.trans h.running,
    ⟨cs ++ cs', ?_, fun id hid => ?_⟩, ds' ++ ds, ?_, fun d hd => ?_⟩
  · rw [hcs', hcs, List.append_assoc]
  · exact (List.mem_append.1 hid).elim (quiet id) (quiet' id)
  · rw [hds', hds, List.append_assoc]
  · exact (List.mem_append.1 hd).elim (about' d) (about d)

theorem idle_command (r : Reactor) {c : Command} (h : ∀ id, c ≠ .sendHandshake id) :
    Idle r (r.command c) :=
  { Idle.refl r with commands := ⟨[c], rfl, fun id hid => h id (List.mem_singleton.1 hid).symm⟩ }

theorem idle_note (r : Reactor) {d : Deed} (h : d.about = none) : Idle r (r.note d) :=
  { Idle.refl r with deeds := ⟨[d], rfl, fun _ hd => List.mem_singleton.1 hd ▸ h⟩ }

theorem idle_dialing (r : Reactor) (dialing : List String) : Idle r { r with dialing } :=
  { Idle.refl r with }

theorem idle_listeners (r : Reactor) (listeners : Registry String) :
    Idle r { r with shared := { r.shared with listeners } } :=
  { Idle.refl r with }

theorem idle_pool (r : Reactor) (pool : AddressPool) :
    Idle r { r with shared := { r.shared with pool } } :=
  { Idle.refl r with }

theorem idle_notify (r : Reactor) {event : Event}
    (h : ∀ audience, (Deed.notified event audience).about = none) : Idle r (r.notify event) :=
  (idle_listeners r _).trans (idle_note _ (h _))

theorem idle_dial (r : Reactor) (address : String) : Idle r (r.dial address) :=
  (idle_dialing r _).trans (idle_note _ rfl)

/-- To dial some addresses adds them to those that are being dialed and puts them on record; nothing
else changes. -/
theorem foldl_dial (addresses : List String) : ∀ r : Reactor, addresses.foldl dial r =
    { r with
      dialing := r.dialing ++ addresses
      deeds := (addresses.map Deed.dialed).reverse ++ r.deeds } := by
  induction addresses with
  | nil => intro r; simp
  | cons a addresses ih =>
    intro r
    rw [List.foldl_cons, ih]
    simp [dial, note]

theorem idle_foldl_dial (addresses : List String) (r : Reactor) :
    Idle r (addresses.foldl dial r) := by
  rw [foldl_dial]
  refine { Idle.refl r with deeds := ⟨_, rfl, ?_⟩ }
  intro d member
  obtain ⟨a, -, rfl⟩ := List.mem_map.1 (List.mem_reverse.1 member)
  rfl

/-- What is on behalf of no peer does not concern connections. -/
theorem Move.idle {r s : Reactor} (h : Move r none s) : Idle r s := by
  cases h with
  | learn addresses =>
    exact (idle_pool r _).trans (idle_command _ fun _ h => by cases h)
  | seek words =>
    exact (idle_notify r fun _ => rfl).trans ((idle_pool _ _).trans (idle_foldl_dial _ _))
  | pause now limit => exact { Idle.refl r with }

/-- No move ends the run, and none changes the configuration. -/
theorem Move.keeps {r s : Reactor} {id? : Option PeerId} (h : Move r id? s) :
    s.running = r.running ∧ s.config = r.config := by
  cases h with
  | learn addresses => exact ⟨rfl, rfl⟩
  | seek words => exact ⟨(Move.seek words).idle.running, (Move.seek words).idle.config⟩
  | pause now limit => exact ⟨rfl, rfl⟩
  | close held => exact ⟨running_closePeer r _, config_closePeer r _⟩
  | insert socket remote direction dialed now =>
    exact ⟨running_insertPeer .., config_insertPeer ..⟩
  | @refuse p e info held introduced strange writes =>
    rcases onPeerInfo_strange (r := r.note (.dispatched p.id e)) strange p writes with
      ⟨m, refused⟩ | refused <;>
    · rw [refused]
      exact ⟨running_closePeer _ _, config_closePeer _ _⟩
  | _ => exact ⟨rfl, rfl⟩

theorem Moves.keeps {who : PeerId → Prop} {r s : Reactor} (h : Moves who r s) :
    s.running = r.running ∧ s.config = r.config := by
  induction h with
  | refl => exact ⟨rfl, rfl⟩
  | step _ last _ ih => exact ⟨last.keeps.1.trans ih.1, last.keeps.2.trans ih.2⟩

/-- An address is no longer being dialed when dialing it has come to its end.  A connection that was
made waits to be taken over, or is closed if the run has ended. -/
theorem dialEnded_cases (r : Reactor) (address : String)
    (outcome : Option (SocketId × SocketAddress)) :
    (outcome = none ∧
        r.dialEnded address outcome = { r with dialing := r.dialing.erase address }) ∨
      ∃ socket remote, outcome = some (socket, remote) ∧
        ((r.running = true ∧ r.dialEnded address outcome =
            command { r with dialing := r.dialing.erase address } (.adopt socket remote address)) ∨
          (r.running = false ∧ r.dialEnded address outcome =
            note { r with dialing := r.dialing.erase address } (.dropped socket))) := by
  cases outcome with
  | none => exact Or.inl ⟨rfl, rfl⟩
  | some connection =>
    refine Or.inr ⟨connection.1, connection.2, rfl, ?_⟩
    by_cases running : r.running = true
    · exact Or.inl ⟨running, if_pos running⟩
    · exact Or.inr ⟨Bool.eq_false_iff.2 running, if_neg running⟩

/-- What the outside does between turns does not concern connections. -/
theorem react_idle (r : Reactor) {s : Stimulus} (h : ∀ sight means, s ≠ .turn sight means) :
    Idle r (r.react s) := by
  cases s with
  | turn sight means => exact absurd rfl (h sight means)
  | request q =>
    simp only [react]
    split
    · exact idle_command r fun id hid => by cases q <;> cases hid
    · exact Idle.refl r
  | desertion => exact { Idle.refl r with }
  | dial address => exact idle_dial r address
  | dialEnded address outcome =>
    rw [react]
    refine (idle_dialing r (r.dialing.erase address)).trans ?_
    rcases r.dialEnded_cases address outcome with
      ⟨-, ended⟩ | ⟨socket, remote, -, ⟨-, ended⟩ | ⟨-, ended⟩⟩
    · exact ended ▸ Idle.refl _
    · exact ended ▸ idle_command _ fun _ h => by cases h
    · exact ended ▸ idle_note _ rfl
  | dialsAbandoned => exact idle_dialing r []
  | listen label answer => exact idle_listeners r _

/-! ### Turns -/

/-- What is due in a turn is served. -/
theorem turn_eq {r : Reactor} (running : r.running = true) {sight : Sight} {w : Wakeup}
    (due : (r.wait sight).1 = some w) (means : Means) :
    r.turn sight means = (r.wait sight).2.handle w means := by
  unfold turn
  rw [if_pos running]
  generalize r.wait sight = waited at due
  obtain ⟨w', r'⟩ := waited
  subst due
  rfl

/-- What a turn of a running reactor comes to: nothing is due, the run ends, or something is served
by moves on behalf of those concerned. -/
theorem turn_cases {r : Reactor} (running : r.running = true) (sight : Sight) (means : Means)
    (keyed : (r.wait sight).2.Keyed) :
    ((r.wait sight).1 = none ∧ r.turn sight means = (r.wait sight).2) ∨
      ∃ w, (r.wait sight).1 = some w ∧
        ((w.ends = true ∧ r.turn sight means = (r.wait sight).2.teardown) ∨
          (w.ends = false ∧
            Moves ((r.wait sight).2.concerns means w) (r.wait sight).2 (r.turn sight means))) := by
  unfold turn
  rw [if_pos running]
  generalize hwait : r.wait sight = waited at keyed
  obtain ⟨_ | w, r'⟩ := waited
  · exact Or.inl ⟨rfl, rfl⟩
  · refine Or.inr ⟨w, rfl, ?_⟩
    cases h : w.ends with
    | true => exact Or.inl ⟨rfl, handle_ends h r' means⟩
    | false => exact Or.inr ⟨rfl, handle_moves keyed h means⟩

/-- A reactor that has ended does nothing. -/
theorem turn_ended {r : Reactor} (ended : r.running = false) (sight : Sight) (means : Means) :
    r.turn sight means = r := by
  unfold turn
  rw [ended]
  rfl

/-- What a property needs to hold throughout runs. -/
structure Kept (P : Reactor → Prop) : Prop where
  keyed : ∀ {r}, P r → r.Keyed
  wait : ∀ {r} (sight : Sight), P r → P (r.wait sight).2
  move : ∀ {r s id}, P r → r.running = true → Move r (some id) s → P s
  teardown : ∀ {r}, P r → P r.teardown
  idle : ∀ {r s}, P r → Idle r s → P s

namespace Kept

variable {P : Reactor → Prop}

theorem moves (h : Kept P) {who : PeerId → Prop} {r s : Reactor} (start : P r)
    (running : r.running = true) (moves : Moves who r s) : P s := by
  induction moves with
  | refl => exact start
  | @step _ _ id? earlier last _ ih =>
    cases id? with
    | none => exact h.idle ih last.idle
    | some id => exact h.move ih (earlier.keeps.1.trans running) last

theorem turn (h : Kept P) {r : Reactor} (start : P r) (sight : Sight) (means : Means) :
    P (r.turn sight means) := by
  by_cases running : r.running = true
  · have waited := h.wait sight start
    rcases turn_cases running sight means (h.keyed waited) with
      ⟨-, quiet⟩ | ⟨w, -, ⟨-, ended⟩ | ⟨-, served⟩⟩
    · exact quiet ▸ waited
    · exact ended ▸ h.teardown waited
    · exact h.moves waited running served
  · rw [turn_ended (Bool.eq_false_iff.2 running)]
    exact start

theorem react (h : Kept P) {r : Reactor} (start : P r) (s : Stimulus) : P (r.react s) := by
  cases s with
  | turn sight means => exact h.turn start sight means
  | _ => exact h.idle start (react_idle r fun _ _ impossible => by cases impossible)

/-- **What waiting, every move, the end of a run and the outside keep is kept by runs.** -/
theorem run (h : Kept P) {r : Reactor} (start : P r) (stimuli : List Stimulus) :
    P (r.run stimuli) := by
  induction stimuli generalizing r with
  | nil => exact start
  | cons s stimuli ih => exact ih (h.react start s)

end Kept

end Reactor

end GossipNode
