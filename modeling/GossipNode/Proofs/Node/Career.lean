import GossipNode.Proofs.Node.Lifecycle
import GossipNode.Proofs.Reactor.Arrivals

/-!
# The connections of a node over its life

A node gives its connections numbers, by which it is asked to close them, and by which it tells that
they have come to be ready or are closed.  Every run counts its connections from one on, whatever
earlier runs have counted.  So within a run a number is one connection and stays it, and in a later
run it is another.

## Main definitions

* `Node.left` — the run that ends when something happens to a node.
* `Node.Career` — the life of a node, with the runs that have ended.
* `Node.Stems` — a run that an earlier one has become, or that has begun afresh.
* `Node.runs`, `Node.connections` — the runs of a node and its connections, over its life.
* `Node.Numbering` — how a node numbers its connections.

## Main results

* `Node.stems_after` — what happens to a node goes on with its run, or begins another.
* `Node.Career.keeps` — **what holds when a run begins and is kept by runs holds of every run of a
  life.**
* `Node.numbering_of_life` — **a number is one connection of one run**: over a whole life the
  numbers rise just if no more than one run has had connections.
* `Node.exists_renumbered` — a number may come again, and then the later connection is closed by who
  means the earlier one.
-/

namespace GossipNode

namespace Node

variable {n : Node} {config : NodeConfig} {random : Int32} {past : List Reactor}

/-! ### Lives -/

/-- The run that ends when something happens to a node: that of a node which is stopped, or one that
has come to its end by itself and is cleared away when the node is started again. -/
def left (n : Node) : Happening → List Reactor
  | .start .. => if n.isRunning then [] else n.reactor?.toList
  | .stop meanwhile => (n.halt.proceed meanwhile).reactor?.toList
  | _ => []

/-- A node to which anything has happened, with its runs that have ended, as they were at their end
and the first of them first. -/
inductive Career (config : NodeConfig) (random : Int32) : List Reactor → Node → Prop
  | new : Career config random [] (.new config random)
  | after {past : List Reactor} {n : Node} (earlier : Career config random past n) (h : Happening)
    (ends : n.Completes h) : Career config random (past ++ n.left h) (n.after h)

/-- Whatever has happened to a node, some runs have ended before. -/
theorem Lived.career (lived : Lived config random n) : ∃ past, Career config random past n := by
  induction lived with
  | new => exact ⟨[], .new⟩
  | after _ h _ ends ih =>
    obtain ⟨past, career⟩ := ih
    exact ⟨_, career.after h ends⟩

/-! ### What a run becomes -/

theorem foldl_dial_eq_run (addresses : List String) (r : Reactor) :
    addresses.foldl Reactor.dial r = r.run (addresses.map Stimulus.dial) := by
  rw [Reactor.run, List.foldl_map]
  rfl

/-- The run of a node, if it has one, has gone on. -/
def Continues (n n' : Node) : Prop := ∃ stimuli, n'.reactor? = n.reactor?.map (·.run stimuli)

theorem Continues.trans {n n' n'' : Node} (h : Continues n n') (h' : Continues n' n'') :
    Continues n n'' := by
  obtain ⟨stimuli, same⟩ := h
  obtain ⟨more, same'⟩ := h'
  refine ⟨stimuli ++ more, ?_⟩
  rw [same', same, Option.map_map]
  exact congrArg (Option.map · n.reactor?) (funext fun r => (r.run_append stimuli more).symm)

/-- What is asked of a reactor is a part of its run if that is so for every reactor. -/
theorem continues_ask {α : Type} {request : Reactor → Except PeerError α × Reactor}
    (stimuli : List Stimulus) (asked : ∀ r, (request r).2 = r.run stimuli) (n : Node) :
    Continues n (n.ask request).2 := by
  refine ⟨stimuli, ?_⟩
  obtain ⟨config, uid, shared | ⟨r, address⟩⟩ := n
  · rfl
  · exact congrArg some (asked r)

theorem continues_sendCommand (n : Node) (q : Request) :
    Continues n (n.sendCommand q.command).2 := by
  refine continues_ask [.request q] (fun r => ?_) n
  rw [Reactor.run_cons, Reactor.run_nil, Reactor.react]
  split <;> rfl

theorem continues_connect (n : Node) (address : String) (attempt : Endpoint → Attempt) :
    Continues n (n.connect address attempt).2 := by
  obtain ⟨config, uid, shared | ⟨r, listening⟩⟩ := n
  · exact ⟨[], rfl⟩
  · have handed : (Node.connect ⟨config, uid, .running r listening⟩ address attempt).2.reactor? =
        some { r with
          queue := (handOver r.running r.queue address (dial address attempt)).2 } := rfl
    rcases handOver_queue r.running r.queue address (dial address attempt) with
      same | ⟨running, socket, remote, added⟩
    · rw [same] at handed
      exact ⟨[], handed⟩
    · rw [added] at handed
      refine ⟨[.request (.adopt socket remote address)], handed.trans (congrArg some ?_)⟩
      simp only [Reactor.run_cons, Reactor.run_nil, Reactor.react]
      rw [if_pos running]
      rfl

theorem continues_halt (n : Node) : Continues n n.halt := by
  obtain ⟨config, uid, shared | ⟨r, address⟩⟩ := n
  · exact ⟨[], rfl⟩
  · refine ⟨[.dialsAbandoned, .request .shutdown], ?_⟩
    simp only [halt, reactor?, Option.map_some, Reactor.run_cons, Reactor.run_nil, Reactor.react]
    rfl

theorem continues_proceed (n : Node) (activities : List Activity) :
    Continues n (n.proceed activities) := by
  obtain ⟨config, uid, shared | ⟨r, address⟩⟩ := n
  · exact ⟨[], rfl⟩
  · exact ⟨activities.map Activity.stimulus, rfl⟩

/-- A run that is what the run of a node has become, or has begun afresh. -/
inductive Stems (n : Node) : Reactor → Prop
  | on {r : Reactor} (before : n.reactor? = some r) (stimuli : List Stimulus) :
    Stems n (r.run stimuli)
  | new (config : ReactorConfig) (shared : Shared) (now : Nat) (stimuli : List Stimulus) :
    Stems n ((Reactor.start config shared now).run stimuli)

theorem Continues.stems {n n' : Node} (h : Continues n n') {r : Reactor}
    (runs : n'.reactor? = some r) : Stems n r := by
  obtain ⟨stimuli, same⟩ := h
  rw [same] at runs
  obtain ⟨s, before, rfl⟩ := Option.map_eq_some_iff.1 runs
  exact .on before stimuli

/-- Whatever a start leaves or begins. -/
theorem stems_start (n : Node) (now : Nat) (find : Resolver)
    (bind : SocketAddress → Except IoError SocketAddress) {r : Reactor}
    (runs : (n.start now find bind).2.reactor? = some r) : Stems n r := by
  rcases n.start_cases now find bind with ⟨-, same⟩ | ⟨-, stopped | ⟨address, begun⟩⟩
  · rw [same] at runs
    exact .on runs []
  · rw [stopped] at runs
    cases runs
  · rw [begun] at runs
    cases runs
    rw [launched, foldl_dial_eq_run]
    exact .new _ _ now _

/-- To clear a reactor away leaves a run as it is, or leaves none. -/
theorem reactor?_join {r : Reactor} (runs : n.join.reactor? = some r) : n.reactor? = some r := by
  unfold join at runs
  split at runs
  · split at runs
    · exact runs
    · cases runs
  · exact runs

/-- **What happens to a node goes on with its run, or begins another one.** -/
theorem stems_after (n : Node) (h : Happening) {r : Reactor}
    (runs : r ∈ n.left h ∨ (n.after h).reactor? = some r) : Stems n r := by
  have kept (continues : Continues n (n.after h)) (none_left : n.left h = []) : Stems n r := by
    rcases runs with ended | goes_on
    · rw [none_left] at ended
      cases ended
    · exact continues.stems goes_on
  cases h with
  | start now find bind =>
    rcases runs with ended | goes_on
    · rw [left] at ended
      split at ended
      · cases ended
      · exact .on (Option.mem_toList.1 ended) []
    · exact stems_start n now find bind goes_on
  | stop meanwhile =>
    have told := n.continues_halt.trans (n.halt.continues_proceed meanwhile)
    exact told.stems (runs.elim Option.mem_toList.1 reactor?_join)
  | setListenPort port =>
    refine kept ⟨[], ?_⟩ rfl
    show (n.setListenPort port).2.reactor? = _
    unfold Node.setListenPort
    split <;> exact (Option.map_id' ..).symm
  | setBootstrap addresses => exact kept ⟨[], (Option.map_id' ..).symm⟩ rfl
  | connect address attempt => exact kept (n.continues_connect address attempt) rfl
  | asyncConnect address => exact kept (continues_ask [.dial address] (fun _ => rfl) n) rfl
  | disconnect id => exact kept (n.continues_sendCommand (.closePeer id)) rfl
  | tryConnect => exact kept (n.continues_sendCommand .tryConnect) rfl
  | register label answer =>
    refine kept ⟨[.listen label answer], ?_⟩ rfl
    obtain ⟨config, uid, shared | ⟨s, address⟩⟩ := n <;> rfl
  | proceed activities => exact kept (n.continues_proceed activities) rfl

/-- The runs of a node, first those that have ended. -/
def runs (past : List Reactor) (n : Node) : List Reactor := past ++ n.reactor?.toList

theorem mem_runs {r : Reactor} : r ∈ runs past n ↔ r ∈ past ∨ n.reactor? = some r := by
  rw [runs, List.mem_append, Option.mem_toList]

/-- **What holds when a run begins and is kept by runs holds of every run of a life.** -/
theorem Career.keeps {P : Reactor → Prop}
    (fresh : ∀ config shared now, P (Reactor.start config shared now))
    (kept : ∀ r stimuli, P r → P (r.run stimuli)) (career : Career config random past n) :
    ∀ r ∈ runs past n, P r := by
  induction career with
  | new => exact fun _ impossible => by cases impossible
  | @after past n earlier h ends ih =>
    intro r member
    rw [mem_runs, List.mem_append, or_assoc] at member
    rcases member with before | latest
    · exact ih r (mem_runs.2 (Or.inl before))
    · cases stems_after n h latest with
      | on before stimuli => exact kept _ stimuli (ih _ (mem_runs.2 (Or.inr before)))
      | new config shared now stimuli => exact kept _ stimuli (fresh config shared now)

/-- In every run of a life numbers are places, and once it has ended no command is left. -/
theorem Career.denoted (career : Career config random past n) :
    ∀ r ∈ runs past n, r.Denoted ∧ r.Cleared := by
  refine career.keeps (fun config shared now => ⟨Reactor.denoted_start config shared now, nofun⟩) ?_
  intro r stimuli ⟨denoted, cleared⟩
  exact ⟨Reactor.kept_denoted.run denoted stimuli,
    Reactor.cleared_run stimuli denoted.consistent cleared⟩

/-! ### Numbers over a life -/

/-- The connections of a node over its life, in the order in which they came, each as it was when it
came. -/
def connections (past : List Reactor) (n : Node) : List Peer :=
  (runs past n).flatMap fun r => joinedPeers r.deeds

/-- Counts that each begin with one rise throughout just if no more than one of them has begun. -/
theorem pairwise_flatMap_upTo (counts : List Nat) :
    (counts.flatMap PeerId.upTo).Pairwise (· < ·) ↔ counts.countP (0 < ·) ≤ 1 := by
  induction counts with
  | nil => simp
  | cons k counts ih =>
    rw [List.flatMap_cons, List.pairwise_append, ih]
    rcases Nat.eq_zero_or_pos k with rfl | (begun : 0 < k)
    · rw [List.countP_cons_of_neg (by decide)]
      simp [PeerId.upTo]
    · have first {m : Nat} (positive : 0 < m) : (⟨1⟩ : PeerId) ∈ PeerId.upTo m :=
        List.mem_map.mpr ⟨0, List.mem_range.mpr positive, rfl⟩
      have one_more : (k :: counts).countP (0 < ·) = counts.countP (0 < ·) + 1 :=
        List.countP_cons_of_pos (decide_eq_true begun)
      rw [one_more, show counts.countP (0 < ·) + 1 ≤ 1 ↔ counts.countP (0 < ·) = 0 by omega,
        List.countP_eq_zero]
      constructor
      · rintro ⟨-, -, apart⟩ m member positive
        -- Another count begins with one as well.
        have again : (⟨1⟩ : PeerId) ∈ counts.flatMap PeerId.upTo :=
          List.mem_flatMap.mpr ⟨m, member, first (of_decide_eq_true positive)⟩
        exact absurd (apart _ (first begun) _ again) (Nat.lt_irrefl 1)
      · intro none_begun
        have nothing : counts.flatMap PeerId.upTo = [] := by
          refine List.flatMap_eq_nil_iff.mpr fun m member => ?_
          have zero : m = 0 := by
            have := none_begun m member
            simpa using this
          rw [zero]
          rfl
        refine ⟨PeerId.pairwise_upTo k, ?_, fun _ _ _ impossible => ?_⟩
        · rw [List.countP_eq_zero.mpr none_begun]
          exact Nat.zero_le 1
        · rw [nothing] at impossible
          cases impossible

/-- How a node numbers its connections. -/
structure Numbering (past : List Reactor) (n : Node) : Prop where
  /-- Every run gives its connections the numbers from one on, in the order in which they come. -/
  counted : ∀ r ∈ runs past n,
    (joinedPeers r.deeds).map (·.id) = PeerId.upTo (joinedPeers r.deeds).length
  /-- Over the whole life the numbers rise just if no more than one run has had connections. -/
  rising : ((connections past n).map (·.id)).Pairwise (· < ·) ↔
    (runs past n).countP (fun r => 0 < (joinedPeers r.deeds).length) ≤ 1
  /-- Whoever is there or has gone under a number in a run is who came at that place in the run. -/
  arrived : ∀ r ∈ runs past n, ∀ id p, r.Known id p →
    p.id = id ∧ (joinedPeers r.deeds)[id.value - 1]? = some p.arrival
  /-- All that is told of a number in a run is told of somebody who came in it. -/
  told : ∀ r ∈ runs past n, ∀ d ∈ r.deeds, ∀ id, d.about = some id →
    ∃ p ∈ joinedPeers r.deeds, p.id = id
  /-- Whatever happens in a run, those who have come stay the first to have come. -/
  stays : ∀ r, n.reactor? = some r → ∀ stimuli,
    joinedPeers r.deeds <+: joinedPeers (r.run stimuli).deeds
  /-- To ask for a connection to be closed is to command the run that goes on; one that has ended
  takes up no more commands. -/
  disconnect : ∀ r, n.reactor? = some r → ∀ id,
    (n.disconnect id).2.reactor? = some (if r.running then r.command (.closePeer id) else r)
  /-- When the command is obeyed, whoever has come at that place in the run is let go if it is
  there, and nobody else. -/
  closes : ∀ r, n.reactor? = some r → ∀ id sight means,
    (r.wait sight).1 = some (.control (some (.closePeer id))) → ∀ k,
      (r.turn sight means).table.get? k = if id = k then none else r.table.get? k

/-- Taking leave of a peer lets it go, and nobody else. -/
theorem get?_dismiss {r : Reactor} (keyed : r.Keyed) (id k : PeerId)
    (writes : List WriteOutcome) :
    (r.dismiss id writes).table.get? k = if id = k then none else r.table.get? k := by
  cases there : r.table.get? id with
  | none =>
    rw [Reactor.dismiss_unknown there]
    split
    · next same => exact same ▸ there
    · rfl
  | some p =>
    have same : p.id = id := keyed id p there
    subst same
    rw [Reactor.dismiss_eq there, Reactor.get?_closePeer, Reactor.get?_perform]
    split
    · rfl
    · rfl

/-- **A number is one connection of one run.**  Every run of a node numbers its connections from one
on, in the order in which they come, and whatever is known under a number in a run is the connection
that came at that place.  So over a whole life the numbers rise just if no more than one run has had
connections; and to ask for a number to be closed closes the connection that came at that place in
the run that goes on, whichever run the number is from. -/
theorem numbering_of_life {config : NodeConfig} {random : Int32} {past : List Reactor} {n : Node}
    (career : Career config random past n) : Numbering past n := by
  have denoted : ∀ r ∈ runs past n, r.Denoted := fun r member => (career.denoted r member).1
  have current {r : Reactor} (running : n.reactor? = some r) : r.Denoted ∧ r.Cleared :=
    career.denoted r (mem_runs.2 (Or.inr running))
  constructor
  case counted => exact fun r member => (denoted r member).counted
  case rising =>
    have ids : (connections past n).map (·.id) =
        ((runs past n).map fun r => (joinedPeers r.deeds).length).flatMap PeerId.upTo := by
      rw [connections, List.map_flatMap, List.flatMap_map]
      exact List.flatMap_congr fun r member => (denoted r member).counted
    rw [ids, pairwise_flatMap_upTo, List.countP_map]
    rfl
  case arrived =>
    intro r member id p known
    exact ⟨((denoted r member).known id p known).1, (denoted r member).arrived known⟩
  case told => exact fun r member => (denoted r member).about
  case stays => exact fun r running => Reactor.joinedPeers_run (current running).1.consistent
  case disconnect =>
    intro r running id
    obtain ⟨config, uid, shared | ⟨s, address⟩⟩ := n
    · cases running
    · cases running
      simp only [Node.disconnect, sendCommand, ask, reactor?]
      split <;> rfl
  case closes =>
    intro r running id sight means due k
    obtain ⟨⟨consistent, -⟩, cleared⟩ := (current running).imp_left Reactor.Denoted.toNumbered
    have goes_on : r.running = true := by
      cases stopped : r.running with
      | true => rfl
      | false =>
        have waits := Reactor.wait_command due
        rw [cleared stopped] at waits
        cases waits
    rw [Reactor.turn_eq goes_on due]
    exact get?_dismiss (consistent.wait sight).keyed id k means.writes

/-! ### A node that is visited in two runs -/

/-- What a node is started with that can have any address. -/
def starting : Happening := .start 0 Host.resolve fun a => .ok { a with port := 4321 }

/-- Somebody comes through a socket. -/
def coming (socket : SocketId) : Happening :=
  .proceed [.turn ⟨0, 0, .connection socket .elsewhere, []⟩ ⟨0, .waiting [], [], []⟩]

/-- A turn in which the outside does nothing. -/
def pause : Activity := .turn ⟨0, 0, .none, []⟩ ⟨0, .waiting [], [], []⟩

/-- A node that has been visited. -/
def visited : Node := (Node.new {} 7).live [starting, coming ⟨3⟩]

/-- That node after it has been stopped, and visited again through another socket. -/
def revisited : Node := visited.live [.stop [pause], starting, coming ⟨4⟩]

/-- The first run of that node. -/
def firstRun : List Reactor := (visited.halt.proceed [pause]).reactor?.toList

/-- Who comes first to a node, through a socket. -/
def visitor (socket : SocketId) : Peer where
  id := ⟨1⟩
  socket
  remote := .elsewhere
  direction := .inbound
  dialed := none
  connectedAt := 0
  session := .start

theorem career_revisited : Career {} 7 firstRun revisited := by
  have ended : (visited.halt.proceed [pause]).isRunning = false := by decide +kernel
  have first : Career {} 7 [] visited :=
    ((Career.new.after starting trivial).after (coming ⟨3⟩) trivial)
  exact ((first.after (.stop [pause]) ended).after starting trivial).after (coming ⟨4⟩) trivial

/-- Two runs of a node have a connection each, and both go by number one. -/
theorem numbering_of_life_revisited :
    Career {} 7 firstRun revisited ∧
      connections firstRun revisited = [visitor ⟨3⟩, visitor ⟨4⟩] ∧
      Numbering firstRun revisited :=
  ⟨career_revisited, by decide +kernel, numbering_of_life career_revisited⟩

/-- **Numbers need not rise over the life of a node.**  The connections of two runs go by the same
number, and who asks for that of the first run to be closed closes that of the second. -/
theorem exists_renumbered :
    ∃ (past : List Reactor) (n : Node) (first second : Peer), Career {} 7 past n ∧
      connections past n = [first, second] ∧ first.socket ≠ second.socket ∧
      ¬ ((connections past n).map (·.id)).Pairwise (· < ·) ∧
      n.shared.table.get? second.id = some second ∧
      ((n.disconnect first.id).2.proceed [pause]).shared.table.get? second.id = none := by
  have both : connections firstRun revisited = [visitor ⟨3⟩, visitor ⟨4⟩] := by decide +kernel
  refine ⟨firstRun, revisited, visitor ⟨3⟩, visitor ⟨4⟩, career_revisited, both, by decide,
    ?_, ?_, ?_⟩
  · rw [both]
    decide
  · decide +kernel
  · decide +kernel

end Node

end GossipNode
