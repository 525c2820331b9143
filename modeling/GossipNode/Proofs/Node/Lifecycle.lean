import GossipNode.Proofs.IdMap
import GossipNode.Proofs.Node.Calls
import GossipNode.Proofs.Reactor.Gossip

/-!
# The life of a node

A node may be started and stopped again and again, and be asked for things and have its
configuration changed whether it runs or not.  What a call does depends on whether the node runs,
and on nothing else of what has happened to it before.

## Main definitions

* `Node.Lived` — a node to which anything has happened while waiting has not failed.
* `Node.Sound` — a node whose reactor runs, or that has none and knows nobody.
* `Node.Rests`, `Node.Serves` — what is true of a node that does not run, and of one that does.

## Main results

* `Node.Lived.sound` — whatever happens to a node, it is sound.
* `Node.Sound.rests`, `Node.Sound.serves` — what calls on a sound node do.
* `Node.life_of_node` — **a node rests or serves, whatever has happened to it**, and goes by one
  number all its life.
-/

namespace GossipNode

theorem listenAddress_error {find : Resolver} {host : String} {port : UInt16} {error : PeerError}
    (failed : listenAddress find host port = .error error) : ∃ fault, error = .setup fault := by
  unfold listenAddress at failed
  split at failed
  · cases failed
    exact ⟨_, rfl⟩
  · split at failed
    · cases failed
    · cases failed
      exact ⟨_, rfl⟩

/-- If listening fails the setup has failed. -/
theorem listen_error {find : Resolver} {host : String} {port : UInt16}
    {system : SocketAddress → Except IoError SocketAddress} {error : PeerError}
    (failed : listen find host port system = .error error) : ∃ fault, error = .setup fault := by
  unfold listen at failed
  cases found : listenAddress find host port with
  | error why =>
    rw [found] at failed
    cases failed
    exact listenAddress_error found
  | ok address =>
    rw [found] at failed
    simp only [Bind.bind, Except.bind] at failed
    split at failed
    · cases failed
    · cases failed
      exact ⟨_, rfl⟩

/-- Dialing does not fail for want of a node. -/
theorem dial_ne_notRunning (address : String) (attempt : Endpoint → Attempt) :
    dial address attempt ≠ .error .notRunning := by
  unfold dial Endpoint.parse
  cases Endpoint.parse? address with
  | none => exact nofun
  | some e =>
    simp only [Bind.bind, Except.bind]
    split <;> exact nofun

/-- Handing a connection over gives a command at most, to take it over, and none to a node that
takes up no more. -/
theorem handOver_queue (taken : Bool) (queue : ControlQueue) (address : String)
    (dialed : Except PeerError (SocketId × SocketAddress)) :
    (handOver taken queue address dialed).2 = queue ∨ taken = true ∧ ∃ socket remote,
      (handOver taken queue address dialed).2 = queue.send (.adopt socket remote address) := by
  unfold handOver
  split
  · exact Or.inl rfl
  · split
    · next takes_up => exact Or.inr ⟨takes_up, _, _, rfl⟩
    · exact Or.inl rfl

namespace Node

/-- A node to which anything has happened while waiting has not failed.  To stop it takes until its
reactor has come to its end. -/
inductive Lived (config : NodeConfig) (random : Int32) : Node → Prop
  | new : Lived config random (.new config random)
  | after {n : Node} (earlier : Lived config random n) (h : Happening) (steady : h.Steady)
    (ends : n.Completes h) : Lived config random (n.after h)

/-! ### Soundness -/

/-- A node that has no reactor and knows nobody, or one whose reactor goes on and introduces itself
as the node that listens there. -/
inductive Sound : Node → Prop
  | stopped {config : NodeConfig} {uid : Int32} {shared : Shared}
    (nobody : ∀ id, shared.table.get? id = none) : Sound ⟨config, uid, .stopped shared⟩
  | running {config : NodeConfig} {uid : Int32} {r : Reactor} {address : SocketAddress}
    (goesOn : r.GoesOn) (port : r.config.ownInfo.listenPort = Int32.ofNat address.port.toNat)
    (own : r.config.ownInfo.uid = uid) : Sound ⟨config, uid, .running r address⟩

variable {n : Node}

/-- A node is sound after a request that leaves its reactor going on. -/
theorem Sound.ask {α : Type} (h : n.Sound) {request : Reactor → Except PeerError α × Reactor}
    (kept : ∀ r : Reactor, r.GoesOn → (request r).2.GoesOn ∧ (request r).2.config = r.config) :
    (n.ask request).2.Sound := by
  cases h with
  | stopped nobody => exact .stopped nobody
  | @running config uid r address goesOn port own =>
    obtain ⟨goesOn', same⟩ := kept r goesOn
    exact .running goesOn' (same ▸ port) (same ▸ own)

theorem Sound.sendCommand (h : n.Sound) {c : Command} (other : c ≠ .shutdown)
    (plain : ∀ id, c ≠ .sendHandshake id) : (n.sendCommand c).2.Sound := by
  refine h.ask fun r goesOn => ?_
  rw [if_pos goesOn.running]
  exact ⟨goesOn.idle (Reactor.idle_command r plain) (Reactor.extends_command r other), rfl⟩

theorem Sound.connect (h : n.Sound) (address : String) (attempt : Endpoint → Attempt) :
    (n.connect address attempt).2.Sound := by
  refine h.ask fun r goesOn => ?_
  refine ⟨?_, rfl⟩
  simp only
  rcases handOver_queue r.running r.queue address (dial address attempt) with
    same | ⟨-, socket, remote, added⟩
  · rw [same]
    exact goesOn
  · rw [added]
    exact goesOn.idle (s := r.command (.adopt socket remote address)) (Reactor.idle_command r nofun)
      (Reactor.extends_command r nofun)

theorem Sound.proceed (h : n.Sound) {activities : List Activity}
    (steady : ∀ a ∈ activities, a.Steady) : (n.proceed activities).Sound := by
  cases h with
  | stopped nobody => exact .stopped nobody
  | @running config uid r address goesOn port own =>
    obtain ⟨-, same⟩ := (Reactor.kept_config r.config).run ⟨goesOn.consistent, rfl⟩
      (activities.map Activity.stimulus)
    exact .running (goesOn.run steady) (same ▸ port) (same ▸ own)

theorem goesOn_launched (n : Node) (now : Nat) (address : SocketAddress) :
    (n.launched now address).GoesOn := by
  have queue : (n.launched now address).queue = .empty :=
    congrArg Reactor.queue (Reactor.foldl_dial _ _)
  refine ⟨(Reactor.consistent_start ..).idle (n.idle_launched now address),
    (n.idle_launched now address).running, ?_, ?_⟩
  · rw [queue]
    rfl
  · rw [queue]
    exact List.not_mem_nil

theorem Sound.start (h : n.Sound) (now : Nat) (find : Resolver)
    (system : SocketAddress → Except IoError SocketAddress) :
    (n.start now find system).2.Sound := by
  have nobody : n.isRunning = false → ∀ id, n.shared.table.get? id = none := by
    intro idle
    cases h with
    | stopped nobody => exact nobody
    | running goesOn port own => exact absurd (goesOn.running.symm.trans idle) nofun
  rcases n.start_cases now find system with ⟨-, left⟩ | ⟨idle, stopped | ⟨address, launches⟩⟩
  · rw [left]
    exact h
  · rw [stopped]
    exact .stopped (nobody idle)
  · rw [launches]
    have same := (n.idle_launched now address).config
    exact .running (goesOn_launched n now address) (same ▸ rfl) (same ▸ rfl)

/-- A reactor that has given up its dials and been told to end. -/
def told (r : Reactor) : Reactor := Reactor.command { r with dialing := [] } .shutdown

theorem doomed_told {r : Reactor} (h : r.GoesOn) : Reactor.Doomed r.queue.commands (told r) := by
  have idle : Reactor.Idle r (told r) :=
    (Reactor.idle_dialing r []).trans (Reactor.idle_command _ nofun)
  exact ⟨h.consistent.idle idle, h.senders, [], rfl⟩

theorem halt_running {r : Reactor} {address : SocketAddress}
    (started : n.lifecycle = .running r address) (running : r.running = true) :
    n.halt = { n with lifecycle := .running (told r) address } := by
  unfold halt
  rw [started]
  simp only
  rw [if_pos running]
  rfl

theorem proceed_halt {r : Reactor} {address : SocketAddress}
    (started : n.lifecycle = .running r address) (running : r.running = true)
    (meanwhile : List Activity) : n.halt.proceed meanwhile =
      { n with lifecycle :=
        .running ((told r).run (meanwhile.map Activity.stimulus)) address } := by
  rw [halt_running started running]
  rfl

/-- To stop a node that runs is to let its reactor come to its end and to keep what outlives it. -/
theorem stop_running {r : Reactor} {address : SocketAddress}
    (started : n.lifecycle = .running r address) (running : r.running = true)
    {meanwhile : List Activity}
    (ended : ((told r).run (meanwhile.map Activity.stimulus)).running = false) :
    n.stop meanwhile =
      { n with lifecycle := .stopped ((told r).run (meanwhile.map Activity.stimulus)).shared } := by
  rw [stop, proceed_halt started running]
  unfold join
  simp only
  rw [ended]
  rfl

theorem Sound.stop (h : n.Sound) {meanwhile : List Activity}
    (ended : (n.halt.proceed meanwhile).isRunning = false) : (n.stop meanwhile).Sound := by
  cases h with
  | stopped nobody => exact .stopped nobody
  | @running config uid r address goesOn port own =>
    rw [proceed_halt rfl goesOn.running] at ended
    have consistent := Reactor.kept_consistent.run (doomed_told goesOn).consistent
      (meanwhile.map Activity.stimulus)
    rw [stop_running rfl goesOn.running ended]
    exact .stopped (consistent.ended ended)

theorem Sound.register (h : n.Sound) (label : String) (answer : List Event → Event → Bool) :
    (n.register label answer).Sound := by
  cases h with
  | stopped nobody => exact .stopped nobody
  | @running config uid r address goesOn port own =>
    exact .running (goesOn.idle (Reactor.idle_listeners r _) (Reactor.extends_same rfl)) port own

theorem Sound.configure (h : n.Sound) (config : NodeConfig) : { n with config }.Sound := by
  cases h with
  | stopped nobody => exact .stopped nobody
  | running goesOn port own => exact .running goesOn port own

variable {config : NodeConfig} {random : Int32}

/-- Whatever happens to a sound node leaves it sound, unless waiting fails. -/
theorem Sound.after (sound : n.Sound) {h : Happening} (steady : h.Steady) (ends : n.Completes h) :
    (n.after h).Sound := by
  cases h with
  | start now find bind => exact sound.start now find bind
  | stop meanwhile => exact sound.stop ends
  | setListenPort port =>
    show (n.setListenPort port).2.Sound
    unfold Node.setListenPort
    split
    · exact sound
    · exact sound.configure _
  | setBootstrap addresses => exact sound.configure _
  | connect address attempt => exact sound.connect address attempt
  | asyncConnect address =>
    exact sound.ask fun r goesOn =>
      ⟨goesOn.idle (Reactor.idle_dial r address) (Reactor.extends_same rfl), rfl⟩
  | disconnect id => exact sound.sendCommand nofun nofun
  | tryConnect => exact sound.sendCommand nofun nofun
  | register label answer => exact sound.register label answer
  | proceed activities => exact sound.proceed steady

/-- **Whatever happens to a node, it is sound.** -/
theorem Lived.sound (lived : Lived config random n) : n.Sound := by
  induction lived with
  | new => exact .stopped fun _ => rfl
  | after _ h steady ends ih => exact ih.after steady ends

/-! ### What calls do -/

/-- A node that does not run: it knows nobody and is nowhere to be found, refuses what only a
running node can do, and can be configured and started. -/
structure Rests (n : Node) : Prop where
  nobody : n.peerCount = 0 ∧ n.readyCount = 0 ∧ ∀ id, n.shared.table.get? id = none
  nowhere : n.localAddress = none ∧ n.peerInfo = none ∧ n.pendingDials = 0
  connect : ∀ address attempt, n.connect address attempt = (.error .notRunning, n)
  asyncConnect : ∀ address, n.asyncConnect address = (.error .notRunning, n)
  disconnect : ∀ id, n.disconnect id = (.error .notRunning, n)
  tryConnect : n.tryConnect = (.error .notRunning, n)
  /-- If it cannot listen it is told why, and stays as it was. -/
  unbound : ∀ now find bind error,
    listen find n.config.bindHost n.config.listenPort bind = .error error →
      (∃ fault, error = .setup fault) ∧ n.start now find bind = (.error error, n)
  /-- If it can it runs, and introduces itself as the node that listens there.  Nobody is there yet,
  and everything else is as it was. -/
  bound : ∀ now find bind address,
    listen find n.config.bindHost n.config.listenPort bind = .ok address →
      ∃ m, n.start now find bind = (.ok (), m) ∧ m.isRunning = true ∧
        m.localAddress = some address ∧ m.peerInfo = some (n.ownInfo address.port) ∧
        m.peerCount = 0 ∧ m.config = n.config ∧ m.uid = n.uid ∧
        m.shared.pool = n.shared.pool ∧ m.shared.listeners = n.shared.listeners
  setListenPort : ∀ port,
    n.setListenPort port = (.ok (), { n with config := { n.config with listenPort := port } })
  stop : ∀ meanwhile, n.stop meanwhile = n

/-- What a node leaves behind that is stopped: it rests, with the configuration and the number that
it had.  No command waits any more.  Every connection that came has been closed, and so has every
other one that waited to be taken over or that dialing came to in the meantime. -/
structure Stops (n : Node) (meanwhile : List Activity) : Prop where
  rests : (n.stop meanwhile).isRunning = false ∧ (n.stop meanwhile).Rests
  same : (n.stop meanwhile).config = n.config ∧ (n.stop meanwhile).uid = n.uid
  closed : ∃ s r, n.halt.reactor? = some s ∧ (n.halt.proceed meanwhile).reactor? = some r ∧
    (n.stop meanwhile).shared = r.shared ∧ r.queue.commands = [] ∧
    (∀ id ∈ joinedIds r.deeds, ∃ q, .retired q ∈ r.deeds ∧ q.id = id ∧ q.session.state = .closed) ∧
    ∀ socket, (∃ remote dialed, .adopt socket remote dialed ∈ s.queue.commands) ∨
      (∃ address remote, .dialEnded address (some (socket, remote)) ∈ meanwhile) →
        (∃ p, .joined p ∈ r.deeds ∧ p.socket = socket) ∨ .dropped socket ∈ r.deeds

/-- A node that runs: it introduces itself as the node that listens where it does, does what it is
asked for, is not started again, and keeps its port until it is stopped. -/
structure Serves (n : Node) : Prop where
  somewhere : ∃ address info, n.localAddress = some address ∧ n.peerInfo = some info ∧
    info.listenPort = Int32.ofNat address.port.toNat ∧ info.uid = n.uid
  connect : ∀ address attempt, (n.connect address attempt).1 ≠ .error .notRunning
  asyncConnect : ∀ address, (n.asyncConnect address).1 = .ok ()
  disconnect : ∀ id, (n.disconnect id).1 = .ok ()
  tryConnect : n.tryConnect.1 = .ok ()
  start : ∀ now find bind, n.start now find bind = (.ok (), n)
  setListenPort : ∀ port, ∃ fault, n.setListenPort port = (.error (.setup fault), n)
  stop : ∀ meanwhile, (n.halt.proceed meanwhile).isRunning = false → n.Stops meanwhile
  /-- Once it has been told to end, its reactor does so: it takes no more turns that find nobody put
  back than there are commands. -/
  ends : ∀ r meanwhile, n.halt.reactor? = some r →
    r.queue.commands.length ≤ r.unhindered meanwhile →
    (n.halt.proceed meanwhile).isRunning = false

theorem Sound.rests (h : n.Sound) (stopped : n.isRunning = false) : n.Rests := by
  cases h with
  | running goesOn port own => exact absurd (goesOn.running.symm.trans stopped) nofun
  | @stopped config uid shared nobody =>
    have empty : shared.table.entries = [] := IdMap.entries_eq_nil nobody
    constructor
    case nobody =>
      refine ⟨?_, ?_, nobody⟩
      · show shared.table.entries.length = 0
        rw [empty]
        rfl
      · show ((shared.table.entries.map (·.2)).filter (·.isReady)).length = 0
        rw [empty]
        rfl
    case nowhere => exact ⟨rfl, rfl, rfl⟩
    case connect => exact fun _ _ => rfl
    case asyncConnect => exact fun _ => rfl
    case disconnect => exact fun _ => rfl
    case tryConnect => rfl
    case unbound =>
      exact fun now _ _ _ failed => ⟨listen_error failed, start_unbound stopped failed now⟩
    case bound =>
      intro now find system address listens
      let n : Node := ⟨config, uid, .stopped shared⟩
      have shared_launched : (n.launched now address).shared = { shared with table := .empty } :=
        congrArg Reactor.shared (Reactor.foldl_dial _ _)
      have idle := n.idle_launched now address
      refine ⟨_, start_bound stopped listens now, idle.running, rfl, ?_, ?_, rfl, rfl, ?_, ?_⟩
      · exact congrArg (fun c => some c.ownInfo) idle.config
      · exact congrArg (fun s => s.table.size) shared_launched
      · exact congrArg (fun s => s.pool) shared_launched
      · exact congrArg (fun s => s.listeners) shared_launched
    case setListenPort => exact fun _ => rfl
    case stop => exact fun _ => rfl

theorem Sound.stops (h : n.Sound) (running : n.isRunning = true) {meanwhile : List Activity}
    (ended : (n.halt.proceed meanwhile).isRunning = false) : n.Stops meanwhile := by
  have sound : (n.stop meanwhile).Sound := h.stop ended
  cases h with
  | stopped nobody => cases running
  | @running config uid r address goesOn port own =>
    have halted :=
      proceed_halt (n := ⟨config, uid, .running r address⟩) rfl goesOn.running meanwhile
    rw [halted] at ended
    have stopped := stop_running (n := ⟨config, uid, .running r address⟩) rfl goesOn.running ended
    have consistent := Reactor.kept_consistent.run (doomed_told goesOn).consistent
      (meanwhile.map Activity.stimulus)
    have cleared : (told r).Cleared := fun impossible =>
      absurd (goesOn.running.symm.trans impossible) nofun
    constructor
    case rests =>
      have rests : (Node.stop ⟨config, uid, .running r address⟩ meanwhile).isRunning = false := by
        rw [stopped]
        rfl
      exact ⟨rests, sound.rests rests⟩
    case same =>
      rw [stopped]
      exact ⟨rfl, rfl⟩
    case closed =>
      have nothing := Reactor.cleared_run (meanwhile.map Activity.stimulus)
        (doomed_told goesOn).consistent cleared ended
      refine ⟨told r, _, congrArg reactor? (halt_running rfl goesOn.running),
        congrArg reactor? halted, ?_, nothing,
        fun id came => ?_, fun socket dialed => ?_⟩
      · rw [stopped]
        rfl
      · -- Nobody is there any more, so whoever came is on record as gone.
        obtain ⟨q, went, same⟩ := consistent.accounted.left id came (consistent.ended ended id)
        exact ⟨q, went, same, (consistent.accounted.gone q went).2.1⟩
      · -- No command is left, so none waits any more to be taken over.
        rcases Reactor.placed_run meanwhile (doomed_told goesOn).consistent
          (dialed.imp_left Or.inl) with ⟨remote, address, waits⟩ | placed
        · rw [nothing] at waits
          cases waits
        · exact placed

theorem Sound.serves (h : n.Sound) (running : n.isRunning = true) : n.Serves := by
  have sound := h
  cases h with
  | stopped nobody => cases running
  | @running config uid r address goesOn port own =>
    constructor
    case somewhere => exact ⟨address, r.config.ownInfo, rfl, rfl, port, own⟩
    case connect =>
      intro text attempt
      show (handOver r.running r.queue text (dial text attempt)).1 ≠ .error .notRunning
      rw [goesOn.running]
      have dials := dial_ne_notRunning text attempt
      unfold handOver
      split
      · next e failed =>
        rintro ⟨rfl⟩
        exact dials failed
      · exact nofun
    case asyncConnect => exact fun _ => rfl
    case disconnect =>
      intro id
      unfold Node.disconnect Node.sendCommand Node.ask
      simp only
      rw [if_pos goesOn.running]
    case tryConnect =>
      unfold Node.tryConnect Node.sendCommand Node.ask
      simp only
      rw [if_pos goesOn.running]
    case start => exact fun now find bind => start_running running now find bind
    case setListenPort => exact fun port => ⟨.portInUse, if_pos running⟩
    case stop => exact fun meanwhile ended => sound.stops running ended
    case ends =>
      intro s meanwhile halted enough
      rw [proceed_halt rfl goesOn.running]
      rw [halt_running rfl goesOn.running] at halted
      cases halted
      have one_more : (told r).queue.commands.length = r.queue.commands.length + 1 :=
        List.length_append
      exact (doomed_told goesOn).run meanwhile (by omega)

/-- A node goes by one number all its life. -/
theorem Lived.uid (lived : Lived config random n) : n.uid = config.uid.getD random := by
  induction lived with
  | new => rfl
  | after _ h _ _ ih => exact (same_after _ h).1.trans ih

/-- **A node rests or serves, whatever has happened to it**, and goes by one number all its life. -/
theorem life_of_node {config : NodeConfig} {random : Int32} {n : Node}
    (lived : Lived config random n) :
    n.uid = config.uid.getD random ∧ (n.isRunning = false → n.Rests) ∧
      (n.isRunning = true → n.Serves) :=
  ⟨lived.uid, lived.sound.rests, lived.sound.serves⟩

/-- A node is started, somebody comes, an address begins to be dialed, and the node is stopped: it
served while it ran, and rests with nobody there and nothing being dialed. -/
theorem life_of_node_stopped :
    let system (a : SocketAddress) : Except IoError SocketAddress := .ok { a with port := 4321 }
    let idle : Means := ⟨0, .waiting [], [], []⟩
    let started := ((Node.new {} 7).start 0 Host.resolve system).2
    let comes : Sight := ⟨0, 0, .connection ⟨3⟩ .elsewhere, []⟩
    let visited := started.turn comes idle
    let busy := (visited.asyncConnect "10.0.0.1:7000").2
    let stopped := busy.stop [.turn ⟨0, 0, .none, []⟩ idle]
    Lived {} 7 busy ∧ busy.isRunning = true ∧ busy.peerCount = 1 ∧ busy.pendingDials = 1 ∧
      busy.Serves ∧ Lived {} 7 stopped ∧ stopped.isRunning = false ∧ stopped.Rests ∧
      stopped.peerCount = 0 ∧ stopped.uid = 7 := by
  intro system idle started comes visited busy stopped
  have began : Lived {} 7 started := Lived.new.after (.start 0 Host.resolve system) trivial trivial
  have met : Lived {} 7 visited := by
    refine began.after (.proceed [.turn comes idle]) (fun a member => ?_) trivial
    rw [List.mem_singleton.1 member]
    exact fun _ _ => List.not_mem_nil
  have lived : Lived {} 7 busy := met.after (.asyncConnect _) trivial trivial
  have running : busy.isRunning = true := by decide +kernel
  have ended : (busy.halt.proceed [.turn ⟨0, 0, .none, []⟩ idle]).isRunning = false := by
    decide +kernel
  have lived' : Lived {} 7 stopped := lived.after (.stop _) trivial ended
  have halted : stopped.isRunning = false := by decide +kernel
  obtain ⟨-, -, serves⟩ := life_of_node lived
  obtain ⟨uid, rests, -⟩ := life_of_node lived'
  exact ⟨lived, running, by decide +kernel, by decide +kernel, serves running, lived', halted,
    rests halted, (rests halted).nobody.1, uid⟩

end Node

end GossipNode
