import GossipNode.Proofs.Reactor.Sole
import GossipNode.Proofs.Reactor.Writing

/-!
# A node on one side of a connection

Of two nodes that have one connection with each other and none else, each is a node with a single
connection.  What can be said of such a node by itself is gathered here: how many connections have
come to it or wait, who began them, which commands wait, and why it has taken leave.

## Main definitions

* `Reactor.hasLeft` — the node has let the connection go.
* `Reactor.Party` — what is true of a node with a single connection.

## Main results

* `Reactor.Party.turn` — **turns keep it**, if nothing gets into their way.
* `Reactor.Party.accept`, `Reactor.Party.handOver` — so does the coming of the connection.
-/

namespace GossipNode

namespace Reactor

/-- How many connections that were dialed wait to be taken over. -/
def adoptions (r : Reactor) : Nat := r.queue.commands.countP Command.isAdopt

/-- Whether something on record says that the first connection was let go. -/
def Deed.isParting : Deed → Bool
  | .retired q => q.id = .first
  | _ => false

/-- Whether a node has let its first connection go. -/
def hasLeft (r : Reactor) : Bool := r.deeds.any Deed.isParting

variable {r s : Reactor}

theorem hasLeft_iff : r.hasLeft = true ↔ ∃ q, .retired q ∈ r.deeds ∧ q.id = .first := by
  rw [hasLeft, List.any_eq_true]
  constructor
  · rintro ⟨d, hd, parting⟩
    unfold Deed.isParting at parting
    split at parting
    · exact ⟨_, hd, of_decide_eq_true parting⟩
    · cases parting
  · rintro ⟨q, hq, same⟩
    exact ⟨_, hq, decide_eq_true same⟩

/-- Whoever has let the connection go has done so for good. -/
theorem hasLeft_grow (deeds : ∃ new, s.deeds = new ++ r.deeds) (left : r.hasLeft = true) :
    s.hasLeft = true := by
  obtain ⟨new, hnew⟩ := deeds
  obtain ⟨q, hq, same⟩ := hasLeft_iff.1 left
  exact hasLeft_iff.2 ⟨q, hnew ▸ List.mem_append_right new hq, same⟩

/-- Of every connection it is known how far the conversation on it has come, throughout runs. -/
theorem conduct_run (config : ReactorConfig) (shared : Shared) (now : Nat)
    (stimuli : List Stimulus) (k : PeerId) : Conduct k ((start config shared now).run stimuli) :=
  lasting_run (fun consistent h attends => h.attends consistent attends)
    (consistent_start config shared now) (.fresh rfl fun _ hd => absurd hd List.not_mem_nil) stimuli

/-- What is true of a running node with a single connection, which came in a given direction if it
came.  Commands wait for a reason: to take the connection over or introduce the node on it if the
node began it, and to dial if addresses were heard of.  Leave was only taken of somebody from
another network. -/
structure Party (config : ReactorConfig) (direction : Direction) (came : Bool) (r : Reactor) :
    Prop where
  reached : ∃ shared now stimuli, r = (start config shared now).run stimuli
  running : r.running = true
  sole : ∀ id ∈ joinedIds r.deeds, id = .first
  count : r.adoptions + (joinedIds r.deeds).length = came.toNat
  began : ∀ q, r.Known .first q → q.direction = direction
  orders : ∀ c ∈ r.queue.commands,
    ((c.isAdopt = true ∨ c = .sendHandshake .first) ∧ direction = .outbound) ∨
      (c = .tryConnect ∧ ∃ e ∈ dispatchedTo .first r.deeds, ∃ addresses,
        e.message = .ok (.discovery addresses))
  farewells : ∀ m ∈ sentTo .first r.deeds, m.isFarewell = true →
    ∃ e ∈ dispatchedTo .first r.deeds, ∃ info, e.message = .ok (.peerInfo info) ∧
      info.networkId ≠ config.ownInfo.networkId

namespace Party

variable {config : ReactorConfig} {direction : Direction} {came : Bool} {sight : Sight}
  {means : Means} {unread : Bytes} {ends : Bool}

/-! ### What is known of every run -/

theorem config_eq (h : Party config direction came r) : r.config = config := by
  obtain ⟨shared, now, stimuli, rfl⟩ := h.reached
  exact config_run config shared now stimuli

theorem toSole (h : Party config direction came r) : r.Sole := by
  obtain ⟨shared, now, stimuli, same⟩ := h.reached
  exact ⟨same ▸ numbered_run config shared now stimuli, h.sole⟩

theorem consistent (h : Party config direction came r) : r.Consistent := h.toSole.consistent

theorem introduced (h : Party config direction came r) : r.Introduced := by
  obtain ⟨shared, now, stimuli, rfl⟩ := h.reached
  exact introduced_run config shared now stimuli

theorem conduct (h : Party config direction came r) : Conduct .first r := by
  obtain ⟨shared, now, stimuli, rfl⟩ := h.reached
  exact conduct_run config shared now stimuli .first

theorem chronicle (h : Party config direction came r) : r.Chronicle := by
  have introduced := h.introduced
  obtain ⟨shared, now, stimuli, rfl⟩ := h.reached
  exact introduced.chronicle (kept_ledger.run (ledger_start config shared now) stimuli)
    (Concluded.run stimuli ((concluded_running rfl).2 List.not_mem_nil)
      (consistent_start config shared now))

theorem balanced (h : Party config direction came r) : r.Balanced := by
  obtain ⟨shared, now, stimuli, rfl⟩ := h.reached
  exact kept_balanced.run (balanced_start config shared now) stimuli

theorem candid (h : Party config direction came r) : Candid .first r := by
  obtain ⟨shared, now, stimuli, rfl⟩ := h.reached
  exact candid_run config shared now stimuli .first

/-- Of everything that happens a run is made. -/
theorem reached_react (h : Party config direction came r) (stimulus : Stimulus) :
    ∃ shared now stimuli, r.react stimulus = (start config shared now).run stimuli := by
  obtain ⟨shared, now, stimuli, rfl⟩ := h.reached
  exact ⟨shared, now, stimuli ++ [stimulus], (run_append _ stimuli [stimulus]).symm⟩

/-! ### Before, during and after -/

/-- Nobody is there once the connection has been let go, and it had come. -/
theorem absent (h : Party config direction came r) (left : r.hasLeft = true) :
    .first ∈ joinedIds r.deeds ∧ r.table.get? .first = none := by
  obtain ⟨q, hq, same⟩ := hasLeft_iff.1 left
  obtain ⟨joined, -, gone⟩ := h.consistent.accounted.gone q hq
  exact same ▸ ⟨joined, gone⟩

/-- The connection has not come, or its peer is there, or it has been let go. -/
theorem presence (h : Party config direction came r) :
    (joinedIds r.deeds = [] ∧ r.table.get? .first = none ∧ r.hasLeft = false) ∨
      (∃ p, r.table.get? .first = some p ∧ r.hasLeft = false) ∨
      (.first ∈ joinedIds r.deeds ∧ r.table.get? .first = none ∧ r.hasLeft = true) := by
  cases left : r.hasLeft with
  | true => exact Or.inr (Or.inr ⟨(h.absent left).1, (h.absent left).2, rfl⟩)
  | false =>
    cases there : r.table.get? .first with
    | some p => exact Or.inr (Or.inl ⟨p, rfl, rfl⟩)
    | none =>
      refine Or.inl ⟨List.eq_nil_iff_forall_not_mem.2 fun id hid => ?_, rfl, rfl⟩
      have same := h.sole id hid
      subst same
      have gone := hasLeft_iff.2 (h.consistent.accounted.left .first hid there)
      rw [left] at gone
      cases gone

/-- Nothing is on record about a connection that has not come. -/
theorem unheard (h : Party config direction came r) (alone : joinedIds r.deeds = []) :
    ∀ d ∈ r.deeds, d.about ≠ some .first := by
  intro d hd about
  have joined := h.balanced.attested d hd .first about
  rw [alone] at joined
  cases joined

/-- The first connection is the next one to come, if none has. -/
theorem nextId (h : Party config direction came r) (alone : joinedIds r.deeds = []) :
    r.nextId = .first := by
  have number := h.toSole.number
  rw [alone] at number
  exact congrArg PeerId.mk number

/-- A connection that waits to be taken over is the first one, and the node began it. -/
theorem alone_of_adopt (h : Party config direction came r) {c : Command}
    (waits : c ∈ r.queue.commands) (adopts : c.isAdopt = true) :
    direction = .outbound ∧ came = true ∧ r.adoptions = 1 ∧ joinedIds r.deeds = [] := by
  have some_wait : 0 < r.adoptions := List.countP_pos_iff.2 ⟨c, waits, adopts⟩
  have count := h.count
  have bound := came.toNat_le
  have outbound : direction = .outbound := by
    rcases h.orders c waits with ⟨-, outbound⟩ | ⟨rfl, -⟩
    · exact outbound
    · cases adopts
  refine ⟨outbound, ?_, by omega, List.eq_nil_of_length_eq_zero (by omega)⟩
  cases came with
  | true => rfl
  | false =>
    rw [Bool.toNat_false] at count
    omega

/-! ### Turns -/

/-- What a node with a single connection keeps while the connection neither comes nor waits to: it
may hear and say more. -/
theorem carry (h : Party config direction came r)
    (reached : ∃ shared now stimuli, s = (start config shared now).run stimuli)
    (running : s.running = true) (joined : joinedIds s.deeds = joinedIds r.deeds)
    {es : List Envelope} {ms : List Message}
    (heard : dispatchedTo .first s.deeds = dispatchedTo .first r.deeds ++ es)
    (said : sentTo .first s.deeds = sentTo .first r.deeds ++ ms)
    (commands : ∀ c ∈ s.queue.commands, c ∈ r.queue.commands ∨ (c = .tryConnect ∧
      ∃ e ∈ es, ∃ addresses, e.message = .ok (.discovery addresses)))
    (adoptions : s.adoptions = r.adoptions)
    (began : ∀ q, s.Known .first q → q.direction = direction)
    (farewells : ∀ m ∈ ms, m.isFarewell = true → ∃ e ∈ es, ∃ info,
      e.message = .ok (.peerInfo info) ∧ info.networkId ≠ config.ownInfo.networkId) :
    Party config direction came s := by
  refine ⟨reached, running, joined ▸ h.sole, ?_, began, fun c hc => ?_, fun m hm leaves => ?_⟩
  · rw [adoptions, joined]
    exact h.count
  · rw [heard]
    rcases commands c hc with before | ⟨rfl, e, he, addresses, discovered⟩
    · refine (h.orders c before).imp_right fun ⟨seeks, e, he, discovered⟩ =>
        ⟨seeks, e, ?_, discovered⟩
      exact List.mem_append_left es he
    · exact Or.inr ⟨rfl, e, List.mem_append_right _ he, addresses, discovered⟩
  · rw [heard]
    rw [said] at hm
    rcases List.mem_append.1 hm with before | now
    · obtain ⟨e, he, foreign⟩ := h.farewells m before leaves
      exact ⟨e, List.mem_append_left es he, foreign⟩
    · obtain ⟨e, he, foreign⟩ := farewells m now leaves
      exact ⟨e, List.mem_append_right _ he, foreign⟩

end Party

/-- A peer to whose connection nothing happens is known as before. -/
theorem Untouched.known {k : PeerId} {q : Peer} (h : Untouched k r s) (known : s.Known k q) :
    r.Known k q := by
  rcases known with there | ⟨retired, number⟩
  · exact Or.inl (h.entry.symm.trans there)
  · obtain ⟨new, deeds, about⟩ := h.deeds
    rw [deeds] at retired
    refine Or.inr ⟨(List.mem_append.1 retired).resolve_left fun recent => ?_, number⟩
    exact about _ recent (congrArg some number)

/-- A run goes on after a turn in which nothing gets into the way of a delivery. -/
theorem running_turn (h : r.Consistent) (running : r.running = true) {id : PeerId} {sight : Sight}
    {means : Means} {unread : Bytes} {ends : Bool}
    (suits : (Stimulus.turn sight means).Suits id unread ends r) :
    (r.turn sight means).running = true := by
  rcases turn_cases running sight means (h.wait sight).keyed with
    ⟨-, same⟩ | ⟨w, due, ⟨last, -⟩ | ⟨-, moves⟩⟩
  · rw [same]
    exact running
  · rw [suits_ends (suits w due)] at last
    cases last
  · exact moves.keeps.1.trans running

/-- Of what is said about an envelope only a refusal takes leave. -/
theorem Response.farewell {own : PeerInfo} {peers : Nat} {e : Envelope} {said : List Message}
    (h : Response own peers e said) {m : Message} (hm : m ∈ said) (leaves : m.isFarewell = true) :
    ∃ info, e.message = .ok (.peerInfo info) ∧ info.networkId ≠ own.networkId := by
  cases h with
  | silence => cases hm
  | refusal introduced foreign => exact ⟨_, introduced, foreign⟩
  | introduction =>
    rw [List.mem_singleton.1 hm] at leaves
    cases leaves
  | acquaintance =>
    rcases List.mem_cons.1 hm with rfl | hm
    · cases leaves
    · rw [List.mem_singleton.1 hm] at leaves
      cases leaves

/-- An introduction is due on a connection that is taken over, if the node began it. -/
theorem commands_insertPeer (r : Reactor) (socket : SocketId) (remote : SocketAddress)
    (direction : Direction) (dialed : Option String) (now : Nat) :
    (r.insertPeer socket remote direction dialed now).queue.commands = r.queue.commands ++
      if direction = .outbound then [.sendHandshake r.nextId] else [] := by
  unfold insertPeer
  simp only
  split
  · rfl
  · exact (List.append_nil _).symm

theorem dialing_insertPeer (r : Reactor) (socket : SocketId) (remote : SocketAddress)
    (direction : Direction) (dialed : Option String) (now : Nat) :
    (r.insertPeer socket remote direction dialed now).dialing = r.dialing := by
  unfold insertPeer
  simp only
  split <;> rfl

/-- Nothing that an exchange asks of a node takes a connection over. -/
theorem Exchange.adoptions {k : PeerId} {es : List Envelope} {ms : List Message}
    (h : Exchange k r s es ms) : s.adoptions = r.adoptions := by
  obtain ⟨new, commands, rounds⟩ := h.commands
  rw [Reactor.adoptions, commands, List.countP_append, Reactor.adoptions, Nat.add_eq_left,
    List.countP_eq_zero]
  intro c hc
  rw [(rounds c hc).1]
  exact Bool.false_ne_true

namespace Party

variable {config : ReactorConfig} {direction : Direction} {came : Bool} {sight : Sight}
  {means : Means} {unread : Bytes} {ends : Bool}

/-- What a node with a single connection keeps in an exchange with its peer. -/
theorem carry_exchange (h : Party config direction came r) {p : Peer}
    (reached : ∃ shared now stimuli, s = (start config shared now).run stimuli)
    (running : s.running = true) (there : r.table.get? .first = some p)
    (moves : Moves (· = .first) (r.wait sight).2 s) {es : List Envelope} {ms : List Message}
    (exchange : Exchange .first (r.wait sight).2 s es ms)
    (adoptions : (r.wait sight).2.adoptions = r.adoptions)
    (began : ∀ q, s.Known .first q → q.direction = direction)
    (farewells : ∀ m ∈ ms, m.isFarewell = true → ∃ e ∈ es, ∃ info,
      e.message = .ok (.peerInfo info) ∧ info.networkId ≠ config.ownInfo.networkId) :
    Party config direction came s := by
  have old : ¬ PeerId.first = (r.wait sight).2.nextId := by
    intro same
    have unassigned := h.consistent.unassigned
    rw [show r.nextId = .first from same.symm, there] at unassigned
    cases unassigned
  have joined : joinedIds s.deeds = joinedIds r.deeds := (moves.joined fun same => old same.symm).2
  refine h.carry reached running joined exchange.heard exchange.said (fun c hc => ?_)
    (exchange.adoptions.trans adoptions) began farewells
  obtain ⟨new, commands, rounds⟩ := exchange.commands
  rw [commands] at hc
  rcases List.mem_append.1 hc with before | now
  · exact Or.inl ((r.mux.wait_spec r.queue r.owes sight).2.2.subset before)
  · exact Or.inr (rounds c now)

/-- The connection comes. -/
theorem insert (h : Party config direction came r) (alone : joinedIds r.deeds = [])
    {socket : SocketId} {remote : SocketAddress} {dialed : Option String} {now : Nat}
    (reached : ∃ shared now' stimuli,
      (r.wait sight).2.insertPeer socket remote direction dialed now =
        (start config shared now').run stimuli)
    (none_left : (r.wait sight).2.adoptions = 0) :
    Party config direction true
      ((r.wait sight).2.insertPeer socket remote direction dialed now) := by
  have consistent :
      ((r.wait sight).2.insertPeer socket remote direction dialed now).Consistent := by
    obtain ⟨shared, now', stimuli, same⟩ := reached
    exact same ▸ kept_consistent.run (consistent_start config shared now') stimuli
  have number : (r.wait sight).2.nextId = .first := h.nextId alone
  have deeds := deeds_insertPeer (r.wait sight).2 socket remote direction dialed now
  have commands := commands_insertPeer (r.wait sight).2 socket remote direction dialed now
  have joined : joinedIds ((r.wait sight).2.insertPeer socket remote direction dialed now).deeds =
      [.first] := by
    rw [deeds]
    show (r.wait sight).2.nextId :: joinedIds r.deeds = _
    rw [alone, number]
  refine ⟨reached, (running_insertPeer ..).trans h.running, fun id hid => ?_, ?_, fun q known => ?_,
    fun c hc => ?_, ?_⟩
  · rw [joined] at hid
    exact List.mem_singleton.1 hid
  · rw [joined, adoptions, commands, List.countP_append]
    have none_new : (if direction = .outbound then
        [Command.sendHandshake (r.wait sight).2.nextId] else []).countP Command.isAdopt = 0 := by
      split <;> rfl
    rw [none_new, show List.countP _ _ = 0 from none_left]
    rfl
  · have there := (get?_insertPeer (r.wait sight).2 socket remote direction dialed now .first).trans
      (if_pos number)
    rw [consistent.known_unique there known]
    rfl
  · rw [deeds]
    rw [commands] at hc
    rcases List.mem_append.1 hc with before | now
    · exact h.orders c ((r.mux.wait_spec r.queue r.owes sight).2.2.subset before)
    · split at now
      · next outbound =>
        rw [List.mem_singleton.1 now, number]
        exact Or.inl ⟨Or.inr rfl, outbound⟩
      · cases now
  · rw [deeds]
    exact h.farewells

/-- A turn passes by in which nothing happens to the connection. -/
theorem pass (h : Party config direction came r)
    (reached : ∃ shared now stimuli, s = (start config shared now).run stimuli)
    (running : s.running = true) (passes : Passes r s) : Party config direction came s := by
  have said : sentTo .first s.deeds = sentTo .first r.deeds ++ [] :=
    passes.sentTo.trans (List.append_nil _).symm
  refine h.carry reached running passes.joined passes.toSpares.fed.dispatched said
    (fun c hc => Or.inl ?_) ?_ (fun q known => h.began q (passes.toUntouched.known known))
    (List.forall_mem_nil _)
  · rcases passes.commands with same | ⟨first, same, -⟩
    · exact same ▸ hc
    · rw [same]
      exact List.mem_cons_of_mem first hc
  · rcases passes.commands with same | ⟨first, same, other⟩
    · rw [adoptions, same, adoptions]
    · rw [adoptions, adoptions, same, List.countP_cons, other]
      rfl

/-- A connection that the node has dialed is taken over. -/
theorem adopt (h : Party config direction came r) {socket : SocketId} {remote : SocketAddress}
    {address : String}
    (commands : r.queue.commands =
      .adopt socket remote address :: (r.wait sight).2.queue.commands)
    (reached : ∃ shared now' stimuli,
      (r.wait sight).2.insertPeer socket remote .outbound (some address) means.now =
        (start config shared now').run stimuli) :
    Party config direction came
      ((r.wait sight).2.insertPeer socket remote .outbound (some address) means.now) := by
  have waits : .adopt socket remote address ∈ r.queue.commands := by
    rw [commands]
    exact List.mem_cons_self
  obtain ⟨rfl, rfl, one, none_came⟩ := h.alone_of_adopt waits rfl
  refine h.insert none_came reached ?_
  rw [adoptions, commands, List.countP_cons] at one
  exact Nat.succ.inj one

/-- The node introduces itself, on a connection that it began. -/
theorem greet (h : Party config direction came r) {p : Peer}
    (there : r.table.get? .first = some p)
    (due : (r.wait sight).1 = some (.control (some (.sendHandshake .first))))
    (reached : ∃ shared now stimuli, (r.wait sight).2.greet .first means.writes =
      (start config shared now).run stimuli)
    (running : ((r.wait sight).2.greet .first means.writes).running = true) :
    Party config direction came ((r.wait sight).2.greet .first means.writes) := by
  have commands := wait_command due
  have due_still : .sendHandshake .first ∈ r.queue.commands := by
    rw [commands]
    exact List.mem_cons_self
  obtain rfl : direction = .outbound := by
    rcases h.orders _ due_still with ⟨-, outbound⟩ | ⟨impossible, -⟩
    · exact outbound
    · cases impossible
  have keyed := (h.consistent.wait sight).keyed
  have exchange := greet_exchange (r := (r.wait sight).2) (h.consistent.holds there) means.writes
  rw [h.consistent.keyed .first p there] at exchange
  refine h.carry_exchange reached running there (greet_moves keyed means.writes) exchange ?_
    (fun q known => (h.conduct.greeted there due means.writes).began known) ?_
  · rw [adoptions, adoptions, commands]
    rfl
  · intro m hm leaves
    rw [List.mem_singleton.1 hm] at leaves
    cases leaves

/-- The peer is served. -/
theorem serve (h : Party config direction came r) {p : Peer}
    (there : r.table.get? .first = some p) {ready : Readiness}
    (due : (r.wait sight).1 = some (.peer .first ready))
    (reached : ∃ shared now stimuli, (r.wait sight).2.serve .first ready means =
      (start config shared now).run stimuli)
    (running : ((r.wait sight).2.serve .first ready means).running = true) :
    Party config direction came ((r.wait sight).2.serve .first ready means) := by
  have keyed := (h.consistent.wait sight).keyed
  have config_eq : (r.wait sight).2.config = config := h.config_eq
  obtain ⟨same, speaks⟩ := h.conduct.served there due
  have heeds := serve_heeds speaks ready means
  have ways := serve_exchange speaks.held ready means
  rw [same, config_eq] at ways
  rw [same, h.began p (Or.inl there)] at heeds
  have began : ∀ q, ((r.wait sight).2.serve .first ready means).Known .first q →
      q.direction = direction := fun q known => heeds.1.began known
  have kept : (r.wait sight).2.adoptions = r.adoptions := by
    rw [adoptions, (wait_peer due).2, adoptions]
  rcases ways with quiet | ⟨e, said, response, exchange⟩
  · exact h.carry_exchange reached running there (serve_moves keyed ready means) quiet kept began
      (List.forall_mem_nil _)
  · refine h.carry_exchange reached running there (serve_moves keyed ready means) exchange kept
      began fun m hm leaves => ?_
    obtain ⟨info, introduced, foreign⟩ := response.farewell hm leaves
    exact ⟨e, List.mem_singleton.2 rfl, info, introduced, foreign⟩

/-- **Turns keep what is true of a node with a single connection**, if nothing gets into their way
and no other connection is taken over. -/
theorem turn (h : Party config direction came r)
    (suits : (Stimulus.turn sight means).Suits .first unread ends r)
    (alone : ∀ socket remote, (r.wait sight).1 ≠ some (.accept socket remote)) :
    Party config direction came (r.turn sight means) := by
  have reached := h.reached_react (.turn sight means)
  have running := running_turn h.consistent h.running suits
  have happens := h.toSole.happens h.running suits
  change ∃ shared now stimuli, r.turn sight means = _ at reached
  generalize r.turn sight means = s at reached running happens ⊢
  cases happens with
  | passes passes => exact h.pass reached running passes
  | adopts commands => exact h.adopt commands reached
  | accepts due => exact absurd due (alone _ _)
  | greets there due => exact h.greet there due reached running
  | serves there due => exact h.serve there due reached running

/-- A turn begins to dial only if a round of dialing is due, and what that picks. -/
theorem dialing_turn (h : Party config direction came r)
    (suits : (Stimulus.turn sight means).Suits .first unread ends r) :
    (r.turn sight means).dialing = r.dialing ∨ (.tryConnect ∈ r.queue.commands ∧
      ∃ words, (r.turn sight means).dialing = r.dialing ++ r.picks words) := by
  have happens := h.toSole.happens h.running suits
  generalize r.turn sight means = s at happens ⊢
  cases happens with
  | passes h' => exact h'.dialing
  | adopts commands => exact Or.inl (dialing_insertPeer ..)
  | accepts due => exact Or.inl (dialing_insertPeer ..)
  | @greets p there due =>
    have same := h.consistent.keyed .first p there
    have held : (r.wait sight).2.Holds p := h.consistent.holds there
    exact Or.inl (same ▸ (greet_exchange held means.writes).dialing)
  | @serves p ready there due =>
    have same := h.consistent.keyed .first p there
    have held : (r.wait sight).2.Holds p := h.consistent.holds there
    rcases serve_exchange held ready means with quiet | ⟨e, said, -, exchange⟩
    · exact Or.inl (same ▸ quiet.dialing)
    · exact Or.inl (same ▸ exchange.dialing)

/-- The coming of the connection keeps what is true of the node that the other side has dialed. -/
theorem accept (h : Party config .inbound false r) {socket : SocketId} {remote : SocketAddress}
    (due : (r.wait sight).1 = some (.accept socket remote)) (means : Means) :
    Party config .inbound true (r.turn sight means) := by
  have reached := h.reached_react (.turn sight means)
  change ∃ shared now stimuli, r.turn sight means = _ at reached
  rw [turn_eq h.running due means] at reached ⊢
  have queue : (r.wait sight).2.queue = r.queue := wait_queue fun c busy => by
    rw [due] at busy
    cases busy
  have count := h.count
  rw [Bool.toNat_false] at count
  refine h.insert (List.eq_nil_of_length_eq_zero (by omega)) reached ?_
  rw [adoptions, queue]
  exact Nat.eq_zero_of_add_eq_zero_right count

/-- A node that has dialed goes on after its end of the connection has been handed over to it. -/
theorem handOver (h : Party config .outbound false r) {socket : SocketId} {remote : SocketAddress}
    {address : String}
    (reached : ∃ shared now stimuli, s = (start config shared now).run stimuli)
    (idle : Idle r s)
    (commands : s.queue.commands = r.queue.commands ++ [.adopt socket remote address]) :
    Party config .outbound true s := by
  have quiet := idle.untouched .first
  have heard : dispatchedTo .first s.deeds = dispatchedTo .first r.deeds :=
    quiet.toSpares.fed.dispatched.trans (List.append_nil _)
  refine ⟨reached, idle.running.trans h.running, idle.joined ▸ h.sole, ?_,
    fun q known => h.began q (quiet.known known), fun c hc => ?_, ?_⟩
  · have count := h.count
    rw [Bool.toNat_false] at count
    rw [adoptions, commands, List.countP_append, idle.joined]
    show r.adoptions + 1 + (joinedIds r.deeds).length = 1
    omega
  · rw [heard]
    rw [commands] at hc
    rcases List.mem_append.1 hc with before | now
    · exact h.orders c before
    · rw [List.mem_singleton.1 now]
      exact Or.inl ⟨Or.inl rfl, rfl⟩
  · rw [heard, quiet.sentTo]
    exact h.farewells

end Party

end Reactor

end GossipNode
