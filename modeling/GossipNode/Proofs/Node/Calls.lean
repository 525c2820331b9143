import GossipNode.Node.Basic
import GossipNode.Proofs.Reactor.Ending

/-!
# What happens to a node

A node is called on from outside, and in between its reactor takes turns and its dials come to
something.  Whether it runs or not, nothing of all that changes the number it goes by, and what it
dials when it is started is what it was told to dial last.

## Main definitions

* `Happening`, `Node.after` — what can happen to a node, and the node after it.
* `Node.live` — a node after all that has happened to it.
* `Node.launched` — the reactor that a start begins with.

## Main results

* `Node.start_bound`, `Node.start_unbound` — what a start comes to.
* `Node.same_after` — what happens to a node leaves its number as it is.
* `Node.dials_set_last` — **a start dials exactly the addresses that were set last.**
-/

namespace GossipNode

/-- What can happen to a node: the calls on it, and what goes on in it by itself. -/
inductive Happening
  | start (now : Nat) (find : Resolver) (bind : SocketAddress → Except IoError SocketAddress)
  /-- The node is stopped, which takes until its reactor has come to its end. -/
  | stop (meanwhile : List Activity)
  | setListenPort (port : UInt16)
  | setBootstrap (addresses : List String)
  | connect (address : String) (attempt : Endpoint → Attempt)
  | asyncConnect (address : String)
  | disconnect (id : PeerId)
  | tryConnect
  | register (label : String) (answer : List Event → Event → Bool)
  | proceed (activities : List Activity)

namespace Happening

/-- The addresses that are set, to be dialed at the next start. -/
def addresses? : Happening → Option (List String)
  | setBootstrap addresses => some addresses
  | _ => none

/-- As long as it goes on, waiting does not fail. -/
def Steady : Happening → Prop
  | proceed activities => ∀ a ∈ activities, a.Steady
  | _ => True

end Happening

namespace Node

/-- A node after something has gone on in it. -/
def proceed (n : Node) (activities : List Activity) : Node :=
  match n.lifecycle with
  | .stopped _ => n
  | .running r address =>
    { n with lifecycle := .running (r.run (activities.map Activity.stimulus)) address }

/-- Stops a node: it is told to end, and once its reactor has come to its end that is cleared
away. -/
def stop (n : Node) (meanwhile : List Activity) : Node := (n.halt.proceed meanwhile).join

/-- A node after something has happened to it. -/
def after (n : Node) : Happening → Node
  | .start now find bind => (n.start now find bind).2
  | .stop meanwhile => n.stop meanwhile
  | .setListenPort port => (n.setListenPort port).2
  | .setBootstrap addresses => n.setBootstrap addresses
  | .connect address attempt => (n.connect address attempt).2
  | .asyncConnect address => (n.asyncConnect address).2
  | .disconnect id => (n.disconnect id).2
  | .tryConnect => n.tryConnect.2
  | .register label answer => n.register label answer
  | .proceed activities => n.proceed activities

/-- A node after all that has happened to it. -/
def live (n : Node) (history : List Happening) : Node := history.foldl after n

/-- Whether a stop comes to its end: the reactor has come to its own by then. -/
def Completes (n : Node) : Happening → Prop
  | .stop meanwhile => (n.halt.proceed meanwhile).isRunning = false
  | _ => True

variable {n n' : Node}

/-- A turn is something that goes on. -/
theorem turn_eq_proceed (n : Node) (sight : Sight) (means : Means) :
    n.turn sight means = n.proceed [.turn sight means] := rfl

/-! ### Starting -/

/-- What the reactor of a node needs to know that listens on an address. -/
def reactorConfig (n : Node) (address : SocketAddress) : ReactorConfig :=
  ⟨n.ownInfo address.port, n.config.target, n.config.handshakeLimit⟩

/-- What a node starts with that listens on an address. -/
def launched (n : Node) (now : Nat) (address : SocketAddress) : Reactor :=
  n.config.bootstrap.foldl Reactor.dial (Reactor.start (n.reactorConfig address) n.shared now)

section Start

variable {find : Resolver} {system : SocketAddress → Except IoError SocketAddress}

/-- A node that runs is left alone. -/
theorem start_running (running : n.isRunning = true) (now : Nat) (find : Resolver)
    (system : SocketAddress → Except IoError SocketAddress) :
    n.start now find system = (.ok (), n) := if_pos running

/-- A node that does not run starts if it can listen. -/
theorem start_bound (idle : n.isRunning = false) {address : SocketAddress}
    (bound : listen find n.config.bindHost n.config.listenPort system = .ok address) (now : Nat) :
    n.start now find system =
      (.ok (), { n with lifecycle := .running (n.launched now address) address }) := by
  unfold start
  rw [if_neg (Bool.eq_false_iff.1 idle), bound]
  rfl

/-- A node that does not run and cannot listen is told why, and is stopped. -/
theorem start_unbound (idle : n.isRunning = false) {error : PeerError}
    (failed : listen find n.config.bindHost n.config.listenPort system = .error error)
    (now : Nat) :
    n.start now find system = (.error error, { n with lifecycle := .stopped n.shared }) := by
  unfold start
  rw [if_neg (Bool.eq_false_iff.1 idle), failed]

/-- What a start comes to. -/
theorem start_cases (n : Node) (now : Nat) (find : Resolver)
    (system : SocketAddress → Except IoError SocketAddress) :
    (n.isRunning = true ∧ (n.start now find system).2 = n) ∨
      n.isRunning = false ∧
        ((n.start now find system).2 = { n with lifecycle := .stopped n.shared } ∨
          ∃ address, (n.start now find system).2 =
            { n with lifecycle := .running (n.launched now address) address }) := by
  by_cases running : n.isRunning = true
  · exact Or.inl ⟨running, by rw [start_running running]⟩
  · have idle := Bool.eq_false_iff.2 running
    refine Or.inr ⟨idle, ?_⟩
    cases bound : listen find n.config.bindHost n.config.listenPort system with
    | error error => exact Or.inl (by rw [start_unbound idle bound])
    | ok address => exact Or.inr ⟨address, by rw [start_bound idle bound]⟩

end Start

theorem idle_launched (n : Node) (now : Nat) (address : SocketAddress) :
    Reactor.Idle (Reactor.start (n.reactorConfig address) n.shared now) (n.launched now address) :=
  Reactor.idle_foldl_dial _ _

/-! ### What stays as it is -/

/-- Neither the number by which a node recognises itself nor its configuration has changed. -/
structure Same (n n' : Node) : Prop where
  uid : n'.uid = n.uid
  config : n'.config = n.config

theorem same_ask {α : Type} (n : Node) (request : Reactor → Except PeerError α × Reactor) :
    Same n (n.ask request).2 := by
  unfold Node.ask
  split <;> exact ⟨rfl, rfl⟩

theorem same_start (n : Node) (now : Nat) (find : Resolver)
    (system : SocketAddress → Except IoError SocketAddress) :
    Same n (n.start now find system).2 := by
  rcases n.start_cases now find system with ⟨-, left⟩ | ⟨-, stopped | ⟨address, launched⟩⟩
  · rw [left]
    exact ⟨rfl, rfl⟩
  · rw [stopped]
    exact ⟨rfl, rfl⟩
  · rw [launched]
    exact ⟨rfl, rfl⟩

theorem same_proceed (n : Node) (activities : List Activity) : Same n (n.proceed activities) := by
  unfold Node.proceed
  split <;> exact ⟨rfl, rfl⟩

theorem same_stop (n : Node) (meanwhile : List Activity) : Same n (n.stop meanwhile) := by
  have halted : Same n n.halt := by
    unfold halt
    split <;> exact ⟨rfl, rfl⟩
  have joined (m : Node) : Same m m.join := by
    unfold join
    split
    · split <;> exact ⟨rfl, rfl⟩
    · exact ⟨rfl, rfl⟩
  have going := same_proceed n.halt meanwhile
  have left := joined (n.halt.proceed meanwhile)
  exact ⟨left.uid.trans (going.uid.trans halted.uid),
    left.config.trans (going.config.trans halted.config)⟩

/-- **Whatever happens to a node leaves its number as it is**, and the addresses it is to dial as
well unless it sets them. -/
theorem same_after (n : Node) (h : Happening) : (n.after h).uid = n.uid ∧
    (n.after h).config.bootstrap = h.addresses?.getD n.config.bootstrap := by
  have same {m : Node} (same : Same n m) :
      m.uid = n.uid ∧ m.config.bootstrap = n.config.bootstrap :=
    ⟨same.uid, congrArg NodeConfig.bootstrap same.config⟩
  cases h with
  | start now find bind => exact same (n.same_start now find bind)
  | stop meanwhile => exact same (n.same_stop meanwhile)
  | setListenPort port =>
    show (n.setListenPort port).2.uid = _ ∧ (n.setListenPort port).2.config.bootstrap = _
    unfold Node.setListenPort
    split <;> exact ⟨rfl, rfl⟩
  | setBootstrap addresses => exact ⟨rfl, rfl⟩
  | connect address attempt => exact same (n.same_ask _)
  | asyncConnect address => exact same (n.same_ask _)
  | disconnect id => exact same (n.same_ask _)
  | tryConnect => exact same (n.same_ask _)
  | register label answer =>
    refine same ?_
    show Same n (n.register label answer)
    unfold Node.register withShared
    split <;> exact ⟨rfl, rfl⟩
  | proceed activities => exact same (n.same_proceed activities)

/-! ### What a start dials -/

theorem live_concat (n : Node) (history : List Happening) (h : Happening) :
    n.live (history ++ [h]) = (n.live history).after h := List.foldl_append

/-- The addresses a node is configured to dial are those set last, or those it came with. -/
theorem bootstrap_live (history : List Happening) : ∀ n : Node,
    (n.live history).config.bootstrap =
      (history.filterMap Happening.addresses?).getLastD n.config.bootstrap := by
  induction history with
  | nil => intro n; rfl
  | cons h history ih =>
    intro n
    rw [live, List.foldl_cons, ← live, ih, (same_after n h).2]
    cases set : h.addresses? with
    | none => simp [List.filterMap_cons_none set]
    | some addresses => rw [List.filterMap_cons_some set, Option.getD_some, List.getLastD_cons]

/-- **A start dials exactly the addresses that were set last**, in order, or those the node came
with if none were set, whatever else has happened to it; and that is all it has done. -/
theorem dials_set_last (n : Node) (history : List Happening)
    (idle : (n.live history).isRunning = false) {find : Resolver}
    {bind : SocketAddress → Except IoError SocketAddress} {address : SocketAddress}
    (bound : listen find (n.live history).config.bindHost (n.live history).config.listenPort bind =
      .ok address) (now : Nat) :
    let addresses := (history.filterMap Happening.addresses?).getLastD n.config.bootstrap
    ∃ r, (n.live (history ++ [.start now find bind])).reactor? = some r ∧
      r.dialing = addresses ∧ r.deeds = (addresses.map .dialed).reverse := by
  intro addresses
  have started : n.live (history ++ [.start now find bind]) = _ :=
    (live_concat ..).trans (congrArg Prod.snd (start_bound idle bound now))
  refine ⟨(n.live history).launched now address, by rw [started]; rfl, ?_⟩
  rw [launched, Reactor.foldl_dial, bootstrap_live history n]
  exact ⟨rfl, List.append_nil _⟩

example : ((Node.new {} 7).live [.setBootstrap ["10.0.0.1:5000"], .setBootstrap ["10.0.0.2:5000"],
    .start 0 Host.resolve .ok]).reactor?.map (·.dialing) = some ["10.0.0.2:5000"] := by
  decide +kernel

end Node

end GossipNode
