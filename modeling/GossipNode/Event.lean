import GossipNode.Peer.Id

/-!
# Events and those who listen to them

What happens in a node is told to listeners as events.  A listener answers every event it is told;
when it answers no it is dropped and hears nothing more.  An answer may depend on everything the
listener has been told before.

## Main definitions

* `Event` — what can happen.
* `Listener`, `Registry` — listeners in the order of their registration.
* `Registry.notify` — tells an event to everyone.
-/

namespace GossipNode

/-- What can happen in a node. -/
inductive Event
  /-- The node stops. -/
  | shutdown
  /-- A peer has introduced itself. -/
  | peerWelcome (id : PeerId)
  /-- A peer has been closed. -/
  | peerClose (id : PeerId)
  /-- A round of dialing is about to begin. -/
  | tryConnect
  /-- A block has arrived. -/
  | newBlock
  /-- A transaction has arrived. -/
  | newTx
  deriving DecidableEq, Repr, Inhabited

/-- An event as it is shown to people. -/
def Event.display : Event → String
  | shutdown => "Shutdown"
  | peerWelcome id => "PeerWelcome(" ++ id.debug ++ ")"
  | peerClose id => "PeerClose(" ++ id.debug ++ ")"
  | tryConnect => "TryConnect"
  | newBlock => "NewBlock"
  | newTx => "NewTx"

/-- A listener with a label to tell it by: what it has been told, last first, and its answer to an
event after that. -/
structure Listener (ι : Type) where
  label : ι
  heard : List Event
  answer : List Event → Event → Bool

/-- The listeners of a node, in the order of their registration. -/
structure Registry (ι : Type) where
  listeners : List (Listener ι)

namespace Registry

variable {ι : Type}

/-- A registry without listeners. -/
def empty : Registry ι := ⟨[]⟩

instance : Inhabited (Registry ι) := ⟨empty⟩

/-- The number of listeners. -/
def size (r : Registry ι) : Nat := r.listeners.length

/-- Adds a listener at the end. -/
def register (r : Registry ι) (label : ι) (answer : List Event → Event → Bool) : Registry ι :=
  ⟨r.listeners ++ [⟨label, [], answer⟩]⟩

/-- Tells an event to one listener; it stays if it answers yes. -/
def tell (event : Event) (l : Listener ι) : Option (Listener ι) :=
  if l.answer l.heard event then some { l with heard := event :: l.heard } else none

/-- Tells an event to every listener in order and drops those that answer no. -/
def notify (r : Registry ι) (event : Event) : Registry ι := ⟨r.listeners.filterMap (tell event)⟩

/-- Those who are told the next event, in order. -/
def audience (r : Registry ι) : List ι := r.listeners.map (·.label)

end Registry

end GossipNode
