import GossipNode.Peer.Basic

/-!
# Commands to a node

Everyone but the peers talks to a running node by commands, which wait in a queue until the node
takes them up in the order in which they were given.

## Main definitions

* `Command` — what a node can be told.
* `ControlQueue` — commands that wait.
* `ControlQueue.receive` — the next command, or the news that none will come.
-/

namespace GossipNode

/-- What a running node can be told. -/
inductive Command
  /-- To end. -/
  | shutdown
  /-- To introduce itself to a peer. -/
  | sendHandshake (id : PeerId)
  /-- To close a connection. -/
  | closePeer (id : PeerId)
  /-- To dial addresses from the pool until there are enough peers. -/
  | tryConnect
  /-- To take over a connection that was dialed. -/
  | adopt (socket : SocketId) (remote : SocketAddress) (dialed : String)
  deriving DecidableEq, Repr

/-- A command as it is shown inside other values. -/
def Command.debug : Command → String
  | shutdown => "Shutdown"
  | sendHandshake id => "SendHandshake(" ++ id.debug ++ ")"
  | closePeer id => "ClosePeer(" ++ id.debug ++ ")"
  | tryConnect => "TryConnect"
  | adopt _ remote dialed => "Adopt(" ++ remote.render ++ ", " ++ quoted dialed ++ ")"

/-- Commands that wait, first come first, and whether anyone is left who could give more. -/
structure ControlQueue where
  commands : List Command
  hasSenders : Bool
  deriving DecidableEq, Repr

namespace ControlQueue

/-- The queue of a node that has just been started. -/
def empty : ControlQueue := ⟨[], true⟩

instance : Inhabited ControlQueue := ⟨empty⟩

/-- Puts a command at the end. -/
def send (q : ControlQueue) (c : Command) : ControlQueue := { q with commands := q.commands ++ [c] }

/-- Nobody is left to give commands; those that wait are kept. -/
def dropSenders (q : ControlQueue) : ControlQueue := { q with hasSenders := false }

/-- The next command and the queue without it; `none` in its place if none will ever come; nothing
while the queue is empty and a command may still come. -/
def receive (q : ControlQueue) : Option (Option Command × ControlQueue) :=
  match q.commands with
  | c :: rest => some (some c, { q with commands := rest })
  | [] => if q.hasSenders then none else some (none, q)

end ControlQueue

end GossipNode
