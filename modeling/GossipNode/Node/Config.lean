import GossipNode.Message.Basic

/-!
# The configuration of a node

## Main definitions

* `NodeConfig` — what a node is told before it starts, with the values it takes by default.
* `NodeConfig.withPort` — the default configuration with another port.
-/

namespace GossipNode

/-- The port a node listens on unless it is told otherwise. -/
def defaultListenPort : UInt16 := 11250

/-- The number of peers a node tries to keep unless it is told otherwise. -/
def defaultTarget : Nat := 20

/-- What a node is told before it starts. -/
structure NodeConfig where
  /-- The port to listen on; zero leaves the choice to the system. -/
  listenPort : UInt16 := defaultListenPort
  /-- The host to listen on. -/
  bindHost : String := "0.0.0.0"
  /-- Addresses that are dialed once at the start. -/
  bootstrap : List String := []
  /-- The network the node belongs to; peers of other networks are refused. -/
  networkId : Int32 := 0
  /-- The protocol version the node announces. -/
  version : Int32 := protocolVersion
  /-- The name the node announces. -/
  name : NodeName := NodeName.ofText "freedom-node"
  /-- The number of peers that rounds of dialing aim at. -/
  target : Nat := defaultTarget
  /-- How many connections may wait to be accepted. -/
  backlog : Nat := 10
  /-- How long dialing may take, in milliseconds. -/
  connectLimit : Nat := 10000
  /-- How long a peer may take to introduce itself, in milliseconds, if there is a limit. -/
  handshakeLimit : Option Nat := some 30000
  /-- The number the node recognises itself by; without one it is chosen at random. -/
  uid : Option Int32 := none
  deriving DecidableEq, Repr, Inhabited

/-- The default configuration with another port. -/
def NodeConfig.withPort (port : UInt16) : NodeConfig := { listenPort := port }

end GossipNode
