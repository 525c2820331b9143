import GossipNode.Address.Host
import GossipNode.Wire.Decode

/-!
# What can go wrong with peers

## Main definitions

* `IoError` — what the operating system refuses.
* `SetupFault`, `ConnectFault` — why a node cannot listen, or a peer cannot be reached.
* `PeerError` — what the operations of a node answer when they fail.
-/

namespace GossipNode

/-- What the operating system refuses. -/
inductive IoError
  | invalidArgument
  | brokenPipe
  | addressInUse
  | addressNotAvailable
  | networkUnreachable
  | connectionReset
  | connectionRefused
  /-- A host is not found. -/
  | host (why : HostFault)
  | other (text : String)
  deriving DecidableEq, Repr

/-- The words for a refusal, with the number the system gives it if it has one. -/
def IoError.message : IoError → String
  | invalidArgument => "Invalid argument (os error 22)"
  | brokenPipe => "Broken pipe (os error 32)"
  | addressInUse => "Address already in use (os error 98)"
  | addressNotAvailable => "Cannot assign requested address (os error 99)"
  | networkUnreachable => "Network is unreachable (os error 101)"
  | connectionReset => "Connection reset by peer (os error 104)"
  | connectionRefused => "Connection refused (os error 111)"
  | host why => why.message
  | other text => text

/-- Why a node cannot be set up. -/
inductive SetupFault
  /-- The host to listen on is not found. -/
  | unresolved (host : String) (port : UInt16) (why : HostFault)
  /-- The host to listen on has no address of version four. -/
  | noIPv4 (host : String)
  /-- The address to listen on cannot be had. -/
  | bind (address : SocketAddress) (why : IoError)
  /-- The port to listen on belongs to a running node. -/
  | portInUse
  | other (text : String)
  deriving DecidableEq, Repr

/-- The words for a setup fault. -/
def SetupFault.message : SetupFault → String
  | unresolved host port why =>
    "resolve " ++ host ++ ":" ++ toString port.toNat ++ ": " ++ why.message
  | noIPv4 host => "no IPv4 address for " ++ host
  | bind address why => "bind " ++ address.render ++ ": " ++ why.message
  | portInUse => "listen port can only change while stopped"
  | other text => text

/-- Why a peer cannot be reached. -/
inductive ConnectFault
  | refused (address : String) (why : IoError)
  | timedOut (address : String)
  | other (text : String)
  deriving DecidableEq, Repr

/-- The words for a connect fault. -/
def ConnectFault.message : ConnectFault → String
  | refused address why => address ++ ": " ++ why.message
  | timedOut address => address ++ ": timed out"
  | other text => text

/-- What the operations of a node answer when they fail. -/
inductive PeerError
  | setup (fault : SetupFault)
  | invalidAddress (text : String)
  | connectionFailed (fault : ConnectFault)
  | io (why : IoError)
  | decode (error : DecodeError)
  | notRunning
  | disconnected
  | threadSpawn (text : String)
  deriving DecidableEq, Repr

/-- The words for a peer error. -/
def PeerError.message : PeerError → String
  | setup fault => "Setup failed: " ++ fault.message
  | invalidAddress text => "Invalid address: " ++ text
  | connectionFailed fault => "Connection failed: " ++ fault.message
  | io why => "IO error: " ++ why.message
  | decode error => "Decode error: " ++ error.message
  | notRunning => "Node is not running"
  | disconnected => "Peer disconnected"
  | threadSpawn text => "Failed to spawn thread: " ++ text

namespace Endpoint

/-- The endpoint a text denotes, or the error that it denotes none. -/
def parse (text : String) : Except PeerError Endpoint :=
  match parse? text with
  | some e => .ok e
  | none => .error (.invalidAddress text)

end Endpoint

end GossipNode
