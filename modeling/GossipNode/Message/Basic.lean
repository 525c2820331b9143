import GossipNode.Json.Fault

/-!
# Messages

What nodes say to each other: who they are, which peers they know, and why they leave.

## Main definitions

* `NodeName` — sixteen bytes, any text cut or padded to fit.
* `PeerInfo`, `DisconnectReason`, `Message` — the messages.
* `MessageKind` — the three kinds and their tags on the wire.
* `Message.display` — a message as it is shown to people.
-/

namespace GossipNode

/-- The protocol version a node announces. -/
def protocolVersion : Int32 := 1

/-- The length of a node's name in bytes. -/
def nameLength : Nat := 16

/-- The name of a node: sixteen bytes, which need not be text. -/
structure NodeName where
  bytes : Bytes
  length_eq : bytes.length = nameLength
  deriving DecidableEq, Repr

namespace NodeName

/-- The first sixteen bytes of a stretch, with zeros behind it if there are fewer. -/
def ofBytes (bs : Bytes) : NodeName where
  bytes := (bs ++ List.replicate nameLength 0).take nameLength
  length_eq := by simp [nameLength]

/-- The name that starts as the UTF-8 bytes of a text do.  A character may be cut in two. -/
def ofText (s : String) : NodeName := ofBytes (utf8 s)

/-- The name in hexadecimal digits. -/
def toHex (name : NodeName) : String := Bytes.toHex name.bytes

instance : Inhabited NodeName := ⟨ofBytes []⟩

end NodeName

/-- How a node introduces itself. -/
structure PeerInfo where
  /-- What the node calls itself. -/
  name : NodeName
  /-- The port the node says it accepts connections on. -/
  listenPort : Int32
  /-- The protocol version the node speaks. -/
  version : Int32
  /-- The network the node belongs to. -/
  networkId : Int32
  /-- A number by which a node recognises itself at the far end of a connection. -/
  uid : Int32
  deriving DecidableEq, Repr, Inhabited

/-- Why a node leaves a peer. -/
inductive DisconnectReason
  | unknown
  | wrongNetwork
  | blocking
  | rotating
  deriving DecidableEq, Repr, Inhabited

namespace DisconnectReason

/-- A reason as it is shown to people. -/
def name : DisconnectReason → String
  | unknown => "Unknown"
  | wrongNetwork => "WrongNetwork"
  | blocking => "Blocking"
  | rotating => "Rotating"

/-- A reason as it is written on the wire. -/
def wireName : DisconnectReason → String
  | unknown => "UNKNOWN"
  | wrongNetwork => "WRONG_NETWORK"
  | blocking => "BLOCKING"
  | rotating => "ROTATING"

/-- All reasons. -/
def all : List DisconnectReason := [unknown, wrongNetwork, blocking, rotating]

/-- The reason with a given name on the wire. -/
def ofWireName? (name : String) : Option DisconnectReason := all.find? (·.wireName = name)

end DisconnectReason

/-- The kinds of messages. -/
inductive MessageKind
  | peerInfo
  | discovery
  | disconnect
  deriving DecidableEq, Repr, Inhabited

namespace MessageKind

/-- The number that announces a kind on the wire. -/
def tag : MessageKind → UInt64
  | peerInfo => 0
  | discovery => 1
  | disconnect => 2

/-- The kind a number announces. -/
def ofTag? (tag : UInt64) : Option MessageKind :=
  if tag = 0 then some peerInfo
  else if tag = 1 then some discovery
  else if tag = 2 then some disconnect
  else none

/-- The name of a kind. -/
def name : MessageKind → String
  | peerInfo => "PeerInfo"
  | discovery => "Discovery"
  | disconnect => "Disconnect"

end MessageKind

/-- What nodes say to each other. -/
inductive Message
  /-- Who the sender is. -/
  | peerInfo (info : PeerInfo)
  /-- Addresses of peers the sender is connected to. -/
  | discovery (addresses : List String)
  /-- Why the sender is about to close the connection. -/
  | disconnect (reason : DisconnectReason) (text : String)
  deriving DecidableEq, Repr, Inhabited

namespace Message

/-- The kind of a message. -/
def kind : Message → MessageKind
  | peerInfo _ => .peerInfo
  | discovery _ => .discovery
  | disconnect _ _ => .disconnect

/-- A message as it is shown to people. -/
def display : Message → String
  | peerInfo info =>
    "PeerInfo(name=" ++ info.name.toHex ++ ", port=" ++ toString info.listenPort.toInt
      ++ ", version=" ++ toString info.version.toInt ++ ", net=" ++ toString info.networkId.toInt
      ++ ", uid=" ++ toString info.uid.toInt ++ ")"
  | discovery addresses => "Discovery(" ++ quotedList addresses ++ ")"
  | disconnect reason text => "Disconnect(" ++ reason.name ++ ", " ++ quoted text ++ ")"

end Message

end GossipNode
