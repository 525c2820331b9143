import GossipNode.Message.Basic

/-!
# Messages as JSON

The payload of every kind of message: how it is built from a message and how a message is read from
it.  A record may be given as an object, whose further members do not matter, or as an array of its
fields in order.  Members are looked at in ascending order of their names, so of several wrong ones
the first in that order is reported; only then are missing ones, in the order of the record.

## Main definitions

* `Message.payload` — the payload of a message.
* `Message.ofPayload` — the message a payload of a given kind stands for.
-/

namespace GossipNode

namespace Schema

/-- A reader of one shape of values. -/
abbrev Reads (α : Type) := Json → Except Mismatch α

/-- A value of another type than the one wanted. -/
def wrongType {α : Type} (v : Json) (wanted : Shape) : Except Mismatch α :=
  .error (.wrongType v.found wanted)

/-- A whole number between two bounds. -/
def integer (least greatest : Int) (wanted : Shape) : Reads Int
  | .scalar (.integer n) =>
    if least ≤ n ∧ n ≤ greatest then .ok n
    else .error (.wrongValue (.scalar (.integer n)) wanted)
  | v => wrongType v wanted

/-- A whole number of eight bits. -/
def byte : Reads UInt8 := fun v => do
  return UInt8.ofNat (← integer 0 255 .unsigned8 v).toNat

/-- A whole number of thirty-two bits with a sign. -/
def int32 : Reads Int32 := fun v => do
  return Int32.ofInt (← integer (-2147483648) 2147483647 .signed32 v)

/-- A string. -/
def string : Reads String
  | .scalar (.string s) => .ok s
  | v => wrongType v .string

/-- The field at a place of a record given as an array. -/
def item {α : Type} (items : List Json) (record : Shape) (i : Nat) (read : Reads α) :
    Except Mismatch α :=
  match items[i]? with
  | some v => read v
  | none => .error (.wrongLength i record)

/-- An array must not be longer than what was read from it. -/
def noMoreThan (items : List Json) (n : Nat) : Except Mismatch Unit :=
  if items.length ≤ n then .ok () else .error (.wrongLength items.length .fewerItems)

/-- The field of a given name of a record given as an object, if it is there. -/
def member? {α : Type} (members : List (String × Json)) (name : String) (read : Reads α) :
    Except Mismatch (Option α) :=
  match members.lookup name with
  | some v => (read v).map some
  | none => .ok none

/-- A field that must be there. -/
def required {α : Type} (name : String) : Option α → Except Mismatch α
  | some a => .ok a
  | none => .error (.missing name)

/-- Items read one after the other up to a given number of them; `i` have been read. -/
def takeBytes (wanted : Shape) : Nat → Nat → List Json → Except Mismatch Bytes
  | _, 0, _ => .ok []
  | i, _ + 1, [] => .error (.wrongLength i wanted)
  | i, n + 1, v :: vs => do
    let b ← byte v
    let bs ← takeBytes wanted (i + 1) n vs
    return b :: bs

/-- A name: an array of as many bytes as a name has. -/
def nodeName : Reads NodeName
  | .array items => do
    let bs ← takeBytes (.arrayOf nameLength) 0 nameLength items
    noMoreThan items nameLength
    return NodeName.ofBytes bs
  | v => wrongType v (.arrayOf nameLength)

/-- A list of strings. -/
def strings : Reads (List String)
  | .array items => items.mapM string
  | v => wrongType v .sequence

/-- A reason to leave: its name, or an object with its name as the only member and null as the
value. -/
def reason : Reads DisconnectReason
  | .scalar (.string name) => named name
  | .object [(name, v)] => do
    let r ← named name
    match v with
    | .scalar .null => return r
    | v => wrongType v .unit
  | .object _ => .error (.wrongValue .map .singleKey)
  | v => wrongType v .variant
where
  /-- The reason of a given name. -/
  named (name : String) : Except Mismatch DisconnectReason :=
    match DisconnectReason.ofWireName? name with
    | some r => .ok r
    | none => .error (.unknownVariant name (DisconnectReason.all.map (·.wireName)))

/-- The record a node introduces itself with. -/
def peerInfo : Reads PeerInfo
  | .array items => do
    let record := Shape.recordOf "PeerInfo" 5
    let name ← item items record 0 nodeName
    let listenPort ← item items record 1 int32
    let version ← item items record 2 int32
    let networkId ← item items record 3 int32
    let uid ← item items record 4 int32
    noMoreThan items 5
    return { name, listenPort, version, networkId, uid }
  | .object members => do
    let listenPort ← member? members "listen_port" int32
    let name ← member? members "name" nodeName
    let networkId ← member? members "network_id" int32
    let uid ← member? members "uid" int32
    let version ← member? members "version" int32
    let name ← required "name" name
    let listenPort ← required "listen_port" listenPort
    let version ← required "version" version
    let networkId ← required "network_id" networkId
    let uid ← required "uid" uid
    return { name, listenPort, version, networkId, uid }
  | v => wrongType v (.record "PeerInfo")

/-- The record of known addresses. -/
def discovery : Reads (List String)
  | .array items => do
    let addresses ← item items (.recordOf "Discovery" 1) 0 strings
    noMoreThan items 1
    return addresses
  | .object members => do
    let addresses ← member? members "addresses" strings
    required "addresses" addresses
  | v => wrongType v (.record "Discovery")

/-- The record of a farewell. -/
def disconnect : Reads (DisconnectReason × String)
  | .array items => do
    let record := Shape.recordOf "Disconnect" 2
    let why ← item items record 0 reason
    let text ← item items record 1 string
    noMoreThan items 2
    return (why, text)
  | .object members => do
    let why ← member? members "reason" reason
    let text ← member? members "text" string
    let why ← required "reason" why
    let text ← required "text" text
    return (why, text)
  | v => wrongType v (.record "Disconnect")

end Schema

/-- The number a 32-bit field holds. -/
def Json.ofInt32 (n : Int32) : Json := .scalar (.integer n.toInt)

namespace Message

/-- The payload of a message: an object with its fields in ascending order of their names. -/
def payload : Message → Json
  | peerInfo info => .object [
      ("listen_port", .ofInt32 info.listenPort),
      ("name", .array (info.name.bytes.map fun b => .scalar (.integer b.toNat))),
      ("network_id", .ofInt32 info.networkId),
      ("uid", .ofInt32 info.uid),
      ("version", .ofInt32 info.version)]
  | discovery addresses => .object [
      ("addresses", .array (addresses.map fun a => .scalar (.string a)))]
  | disconnect reason text => .object [
      ("reason", .scalar (.string reason.wireName)),
      ("text", .scalar (.string text))]

/-- The message a payload of a given kind stands for. -/
def ofPayload (kind : MessageKind) (payload : Json) : Except Mismatch Message :=
  match kind with
  | .peerInfo => do return .peerInfo (← Schema.peerInfo payload)
  | .discovery => do return .discovery (← Schema.discovery payload)
  | .disconnect => do
    let (reason, text) ← Schema.disconnect payload
    return .disconnect reason text

end Message

end GossipNode
