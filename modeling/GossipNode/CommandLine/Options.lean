import GossipNode.Address.Ip
import GossipNode.Node.Config

/-!
# Options of the command line

## Main definitions

* `Options` — what a node is told on the command line, with the values it takes by default.
* `Setting` — the options that have a value.
* `Setting.assign` — gives an option the value a text denotes.
* `Options.config` — the configuration of the node.
* `helpText`, `versionText` — what the program says of itself.
-/

namespace GossipNode.CommandLine

/-- The name the program is called by. -/
def programName : String := "freedom-node"

/-- The version of the program. -/
def programVersion : String := "0.1.0"

/-- What a node is told on the command line. -/
structure Options where
  port : UInt16 := defaultListenPort
  networkId : Int32 := 0
  name : String := programName
  peers : Option String := none
  target : Nat := defaultTarget
  statusEvery : Nat := 30
  verbosity : Nat := 0
  deriving DecidableEq, Repr, Inhabited

/-- The options that have a value. -/
inductive Setting
  | port
  | networkId
  | name
  | peers
  | target
  | statusEvery
  deriving DecidableEq, Repr

/-- The options that have none. -/
inductive Switch
  | verbose
  | help
  | version
  deriving DecidableEq, Repr

namespace Setting

/-- All options that have a value. -/
def all : List Setting := [port, networkId, name, peers, target, statusEvery]

/-- The name of an option, without the two dashes before it. -/
def longName : Setting → String
  | port => "port"
  | networkId => "netid"
  | name => "name"
  | peers => "peers"
  | target => "target"
  | statusEvery => "status-every"

/-- What stands for the value of an option when it is shown. -/
def placeholder : Setting → String
  | port => "PORT"
  | networkId => "NETID"
  | name => "NAME"
  | peers => "PEERS"
  | target => "TARGET"
  | statusEvery => "STATUS_EVERY"

/-- The single letter an option may be called by. -/
def shortName? : Setting → Option Char
  | port => some 'p'
  | networkId => some 'n'
  | target => some 't'
  | name | peers | statusEvery => none

/-- An option as it is shown. -/
def display (s : Setting) : String := "--" ++ s.longName ++ " <" ++ s.placeholder ++ ">"

end Setting

namespace Switch

/-- All options that have no value. -/
def all : List Switch := [verbose, help, version]

/-- The name of an option, without the two dashes before it. -/
def longName : Switch → String
  | verbose => "verbose"
  | help => "help"
  | version => "version"

/-- The single letter an option may be called by. -/
def shortName : Switch → Char
  | verbose => 'v'
  | help => 'h'
  | version => 'V'

/-- An option as it is shown; dots stand for one that may be repeated. -/
def display : Switch → String
  | verbose => "--verbose..."
  | s => "--" ++ s.longName

end Switch

/-- Why a text does not denote a number that is asked for. -/
inductive NumberFault
  | empty
  | invalidDigit
  | tooLarge
  | tooSmall
  /-- The number lies outside the bounds. -/
  | outside (n least greatest : Int)
  deriving DecidableEq, Repr

/-- The words for a fault in a number. -/
def NumberFault.message : NumberFault → String
  | empty => "cannot parse integer from empty string"
  | invalidDigit => "invalid digit found in string"
  | tooLarge => "number too large to fit in target type"
  | tooSmall => "number too small to fit in target type"
  | outside n least greatest =>
    toString n ++ " is not in " ++ toString least ++ "..=" ++ toString greatest

/-- Reads decimal digits from left to right.  The first fault is reported, whether it is a character
that is no digit or a value beyond the limit. -/
def readDigits (limit : Nat) (beyond : NumberFault) : Nat → List Char → Except NumberFault Nat
  | n, [] => .ok n
  | n, c :: cs =>
    if !Endpoint.isDecimal c then .error .invalidDigit
    else
      let longer := n * 10 + (c.toNat - 48)
      if limit < longer then .error beyond else readDigits limit beyond longer cs

/-- The number of 64 bits without a sign that a text denotes. -/
def unsigned (text : String) : Except NumberFault Nat :=
  match text.toList with
  | [] => .error .empty
  | ['+'] => .error .invalidDigit
  | '+' :: cs => readDigits (Nat.pow 2 64 - 1) .tooLarge 0 cs
  | cs => readDigits (Nat.pow 2 64 - 1) .tooLarge 0 cs

/-- The number of 64 bits with a sign that a text denotes. -/
def signed (text : String) : Except NumberFault Int :=
  match text.toList with
  | [] => .error .empty
  | ['+'] | ['-'] => .error .invalidDigit
  | '+' :: cs => (readDigits (Nat.pow 2 63 - 1) .tooLarge 0 cs).map Int.ofNat
  | '-' :: cs => (readDigits (Nat.pow 2 63) .tooSmall 0 cs).map fun n => -Int.ofNat n
  | cs => (readDigits (Nat.pow 2 63 - 1) .tooLarge 0 cs).map Int.ofNat

/-- The number between two bounds that a text denotes. -/
def bounded (least greatest : Int) (text : String) : Except NumberFault Int := do
  let n ← signed text
  if least ≤ n ∧ n ≤ greatest then return n else throw (.outside n least greatest)

/-- Gives an option the value a text denotes. -/
def Setting.assign (s : Setting) (text : String) (o : Options) : Except NumberFault Options :=
  match s with
  | port => do return { o with port := UInt16.ofNat (← bounded 0 65535 text).toNat }
  | networkId => do
    return { o with networkId := Int32.ofInt (← bounded (-2147483648) 2147483647 text) }
  | name => .ok { o with name := text }
  | peers => .ok { o with peers := some text }
  | target => do return { o with target := ← unsigned text }
  | statusEvery => do return { o with statusEvery := ← unsigned text }

/-- Whether a character is a blank in any script. -/
def isBlank (c : Char) : Bool :=
  let n := c.toNat
  (9 ≤ n && n ≤ 13) || n = 0x20 || n = 0x85 || n = 0xA0 || n = 0x1680 || (0x2000 ≤ n && n ≤ 0x200A)
    || n = 0x2028 || n = 0x2029 || n = 0x202F || n = 0x205F || n = 0x3000

/-- A text without the blanks around it. -/
def trim (cs : List Char) : List Char :=
  ((cs.dropWhile isBlank).reverse.dropWhile isBlank).reverse

/-- The addresses in a text that has commas between them.  Blanks around an address do not matter,
and where nothing else stands there is no address. -/
def addresses (text : String) : List String :=
  (((IPv4.split ',' text.toList).map trim).filter (· ≠ [])).map String.ofList

/-- The configuration of the node. -/
def Options.config (o : Options) : NodeConfig where
  listenPort := o.port
  networkId := o.networkId
  name := NodeName.ofText o.name
  target := o.target
  bootstrap := (o.peers.map addresses).getD []

/-- What the program says about its options. -/
def helpText : String :=
  "Standalone Freedom P2P node\n"
  ++ "\n"
  ++ "Usage: freedom-node [OPTIONS]\n"
  ++ "\n"
  ++ "Options:\n"
  ++ "  -p, --port <PORT>                  "
  ++ "Port to listen on (0 picks a free port) [default: 11250]\n"
  ++ "  -n, --netid <NETID>                "
  ++ "Network id; peers on other networks are refused [default: 0]\n"
  ++ "      --name <NAME>                  "
  ++ "Node name advertised in the handshake (up to 16 bytes) [default: freedom-node]\n"
  ++ "      --peers <PEERS>                "
  ++ "Initial peers to connect to (comma-separated host:port)\n"
  ++ "  -t, --target <TARGET>              Number of peers to maintain [default: 20]\n"
  ++ "      --status-every <STATUS_EVERY>  Seconds between status lines [default: 30]\n"
  ++ "  -v, --verbose...                   More logging (-v debug, -vv trace)\n"
  ++ "  -h, --help                         Print help\n"
  ++ "  -V, --version                      Print version\n"

/-- What the program says about its version. -/
def versionText : String := programName ++ " " ++ programVersion ++ "\n"

/-- What the program says when its node listens. -/
def listeningText (address : SocketAddress) (uid : Int32) : String :=
  "Listening on " ++ address.render ++ " (uid " ++ toString uid.toInt ++ ")\n"

/-- What the program says before its node stops. -/
def stoppingText : String := "Shutting down node...\n"

end GossipNode.CommandLine
