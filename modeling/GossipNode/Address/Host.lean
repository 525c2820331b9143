import GossipNode.Address.Ip

/-!
# Hosts

The host of an endpoint is the text of an address, or a name.  Apart from its usual text, an address
of version four may be given as one to four numbers between dots, each in decimal, octal or
hexadecimal digits, the last of which fills all bytes that are left; and one of version six may be
followed by a percent sign and the zone it belongs to.

How names are looked up is the affair of the system a node runs on, and nothing is taken for granted
about its answers: a `Resolver` may find several hosts, or none.  `Host.find` is the resolver of a
machine by itself, which knows no name but its own and has no one to ask for the others.

## Main definitions

* `Host` — an address and its zone.
* `HostFault` — why a text stands for no host.
* `Resolver` — what a system finds for a text.
* `Host.find` — the host a text stands for on a machine by itself.
-/

namespace GossipNode

/-- An address and the number of its zone, zero if it belongs to none. -/
structure Host where
  ip : IpAddress
  zone : Nat
  deriving DecidableEq, Repr, Inhabited

/-- Why a text stands for no host. -/
inductive HostFault
  /-- The text holds the character NUL. -/
  | holdsNul
  /-- The text is neither an address nor a name. -/
  | notName
  /-- The text is a name, and no one answers who could know it. -/
  | unanswered
  | other (text : String)
  deriving DecidableEq, Repr

/-- The words for a fault of a host. -/
def HostFault.message : HostFault → String
  | holdsNul => "file name contained an unexpected NUL byte"
  | notName => "failed to lookup address information: Name or service not known"
  | unanswered => "failed to lookup address information: Temporary failure in name resolution"
  | other text => text

/-- What a system finds for a text: the hosts it stands for, in the order in which they come. -/
abbrev Resolver := String → Except HostFault (List Host)

/-- The number that digits of a base denote, if they are digits of that base. -/
def numberInBase? (base : Nat) (cs : List Char) : Option Nat := do
  let digits ← cs.mapM IPv6.hexDigit?
  if digits.all (· < base) then return digits.foldl (fun n d => n * base + d) 0 else none

namespace IPv4

/-- A number: hexadecimal after `0x`, octal after a zero, and decimal otherwise. -/
def number? : List Char → Option Nat
  | [] => none
  | ['0', 'x'] | ['0', 'X'] => none
  | '0' :: 'x' :: cs | '0' :: 'X' :: cs => numberInBase? 16 cs
  | '0' :: cs => numberInBase? 8 cs
  | cs => numberInBase? 10 cs

/-- The address of a number of four bytes, the first of which counts most. -/
def ofNat (n : Nat) : IPv4 :=
  ⟨UInt8.ofNat (n / Nat.pow 2 24), UInt8.ofNat (n / Nat.pow 2 16), UInt8.ofNat (n / Nat.pow 2 8),
    UInt8.ofNat n⟩

/-- The number of `bytes` bytes that a list of numbers denotes: one byte for each, and for the last
one all that are left. -/
def combine? : (bytes : Nat) → List Nat → Option Nat
  | 0, _ | _, [] => none
  | bytes + 1, [n] => if n < Nat.pow 256 (bytes + 1) then some n else none
  | bytes + 1, n :: ns => do
    let rest ← combine? bytes ns
    if n < 256 then return n * Nat.pow 256 bytes + rest else none

/-- The address that numbers between dots denote. -/
def ofNumbers? (cs : List Char) : Option IPv4 := do
  let numbers ← (split '.' cs).mapM number?
  return ofNat (← combine? 4 numbers)

end IPv4

namespace IPv6

/-- Whether an address is one of a link. -/
def isOfLink (ip : IPv6) : Bool := (ip.groups.headD 0) &&& 0xFFC0 = 0xFE80

/-- Whether an address is one of a group on a single machine or link. -/
def isOfNearGroup (ip : IPv6) : Bool :=
  let first := ip.groups.headD 0
  first &&& 0xFF0F = 0xFF01 || first &&& 0xFF0F = 0xFF02

/-- The number of a zone: the one given, or, for addresses that mean nothing beyond their zone, that
of the interface named, of which there is only the one by which a machine talks to itself. -/
def zone? (ip : IPv6) (cs : List Char) : Option Nat :=
  if (ip.isOfLink || ip.isOfNearGroup) && cs = ['l', 'o'] then some 1
  else if cs = [] then none
  else do
    let n ← numberInBase? 10 cs
    if n < Nat.pow 2 32 then return n else none

/-- The characters before and after the first percent sign. -/
def splitZone? (cs : List Char) : Option (List Char × List Char) :=
  match cs.span (· ≠ '%') with
  | (_, []) => none
  | (front, _ :: zone) => some (front, zone)

/-- The address and the zone that a text with a percent sign denotes; no zone if it is none. -/
def zoned? (cs : List Char) : Option (IPv6 × Option Nat) := do
  let (front, zone) ← splitZone? cs
  let ip ← ofChars? front
  return (ip, ip.zone? zone)

end IPv6

namespace Host

/-- The name of the machine itself. -/
def ownName : String := "localhost"

/-- The host that a text stands for which is not the usual text of an address. -/
def findOther (text : String) : Except HostFault Host :=
  let cs := text.toList
  if '\x00' ∈ cs then .error .holdsNul
  else if text = ownName then .ok ⟨.v4 .localhost, 0⟩
  else if cs = ['*'] then .error .notName
  else
    match IPv4.ofNumbers? cs, IPv6.zoned? cs with
    | some ip, _ => .ok ⟨.v4 ip, 0⟩
    | none, some (ip, some zone) => .ok ⟨.v6 ip, zone⟩
    | none, some (_, none) => .error .notName
    | none, none => .error .unanswered

/-- The host a text stands for on a machine by itself. -/
def find (text : String) : Except HostFault Host :=
  match IpAddress.parse? text with
  | some ip => .ok ⟨ip, 0⟩
  | none => findOther text

/-- The resolver of a machine by itself. -/
def resolve : Resolver := fun text => (find text).map ([·])

/-- The address of a host, if it is one of version four. -/
def v4? (h : Host) : Option IPv4 :=
  match h.ip with
  | .v4 ip => some ip
  | .v6 _ => none

/-- Whether a host cannot be reached for want of a zone. -/
def lacksZone (h : Host) : Bool :=
  match h.ip with
  | .v4 _ => false
  | .v6 ip => ip.isOfLink && h.zone = 0

/-- The text of an address stands for that address. -/
theorem find_of_parse? {text : String} {ip : IpAddress} (h : IpAddress.parse? text = some ip) :
    find text = .ok ⟨ip, 0⟩ := by
  simp [find, h]

end Host

end GossipNode
