import GossipNode.Address.Endpoint

/-!
# Addresses as numbers

Internet addresses of both versions, alone and with a port, and their texts.  An address of version
six is written with its longest run of two or more zero groups left out, the first of several; one
that stands for an address of version four shows it in dotted form.

## Main definitions

* `IPv4`, `IPv6`, `IpAddress` — addresses.
* `SocketAddress` — an address and a port.
* `IpAddress.parse?`, `SocketAddress.parse?` — the address a text denotes.
* `IpAddress.render`, `SocketAddress.render` — the text of an address.
-/

namespace GossipNode

/-- An address of version four: four bytes. -/
structure IPv4 where
  a : UInt8
  b : UInt8
  c : UInt8
  d : UInt8
  deriving DecidableEq, Repr, Inhabited

/-- An address of version six: eight groups of sixteen bits. -/
structure IPv6 where
  groups : List UInt16
  length_eq : groups.length = 8
  deriving DecidableEq, Repr

/-- An address of either version. -/
inductive IpAddress
  | v4 (ip : IPv4)
  | v6 (ip : IPv6)
  deriving DecidableEq, Repr

instance : Inhabited IpAddress := ⟨.v4 default⟩

/-- An address and a port. -/
structure SocketAddress where
  ip : IpAddress
  port : UInt16
  deriving DecidableEq, Repr, Inhabited

namespace IPv4

/-- One to three decimal digits, without a zero in front, of a number below 256. -/
def byte? (cs : List Char) : Option UInt8 :=
  let n := Endpoint.decimalValue cs
  if cs ≠ [] ∧ cs.length ≤ 3 ∧ cs.all Endpoint.isDecimal ∧ n < 256
      ∧ (cs.head? ≠ some '0' ∨ cs.length = 1) then
    some (UInt8.ofNat n)
  else none

/-- The parts of a text between occurrences of a character. -/
def split (sep : Char) : List Char → List (List Char)
  | [] => [[]]
  | c :: cs =>
    match split sep cs with
    | [] => [[c]]
    | part :: parts => if c = sep then [] :: part :: parts else (c :: part) :: parts

/-- The address a dotted text denotes. -/
def ofChars? (cs : List Char) : Option IPv4 :=
  match split '.' cs with
  | [a, b, c, d] => do return ⟨← byte? a, ← byte? b, ← byte? c, ← byte? d⟩
  | _ => none

/-- The dotted text of an address. -/
def render (ip : IPv4) : String :=
  ".".intercalate ([ip.a, ip.b, ip.c, ip.d].map fun b => toString b.toNat)

/-- The two groups of an address of version six that hold an address of version four. -/
def groups (ip : IPv4) : List UInt16 :=
  [UInt16.ofNat (ip.a.toNat * 256 + ip.b.toNat), UInt16.ofNat (ip.c.toNat * 256 + ip.d.toNat)]

/-- The address every interface answers to. -/
def any : IPv4 := ⟨0, 0, 0, 0⟩

/-- The address of the machine itself. -/
def localhost : IPv4 := ⟨127, 0, 0, 1⟩

end IPv4

namespace IPv6

/-- The value of a hexadecimal digit. -/
def hexDigit? (c : Char) : Option Nat :=
  if Endpoint.isDecimal c then some (c.toNat - 48)
  else if 'a' ≤ c ∧ c ≤ 'f' then some (c.toNat - 87)
  else if 'A' ≤ c ∧ c ≤ 'F' then some (c.toNat - 55)
  else none

/-- One to four hexadecimal digits. -/
def group? (cs : List Char) : Option UInt16 := do
  if cs = [] ∨ 4 < cs.length then none
  let digits ← cs.mapM hexDigit?
  return UInt16.ofNat (digits.foldl (fun n d => n * 16 + d) 0)

/-- The groups of parts between colons; the last part may be an address of version four. -/
def groupsOf? : List (List Char) → Option (List UInt16)
  | [] => some []
  | [part] =>
    match IPv4.ofChars? part with
    | some ip => some ip.groups
    | none => do return [← group? part]
  | part :: parts => do return (← group? part) :: (← groupsOf? parts)

/-- The groups of a text that leaves none out. -/
def fullGroups? (cs : List Char) : Option (List UInt16) :=
  if cs = [] then some [] else groupsOf? (IPv4.split ':' cs)

/-- The characters before and after the first two colons in a row. -/
def splitAtGap? : List Char → Option (List Char × List Char)
  | ':' :: ':' :: cs => some ([], cs)
  | c :: cs => (splitAtGap? cs).map fun (before, after) => (c :: before, after)
  | [] => none

/-- The address of eight groups. -/
def ofGroups? (groups : List UInt16) : Option IPv6 :=
  if h : groups.length = 8 then some ⟨groups, h⟩ else none

/-- The address a text denotes: eight groups, or fewer with a gap for at least one zero group. -/
def ofChars? (cs : List Char) : Option IPv6 :=
  match splitAtGap? cs with
  | none => if cs = [] then none else fullGroups? cs >>= ofGroups?
  | some (before, after) => do
    if before.contains '.' then none
    let front ← fullGroups? before
    let back ← fullGroups? after
    if 8 ≤ front.length + back.length then none
    ofGroups? (front ++ List.replicate (8 - front.length - back.length) 0 ++ back)

/-- Whether an address is the one every interface answers to. -/
def isAny (ip : IPv6) : Bool := ip.groups.all (· = 0)

/-- Whether an address stands for one of version four. -/
def isOfVersionFour (ip : IPv6) : Bool := ip.groups.take 6 = [0, 0, 0, 0, 0, 0xFFFF]

/-- The length of the run of zeros at the front. -/
def zeroRun (groups : List UInt16) : Nat := (groups.takeWhile (· = 0)).length

/-- Where the longest run of zero groups starts and how long it is; the first of several. -/
def longestRun (groups : List UInt16) : Nat × Nat :=
  (List.range groups.length).foldl
    (fun best i =>
      let run := zeroRun (groups.drop i)
      if best.2 < run then (i, run) else best)
    (0, 0)

/-- Groups in hexadecimal digits between colons. -/
def renderGroups (groups : List UInt16) : String :=
  ":".intercalate (groups.map fun g => String.ofList (Nat.toDigits 16 g.toNat))

/-- The text of an address. -/
def render (ip : IPv6) : String :=
  match ip.groups with
  | [0, 0, 0, 0, 0, 0xFFFF, g, h] =>
    "::ffff:" ++ IPv4.render ⟨UInt8.ofNat (g.toNat / 256), UInt8.ofNat (g.toNat % 256),
      UInt8.ofNat (h.toNat / 256), UInt8.ofNat (h.toNat % 256)⟩
  | groups =>
    let (start, run) := longestRun groups
    if 1 < run then
      renderGroups (groups.take start) ++ "::" ++ renderGroups (groups.drop (start + run))
    else renderGroups groups

end IPv6

namespace IpAddress

/-- The address a text denotes. -/
def parse? (text : String) : Option IpAddress :=
  match IPv4.ofChars? text.toList with
  | some ip => some (.v4 ip)
  | none => (IPv6.ofChars? text.toList).map .v6

/-- The text of an address. -/
def render : IpAddress → String
  | .v4 ip => ip.render
  | .v6 ip => ip.render

end IpAddress

namespace SocketAddress

/-- The text of an address and a port; brackets keep the colons of version six apart. -/
def render (a : SocketAddress) : String :=
  match a.ip with
  | .v4 ip => ip.render ++ ":" ++ toString a.port.toNat
  | .v6 ip => "[" ++ ip.render ++ "]:" ++ toString a.port.toNat

/-- The address and port a text denotes. -/
def parse? (text : String) : Option SocketAddress := do
  let (host, port) ← Endpoint.splitAtLastColon? text.toList
  if port.head? = some '+' then none
  let port ← Endpoint.port? port
  match host with
  | '[' :: cs =>
    if cs.getLast? ≠ some ']' then none
    return ⟨.v6 (← IPv6.ofChars? cs.dropLast), port⟩
  | cs => return ⟨.v4 (← IPv4.ofChars? cs), port⟩

end SocketAddress

end GossipNode
