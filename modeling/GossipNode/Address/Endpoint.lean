/-!
# Addresses as text

An address is a host, a colon and a port.  The host may hold colons itself: the last one counts.
The port is a number of sixteen bits in decimal digits, with zeros in front as one likes and
perhaps a plus sign before them.

## Main definitions

* `Endpoint` — a host and a port.
* `Endpoint.parse?` — the endpoint a text denotes.
-/

namespace GossipNode

/-- A host and a port. -/
structure Endpoint where
  host : String
  port : UInt16
  deriving DecidableEq, Repr, Inhabited

namespace Endpoint

/-- The characters before and after the last colon. -/
def splitAtLastColon? (cs : List Char) : Option (List Char × List Char) :=
  match cs.reverse.span (· ≠ ':') with
  | (_, []) => none
  | (after, _ :: before) => some (before.reverse, after.reverse)

/-- Whether a character is one of the ten decimal digits. -/
def isDecimal (c : Char) : Bool := '0' ≤ c && c ≤ '9'

/-- The number a list of decimal digits denotes. -/
def decimalValue (cs : List Char) : Nat := cs.foldl (fun n c => n * 10 + (c.toNat - 48)) 0

/-- The digits of a port, without the plus sign it may begin with. -/
def portDigits : List Char → List Char
  | '+' :: cs => cs
  | cs => cs

/-- The port a text denotes. -/
def port? (cs : List Char) : Option UInt16 :=
  let digits := portDigits cs
  if digits ≠ [] ∧ digits.all isDecimal ∧ decimalValue digits ≤ 65535 then
    some (UInt16.ofNat (decimalValue digits))
  else none

/-- The endpoint a text denotes. -/
def parse? (text : String) : Option Endpoint := do
  let (host, port) ← splitAtLastColon? text.toList
  if host = [] then none
  let port ← port? port
  return ⟨String.ofList host, port⟩

/-- The text of an endpoint. -/
def render (e : Endpoint) : String := e.host ++ ":" ++ toString e.port.toNat

end Endpoint

end GossipNode
