import GossipNode.Json.Value
import GossipNode.Text.Utf8

/-!
# Writing JSON

The compact text of a value: no blanks, members in the order they stand in, and in strings only the
quote, the backslash and bytes below `0x20` escaped.

Output is collected backwards, last byte first, so that long arrays are written in one loop.

## Main definitions

* `Scalar.render` — the bytes of a scalar.
* `Json.push` — puts the bytes of a value in front of those collected so far.
* `Json.render` — the bytes of a value.
-/

namespace GossipNode

/-- The bytes of a text of ASCII characters. -/
def ascii (cs : List Char) : Bytes := cs.map fun c => UInt8.ofNat c.toNat

/-- The decimal digits of a natural number. -/
def decimalBytes (n : Nat) : Bytes := ascii (Nat.toDigits 10 n)

/-- The decimal digits of a whole number, after a minus sign if it is below zero. -/
def integerBytes (n : Int) : Bytes :=
  if n < 0 then 0x2D :: decimalBytes n.natAbs else decimalBytes n.natAbs

namespace JsonString

/-- One byte as it stands in a string.  Bytes above `0x7F` belong to characters that stand for
themselves. -/
def escape (b : UInt8) : Bytes :=
  if b = 0x22 then ascii ['\\', '"']
  else if b = 0x5C then ascii ['\\', '\\']
  else if 0x20 ≤ b then [b]
  else if b = 0x08 then ascii ['\\', 'b']
  else if b = 0x09 then ascii ['\\', 't']
  else if b = 0x0A then ascii ['\\', 'n']
  else if b = 0x0C then ascii ['\\', 'f']
  else if b = 0x0D then ascii ['\\', 'r']
  else ascii (['\\', 'u', '0', '0'] ++ Bytes.hexPair b)

/-- A string between quotes. -/
def render (s : String) : Bytes := 0x22 :: (utf8 s).flatMap escape ++ [0x22]

end JsonString

/-- The bytes of a scalar. -/
def Scalar.render : Scalar → Bytes
  | .null => ascii ['n', 'u', 'l', 'l']
  | .bool true => ascii ['t', 'r', 'u', 'e']
  | .bool false => ascii ['f', 'a', 'l', 's', 'e']
  | .integer n => integerBytes n
  | .float x => ascii x.text
  | .string s => JsonString.render s

namespace Json

/-- Puts a name and its colon in front of the bytes collected so far. -/
def pushName (out : Bytes) (name : String) : Bytes :=
  0x3A :: (JsonString.render name).reverseAux out

mutual

/-- Puts the bytes of a value in front of those collected so far. -/
def push (out : Bytes) : Json → Bytes
  | .scalar s => s.render.reverseAux out
  | .array [] => 0x5D :: 0x5B :: out
  | .array (v :: vs) => 0x5D :: pushItems (push (0x5B :: out) v) vs
  | .object [] => 0x7D :: 0x7B :: out
  | .object ((n, v) :: ms) => 0x7D :: pushMembers (push (pushName (0x7B :: out) n) v) ms

/-- Puts further items, each after a comma, in front of the bytes collected so far. -/
def pushItems (out : Bytes) : List Json → Bytes
  | [] => out
  | v :: vs => pushItems (push (0x2C :: out) v) vs

/-- Puts further members, each after a comma, in front of the bytes collected so far. -/
def pushMembers (out : Bytes) : List (String × Json) → Bytes
  | [] => out
  | (n, v) :: ms => pushMembers (push (pushName (0x2C :: out) n) v) ms

end

/-- The bytes of a value. -/
def render (v : Json) : Bytes := (push [] v).reverse

end Json

end GossipNode
