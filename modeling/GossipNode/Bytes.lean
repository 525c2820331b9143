/-!
# Bytes

The stretch of bytes every other module reads and writes, and its hexadecimal text.

## Main definitions

* `Bytes` — a finite list of bytes, first byte first.
* `Bytes.toHex` — two lower-case digits per byte.
-/

namespace GossipNode

/-- A finite stretch of bytes, first byte first. -/
abbrev Bytes := List UInt8

/-- The lower-case hexadecimal digit of a number below sixteen. -/
def hexDigit (n : Nat) : Char :=
  if n < 10 then Char.ofNat (n + 48) else Char.ofNat (n + 87)

namespace Bytes

/-- The two hexadecimal digits of one byte, the high one first. -/
def hexPair (b : UInt8) : List Char :=
  [hexDigit (b.toNat / 16), hexDigit (b.toNat % 16)]

/-- Two lower-case digits per byte. -/
def toHex (bs : Bytes) : String :=
  String.ofList (bs.flatMap hexPair)

end Bytes

end GossipNode
