import GossipNode.Bytes

/-!
# UTF-8

Characters as bytes and back.  Decoding is strict: every character has one spelling, the shortest
one, and neither surrogates nor numbers above `0x10FFFF` are characters.

## Main definitions

* `Utf8.encode` — the bytes of a list of characters.
* `Utf8.decode?` — the characters of a stretch of bytes, if it is UTF-8.
* `Utf8.soundLength` — how far a stretch of bytes is UTF-8.
* `utf8`, `ofUtf8?` — the same two for strings.
-/

namespace GossipNode.Utf8

/-- A byte that continues a character: the payload of `tail n` is the low six bits of `n`. -/
def tail (n : Nat) : UInt8 := UInt8.ofNat (0x80 + n % 64)

/-- The one to four bytes of a character. -/
def encodeChar (c : Char) : Bytes :=
  let n := c.toNat
  if n < 0x80 then [UInt8.ofNat n]
  else if n < 0x800 then [UInt8.ofNat (0xC0 + n / 64), tail n]
  else if n < 0x10000 then [UInt8.ofNat (0xE0 + n / 4096), tail (n / 64), tail n]
  else [UInt8.ofNat (0xF0 + n / 262144), tail (n / 4096), tail (n / 64), tail n]

/-- The bytes of a list of characters. -/
def encode (cs : List Char) : Bytes := cs.flatMap encodeChar

/-- The six bits a continuation byte carries, if it is one. -/
def tailBits? (b : UInt8) : Option Nat :=
  if 0x80 ≤ b ∧ b < 0xC0 then some (b.toNat - 0x80) else none

/-- The character numbered `n`, if `n` is a scalar value of at least `least`: a number that a
shorter spelling reaches is refused. -/
def scalar? (least n : Nat) : Option Char :=
  if least ≤ n ∧ n.isValidChar then some (Char.ofNat n) else none

/-- The first character of a nonempty stretch of bytes, given its first byte, and the bytes after
it. -/
def decodeChar? (a : UInt8) (rest : Bytes) : Option (Char × Bytes) :=
  if a < 0x80 then some (Char.ofNat a.toNat, rest)
  else if a < 0xC0 then none
  else if a < 0xE0 then
    match rest with
    | b :: rest => do
      let y ← tailBits? b
      let c ← scalar? 0x80 ((a.toNat - 0xC0) * 64 + y)
      return (c, rest)
    | _ => none
  else if a < 0xF0 then
    match rest with
    | b :: c :: rest => do
      let y ← tailBits? b
      let z ← tailBits? c
      let c ← scalar? 0x800 (((a.toNat - 0xE0) * 64 + y) * 64 + z)
      return (c, rest)
    | _ => none
  else if a < 0xF8 then
    match rest with
    | b :: c :: d :: rest => do
      let x ← tailBits? b
      let y ← tailBits? c
      let z ← tailBits? d
      let c ← scalar? 0x10000 ((((a.toNat - 0xF0) * 64 + x) * 64 + y) * 64 + z)
      return (c, rest)
    | _ => none
  else none

/-- Reads characters until the bytes run out; `seen` holds those read so far, last first.  Each
round takes at least one byte, so as many rounds as there are bytes are enough. -/
def decodeLoop : (rounds : Bytes) → Bytes → (seen : List Char) → Option (List Char)
  | _, [], seen => some seen.reverse
  | [], _ :: _, _ => none
  | _ :: rounds, a :: rest, seen =>
    match decodeChar? a rest with
    | some (c, rest) => decodeLoop rounds rest (c :: seen)
    | none => none

/-- The characters of a stretch of bytes, if it is UTF-8. -/
def decode? (bs : Bytes) : Option (List Char) := decodeLoop bs bs []

/-- Counts the bytes of characters until the bytes run out or belong to no character; `sound` have
been counted. -/
def soundLoop : (rounds : Bytes) → Bytes → (sound : Nat) → Nat
  | _, [], sound => sound
  | [], _ :: _, sound => sound
  | _ :: rounds, a :: rest, sound =>
    match decodeChar? a rest with
    | some (c, rest) => soundLoop rounds rest (sound + (encodeChar c).length)
    | none => sound

/-- How many bytes at the front of a stretch are UTF-8: all of them, or those before the first byte
that belongs to no character. -/
def soundLength (bs : Bytes) : Nat := soundLoop bs bs 0

end GossipNode.Utf8

namespace GossipNode

/-- The bytes of a string. -/
def utf8 (s : String) : Bytes := Utf8.encode s.toList

/-- The string a stretch of bytes spells, if it is UTF-8. -/
def ofUtf8? (bs : Bytes) : Option String := (Utf8.decode? bs).map String.ofList

end GossipNode
