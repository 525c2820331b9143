import GossipNode.Json.Fault

/-!
# Reading strings byte by byte

A string is read from the byte after its opening quote.  `StringReader` keeps its content;
`StringSkipper` only finds its end, and asks less of it: it minds neither the encoding nor
surrogates.

## Main definitions

* `StringReader`, `StringReader.step` — strings that are kept.
* `StringSkipper`, `StringSkipper.step` — strings that are passed over.
-/

namespace GossipNode

/-- The value of a hexadecimal digit of either case. -/
def hexValue? (b : UInt8) : Option Nat :=
  if isDigit b then some (digitValue b)
  else if 0x41 ≤ b ∧ b ≤ 0x46 then some (b.toNat - 0x37)
  else if 0x61 ≤ b ∧ b ≤ 0x66 then some (b.toNat - 0x57)
  else none

/-- The number four hexadecimal digits stand for. -/
def hexNumber? : Bytes → Option Nat
  | [a, b, c, d] => do
    let a ← hexValue? a
    let b ← hexValue? b
    let c ← hexValue? c
    let d ← hexValue? d
    return ((a * 16 + b) * 16 + c) * 16 + d
  | _ => none

/-- The byte an escape of two characters stands for, given its second character. -/
def shortEscape? (b : UInt8) : Option UInt8 :=
  if b = 0x22 then some 0x22
  else if b = 0x5C then some 0x5C
  else if b = 0x2F then some 0x2F
  else if b = 0x62 then some 0x08
  else if b = 0x66 then some 0x0C
  else if b = 0x6E then some 0x0A
  else if b = 0x72 then some 0x0D
  else if b = 0x74 then some 0x09
  else none

/-- Where in a string a reader stands. -/
inductive StringStage
  /-- Between characters. -/
  | plain
  /-- After a backslash. -/
  | escape
  /-- After `\u` and fewer than four bytes, which should be digits. -/
  | unicode (digits : Bytes)
  /-- After a leading surrogate: a backslash is due. -/
  | paired (high : Nat)
  /-- After a leading surrogate and a backslash: `u` is due. -/
  | pairedEscape (high : Nat)
  /-- After a leading surrogate, `\u` and fewer than four bytes. -/
  | pairedUnicode (high : Nat) (digits : Bytes)
  deriving DecidableEq, Repr

/-- A string being read: the bytes of its content so far, last first, and the place in it. -/
structure StringReader where
  content : Bytes
  stage : StringStage
  deriving DecidableEq, Repr

namespace StringReader

/-- The reader just after an opening quote. -/
def start : StringReader := ⟨[], .plain⟩

/-- The content with a character behind it. -/
def put (content : Bytes) (n : Nat) : StringReader :=
  ⟨(Utf8.encodeChar (Char.ofNat n)).reverse ++ content, .plain⟩

/-- What four bytes after `\u` mean.  A leading surrogate waits for its partner; a trailing one
alone is refused. -/
def unit (content digits : Bytes) : Step StringReader String :=
  match hexNumber? digits with
  | none => .refuseAt .invalidEscape
  | some n =>
    if 0xDC00 ≤ n ∧ n ≤ 0xDFFF then .refuseAt .loneSurrogate
    else if 0xD800 ≤ n ∧ n ≤ 0xDBFF then .next ⟨content, .paired n⟩
    else .next (put content n)

/-- What four bytes after a leading surrogate and `\u` mean. -/
def partner (content : Bytes) (high : Nat) (digits : Bytes) : Step StringReader String :=
  match hexNumber? digits with
  | none => .refuseAt .invalidEscape
  | some low =>
    if 0xDC00 ≤ low ∧ low ≤ 0xDFFF then
      .next (put content (0x10000 + (high - 0xD800) * 0x400 + (low - 0xDC00)))
    else .refuseAt .loneSurrogate

/-- The content is not UTF-8.  This is noticed at the closing quote, but the place of the fault is
after the first byte that belongs to no character. -/
def notUtf8 (content : Bytes) : Step StringReader String :=
  .refuse (.syntactic .notUtf8) (.back (content.length - Utf8.soundLength content - 1))

/-- Reads one byte.  The encoding is checked at the closing quote. -/
def step (r : StringReader) (b : UInt8) : Step StringReader String :=
  match r.stage with
  | .plain =>
    if b = 0x22 then
      match ofUtf8? r.content.reverse with
      | some s => .done s
      | none => notUtf8 r.content.reverse
    else if b = 0x5C then .next ⟨r.content, .escape⟩
    else if b < 0x20 then .refuseAt .controlCharacter
    else .next ⟨b :: r.content, .plain⟩
  | .escape =>
    if b = 0x75 then .next ⟨r.content, .unicode []⟩
    else
      match shortEscape? b with
      | some c => .next ⟨c :: r.content, .plain⟩
      | none => .refuseAt .invalidEscape
  | .unicode digits =>
    if digits.length < 3 then .next ⟨r.content, .unicode (digits ++ [b])⟩
    else unit r.content (digits ++ [b])
  | .paired high =>
    if b = 0x5C then .next ⟨r.content, .pairedEscape high⟩ else .refuseAt .surrogateCutShort
  | .pairedEscape high =>
    if b = 0x75 then .next ⟨r.content, .pairedUnicode high []⟩ else .refuseAt .surrogateCutShort
  | .pairedUnicode high digits =>
    if digits.length < 3 then .next ⟨r.content, .pairedUnicode high (digits ++ [b])⟩
    else partner r.content high (digits ++ [b])

end StringReader

/-- Where in a string that is passed over a reader stands. -/
inductive StringSkipper
  | plain
  | escape
  | unicode (digits : Bytes)
  deriving DecidableEq, Repr

namespace StringSkipper

/-- Passes one byte.  A control character is refused where it stands, not after it. -/
def step (r : StringSkipper) (b : UInt8) : Step StringSkipper Unit :=
  match r with
  | .plain =>
    if b = 0x22 then .done ()
    else if b = 0x5C then .next .escape
    else if b < 0x20 then .refuse (.syntactic .controlCharacter) .before
    else .next .plain
  | .escape =>
    if b = 0x75 then .next (.unicode [])
    else if (shortEscape? b).isSome then .next .plain
    else .refuseAt .invalidEscape
  | .unicode digits =>
    if digits.length < 3 then .next (.unicode (digits ++ [b]))
    else if (hexNumber? (digits ++ [b])).isSome then .next .plain
    else .refuseAt .invalidEscape

end StringSkipper

end GossipNode
