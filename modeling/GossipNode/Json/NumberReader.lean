import GossipNode.Json.Fault

/-!
# Reading numbers byte by byte

A number is read from its first byte on.  It has no last byte of its own: it ends before the first
byte that cannot continue it.  Digits are collected as long as they fit into 64 bits; later ones
only move the decimal point.  A number without fraction and exponent that fits into 64 bits is
whole, unless it is minus zero; every other number is a binary64 number.

`NumberSkipper` only finds the end of a number.  It does not take the end of the text for an
interruption: a number that lacks a digit there is refused.

## Main definitions

* `NumberReader`, `NumberReader.step`, `NumberReader.atEnd` — numbers that are kept.
* `NumberSkipper`, `NumberSkipper.step`, `NumberSkipper.atEnd` — numbers that are passed over.
-/

namespace GossipNode

/-- The largest number of 64 bits. -/
def maxUnsigned64 : Nat := Nat.pow 2 64 - 1

/-- The largest exponent that is told from a larger one. -/
def maxExponent : Nat := Nat.pow 2 31 - 1

/-- Where in a number a reader stands.  A significand and an exponent are those collected so far. -/
inductive NumberStage
  /-- After the minus sign. -/
  | minus
  /-- After a zero at the start. -/
  | zero
  /-- Among the digits before the point. -/
  | digits (significand : Nat)
  /-- Among digits before the point that no longer fit. -/
  | surplus (significand : Nat) (exponent : Int)
  /-- Just after the point. -/
  | point (significand : Nat) (exponent : Int)
  /-- Among the digits after the point. -/
  | fraction (significand : Nat) (exponent : Int)
  /-- Among digits after the point that no longer fit. -/
  | fractionSurplus (significand : Nat) (exponent : Int)
  /-- Just after the exponent mark. -/
  | mark (significand : Nat) (exponent : Int)
  /-- Just after the sign of the exponent. -/
  | markSign (significand : Nat) (exponent : Int) (negative : Bool)
  /-- Among the digits of the exponent. -/
  | power (significand : Nat) (exponent : Int) (negative : Bool) (value : Nat)
  /-- Among the digits of an exponent that makes the number zero. -/
  | vanished
  deriving DecidableEq, Repr

/-- A number being read. -/
structure NumberReader where
  negative : Bool
  stage : NumberStage
  deriving DecidableEq, Repr

namespace NumberReader

/-- The reader after the first byte of a number, if the byte starts one. -/
def start? (b : UInt8) : Option NumberReader :=
  if b = 0x2D then some ⟨true, .minus⟩
  else if b = 0x30 then some ⟨false, .zero⟩
  else if isDigit b then some ⟨false, .digits (digitValue b)⟩
  else none

/-- The value of a whole significand: whole if it fits, else rounded. -/
def wholeValue (negative : Bool) (significand : Nat) : Scalar :=
  if negative then
    if significand = 0 ∨ Nat.pow 2 63 < significand then
      .float ⟨true, Binary64.placeOf significand 1⟩
    else .integer (-significand)
  else .integer significand

/-- A number of parts, or the fault that it is too large. -/
def ofParts (negative : Bool) (significand : Nat) (exponent : Int) : Except Fault Scalar :=
  match Binary64.ofParts? negative significand exponent with
  | some x => .ok (.float x)
  | none => .error (.syntactic .numberOutOfRange)

/-- The value of a number that ends here; `none` where a digit is missing. -/
def value? (r : NumberReader) : Option (Except Fault Scalar) :=
  match r.stage with
  | .minus | .point .. | .mark .. | .markSign .. => none
  | .zero => some (.ok (wholeValue r.negative 0))
  | .digits s => some (.ok (wholeValue r.negative s))
  | .surplus s e | .fraction s e | .fractionSurplus s e => some (ofParts r.negative s e)
  | .power s e negative value =>
    some (ofParts r.negative s (if negative then e - value else e + value))
  | .vanished => some (.ok (.float ⟨r.negative, 0⟩))

/-- The number ends before the byte just seen. -/
def close (r : NumberReader) : Step NumberReader Scalar :=
  match r.value? with
  | some (.ok v) => .past v
  | some (.error fault) => .refuse fault .before
  | none => .refuseAt .invalidNumber

/-- One more digit before the point. -/
def digit (r : NumberReader) (significand : Nat) (b : UInt8) : NumberReader :=
  let longer := significand * 10 + digitValue b
  if longer ≤ maxUnsigned64 then ⟨r.negative, .digits longer⟩
  else ⟨r.negative, .surplus significand 1⟩

/-- One more digit after the point. -/
def fractionDigit (r : NumberReader) (significand : Nat) (exponent : Int) (b : UInt8) :
    NumberReader :=
  let longer := significand * 10 + digitValue b
  if longer ≤ maxUnsigned64 then ⟨r.negative, .fraction longer (exponent - 1)⟩
  else ⟨r.negative, .fractionSurplus significand exponent⟩

/-- One more digit of the exponent.  An exponent beyond all bounds makes the number zero or too
large, and the latter is refused at once. -/
def powerDigit (r : NumberReader) (significand : Nat) (exponent : Int) (negative : Bool)
    (value : Nat) (b : UInt8) : Step NumberReader Scalar :=
  let longer := value * 10 + digitValue b
  if longer ≤ maxExponent then .next ⟨r.negative, .power significand exponent negative longer⟩
  else if significand = 0 ∨ negative then .next ⟨r.negative, .vanished⟩
  else .refuseAt .numberOutOfRange

/-- The stage after a byte that starts a fraction or an exponent, if it does. -/
def turn? (r : NumberReader) (significand : Nat) (exponent : Int) (b : UInt8) :
    Option NumberReader :=
  if b = 0x2E then some ⟨r.negative, .point significand exponent⟩
  else if b = 0x65 ∨ b = 0x45 then some ⟨r.negative, .mark significand exponent⟩
  else none

/-- The stage after a byte that starts an exponent, if it does; else the number ends. -/
def markOrClose (r : NumberReader) (significand : Nat) (exponent : Int) (b : UInt8) :
    Step NumberReader Scalar :=
  if b = 0x65 ∨ b = 0x45 then .next ⟨r.negative, .mark significand exponent⟩ else r.close

/-- The stage after a byte that starts a fraction or an exponent; else the number ends. -/
def turnOrClose (r : NumberReader) (significand : Nat) (exponent : Int) (b : UInt8) :
    Step NumberReader Scalar :=
  match r.turn? significand exponent b with
  | some r => .next r
  | none => r.close

/-- Reads one byte. -/
def step (r : NumberReader) (b : UInt8) : Step NumberReader Scalar :=
  match r.stage with
  | .minus =>
    if b = 0x30 then .next ⟨r.negative, .zero⟩
    else if isDigit b then .next ⟨r.negative, .digits (digitValue b)⟩
    else .refuseAt .invalidNumber
  | .zero => if isDigit b then .refuseAt .invalidNumber else r.turnOrClose 0 0 b
  | .digits s => if isDigit b then .next (r.digit s b) else r.turnOrClose s 0 b
  | .surplus s e =>
    if isDigit b then .next ⟨r.negative, .surplus s (e + 1)⟩ else r.turnOrClose s e b
  | .point s e =>
    if isDigit b then .next (r.fractionDigit s e b) else .refuseAt .invalidNumber
  | .fraction s e => if isDigit b then .next (r.fractionDigit s e b) else r.markOrClose s e b
  | .fractionSurplus s e => if isDigit b then .next r else r.markOrClose s e b
  | .mark s e =>
    if b = 0x2B then .next ⟨r.negative, .markSign s e false⟩
    else if b = 0x2D then .next ⟨r.negative, .markSign s e true⟩
    else if isDigit b then r.powerDigit s e false 0 b
    else .refuseAt .invalidNumber
  | .markSign s e negative =>
    if isDigit b then r.powerDigit s e negative 0 b else .refuseAt .invalidNumber
  | .power s e negative value =>
    if isDigit b then r.powerDigit s e negative value b else r.close
  | .vanished => if isDigit b then .next r else r.close

/-- What the end of the text means: a number that lacks a digit may go on. -/
def atEnd (r : NumberReader) : Ending Scalar :=
  match r.value? with
  | some (.ok v) => .whole v
  | some (.error fault) => .refuse fault
  | none => .cut

end NumberReader

/-- Where in a number that is passed over a reader stands. -/
inductive NumberSkipper
  | minus
  | zero
  | digits
  | point
  | fraction
  | mark
  | markSign
  | power
  deriving DecidableEq, Repr

namespace NumberSkipper

/-- The stage after the first byte of a number, if the byte starts one. -/
def start? (b : UInt8) : Option NumberSkipper :=
  if b = 0x2D then some .minus
  else if b = 0x30 then some .zero
  else if isDigit b then some .digits
  else none

/-- Whether a digit is due. -/
def lacksDigit : NumberSkipper → Bool
  | .minus | .point | .mark | .markSign => true
  | .zero | .digits | .fraction | .power => false

/-- Passes one byte. -/
def step (r : NumberSkipper) (b : UInt8) : Step NumberSkipper Unit :=
  let exponentOrEnd : Step NumberSkipper Unit :=
    if b = 0x65 ∨ b = 0x45 then .next .mark else .past ()
  let turnOrEnd : Step NumberSkipper Unit := if b = 0x2E then .next .point else exponentOrEnd
  match r with
  | .minus =>
    if b = 0x30 then .next .zero
    else if isDigit b then .next .digits
    else .refuseAt .invalidNumber
  | .zero => if isDigit b then .refuseAt .invalidNumber else turnOrEnd
  | .digits => if isDigit b then .next .digits else turnOrEnd
  | .point => if isDigit b then .next .fraction else .refuseAt .invalidNumber
  | .fraction => if isDigit b then .next .fraction else exponentOrEnd
  | .mark =>
    if b = 0x2B ∨ b = 0x2D then .next .markSign
    else if isDigit b then .next .power
    else .refuseAt .invalidNumber
  | .markSign => if isDigit b then .next .power else .refuseAt .invalidNumber
  | .power => if isDigit b then .next .power else .past ()

/-- What the end of the text means: a number that lacks a digit is refused. -/
def atEnd (r : NumberSkipper) : Ending Unit :=
  if r.lacksDigit then .refuse (.syntactic .invalidNumber) else .whole ()

end NumberSkipper

end GossipNode
