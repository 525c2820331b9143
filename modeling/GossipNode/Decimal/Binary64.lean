/-!
# Finite binary64 numbers

Numbers that are not whole travel as IEEE 754 binary64 values.  They are kept as a sign and the
place of their magnitude among all magnitudes, counted upwards from zero, which is the bit pattern
without its sign.  Every operation is exact arithmetic on natural numbers followed by one rounding
to the nearest magnitude, a tie going to the even one.

## Main definitions

* `Binary64` — a sign and a place below the place of infinity.
* `Binary64.placeOf` — the place of the magnitude nearest to a fraction.
* `Binary64.significand`, `Binary64.exponent` — a place as `significand · 2 ^ exponent`.
* `Binary64.ofParts?` — the value of `significand · 10 ^ exponent`, reached by the few rounded
  steps a reader of numbers takes, or nothing if it is too large.
-/

namespace GossipNode

/-- A finite binary64 number: a sign and the place of its magnitude among all magnitudes. -/
structure Binary64 where
  negative : Bool
  place : Nat
  deriving DecidableEq, Repr, Inhabited

namespace Binary64

/-- `2 ^ 52`, the number of magnitudes between two neighbouring powers of two. -/
def binade : Nat := 4503599627370496

/-- The place infinity would take: magnitudes from here on are too large. -/
def infinity : Nat := 2047 * binade

/-- Zero without a sign. -/
def zero : Binary64 := ⟨false, 0⟩

/-- The significand of the magnitude at a place: below `2 ^ 53`, and at least `2 ^ 52` unless the
magnitude is among the smallest. -/
def significand (place : Nat) : Nat :=
  if place < binade then place else binade + place % binade

/-- The power of two that the significand at a place counts, plus 1074. -/
def shift (place : Nat) : Nat := place / binade - 1

/-- The power of two that the significand at a place counts. -/
def exponent (place : Nat) : Int := (shift place : Int) - 1074

/-- The quotient rounded to a whole number, a half going to the even neighbour. -/
def roundDiv (num den : Nat) : Nat :=
  let q := num / den
  let r := num % den
  if 2 * r < den then q
  else if den < 2 * r then q + 1
  else if q % 2 = 0 then q else q + 1

/-- The quotient of `num` by `den · 2 ^ (shift - 1074)`, as a numerator and a denominator. -/
def scaled (num den shift : Nat) : Nat × Nat :=
  if shift < 1074 then (num * Nat.pow 2 (1074 - shift), den)
  else (num, den * Nat.pow 2 (shift - 1074))

/-- The least shift at which a fraction has a significand below `2 ^ 53`. -/
def shiftFor (num den : Nat) : Nat :=
  let guess := num.log2 + 1074 - den.log2 - 53
  let (n, d) := scaled num den guess
  if n / d < 2 * binade then guess else guess + 1

/-- The place of the magnitude nearest to `num / den`; `infinity` or above if it is too large. -/
def placeOf (num den : Nat) : Nat :=
  if num = 0 then 0 else
  let shift := shiftFor num den
  let (n, d) := scaled num den shift
  shift * binade + roundDiv n d

/-- The magnitude at a place as a fraction. -/
def fraction (place : Nat) : Nat × Nat :=
  if shift place < 1074 then (significand place, Nat.pow 2 (1074 - shift place))
  else (significand place * Nat.pow 2 (shift place - 1074), 1)

/-- The place of the power of ten with a given exponent. -/
def powerOfTen (k : Nat) : Nat := placeOf (Nat.pow 10 k) 1

/-- The rounded product of two magnitudes. -/
def mulPlace (x y : Nat) : Nat :=
  let (a, b) := fraction x
  let (c, d) := fraction y
  placeOf (a * c) (b * d)

/-- The rounded quotient of two magnitudes, the second not zero. -/
def divPlace (x y : Nat) : Nat :=
  let (a, b) := fraction x
  let (c, d) := fraction y
  placeOf (a * d) (b * c)

/-- A magnitude divided by a power of ten: by `10 ^ 308` as long as the exponent is larger and
something is left, and once by the rest. -/
def shrink (place k : Nat) : Nat :=
  if k ≤ 308 then divPlace place (powerOfTen k)
  else if place = 0 then 0
  else shrink (divPlace place (powerOfTen 308)) (k - 308)
  termination_by k

/-- A magnitude multiplied by a power of ten, if the result is finite. -/
def grow? (place k : Nat) : Option Nat :=
  if k ≤ 308 then
    let grown := mulPlace place (powerOfTen k)
    if grown < infinity then some grown else none
  else if place = 0 then some 0
  else none

/-- The number a sign, a whole significand and a power of ten stand for, if it is finite.  The
significand is rounded first, then the product or quotient with the power of ten. -/
def ofParts? (negative : Bool) (significand : Nat) (exponent : Int) : Option Binary64 :=
  let place := placeOf significand 1
  if exponent < 0 then some ⟨negative, shrink place exponent.natAbs⟩
  else (grow? place exponent.natAbs).map (⟨negative, ·⟩)

end Binary64

end GossipNode
