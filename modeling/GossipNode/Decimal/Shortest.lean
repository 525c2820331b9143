import GossipNode.Decimal.Binary64

/-!
# Shortest decimal text of a binary64 number

A number is written with the fewest digits that read back as itself, and among those the digits
nearest to it.  For one, two, … seventeen digits the two neighbours of the number on the grid of
decimals with that many digits are tried; the first grid with a neighbour inside the interval that
rounds to the number wins.

## Main definitions

* `Decimal` — digits and the power of ten they count.
* `Decimal.shortest` — the shortest decimal of a magnitude.
* `DecimalLayout` — which decimals are written positionally, and how an exponent is written.
* `Binary64.text` — the text of a number, in the layout of JSON numbers.
-/

namespace GossipNode

/-- The decimal number `digits · 10 ^ exponent`. -/
structure Decimal where
  digits : Nat
  exponent : Int
  deriving DecidableEq, Repr, Inhabited

namespace Decimal

/-- The interval of reals that round to a magnitude, as numerators over a common denominator: its
low end, the magnitude, its high end, the denominator.  The gap below a power of two is half as
wide as the gap above it. -/
structure Interval where
  low : Nat
  value : Nat
  high : Nat
  denominator : Nat
  closed : Bool

/-- The interval of reals that round to the magnitude at a place.  It holds its ends exactly when
the significand is even. -/
def Interval.around (place : Nat) : Interval :=
  let m := Binary64.significand place
  let s := Binary64.shift place
  let below := if m = Binary64.binade ∧ 0 < s then 1 else 2
  let (scale, denominator) :=
    if s < 1076 then (1, Nat.pow 2 (1076 - s)) else (Nat.pow 2 (s - 1076), 1)
  ⟨(4 * m - below) * scale, 4 * m * scale, (4 * m + 2) * scale, denominator, m % 2 = 0⟩

/-- Whether `num / den` lies in the interval. -/
def Interval.holds (i : Interval) (num den : Nat) : Bool :=
  let x := num * i.denominator
  if i.closed then i.low * den ≤ x ∧ x ≤ i.high * den
  else i.low * den < x ∧ x < i.high * den

/-- `10 ^ k` as a fraction. -/
def tenTo (k : Int) : Nat × Nat :=
  if 0 ≤ k then (Nat.pow 10 k.natAbs, 1) else (1, Nat.pow 10 k.natAbs)

/-- The decimal of exponent `k` nearest to the magnitude among the two next to it that lie in the
interval; of two equally near ones the even one. -/
def onGrid? (i : Interval) (k : Int) : Option Decimal :=
  let (p, q) := tenTo k
  let num := i.value * q
  let den := i.denominator * p
  let floor := num / den
  let inside (d : Nat) : Bool := i.holds (d * p) q
  let near := Binary64.roundDiv num den
  let far := if near = floor then floor + 1 else floor
  if 0 < near ∧ inside near then some ⟨near, k⟩
  else if 0 < far ∧ inside far then some ⟨far, k⟩
  else none

/-- The exponent of the leading digit of a whole number other than zero, from its length in binary:
`0.30102` is just below the logarithm of two. -/
def leadingOfWhole (n : Nat) : Nat :=
  let guess := n.log2 * 30102 / 100000
  if Nat.pow 10 (guess + 1) ≤ n then guess + 1 else guess

/-- The least `k`, counted up from a given one, with `den ≤ num · 10 ^ k`. -/
def raise (num den : Nat) : Nat → Nat → Nat
  | 0, k => k
  | rounds + 1, k => if num * Nat.pow 10 k < den then raise num den rounds (k + 1) else k

/-- The exponent of the leading digit of the magnitude `num / den`, which is not zero. -/
def leading (num den : Nat) : Int :=
  if den ≤ num then leadingOfWhole (num / den) else -(raise num den 400 1 : Int)

/-- The first hit on the grids with the given exponent and below it. -/
def search (i : Interval) : Nat → Int → Option Decimal
  | 0, _ => none
  | rounds + 1, k =>
    match onGrid? i k with
    | some d => some d
    | none => search i rounds (k - 1)

/-- A decimal without zeros at the end of its digits. -/
def trim : Nat → Decimal → Decimal
  | 0, d => d
  | rounds + 1, d =>
    if d.digits ≠ 0 ∧ d.digits % 10 = 0 then trim rounds ⟨d.digits / 10, d.exponent + 1⟩ else d

/-- The shortest decimal that reads back as the magnitude at a place other than zero, and the
nearest to it among those. -/
def shortest (place : Nat) : Decimal :=
  let i := Interval.around place
  (search i 18 (leading i.value i.denominator)).getD ⟨0, 0⟩ |> trim 20

end Decimal

/-- How decimals are laid out as text. -/
structure DecimalLayout where
  /-- The least power of ten of a leading digit that is written positionally. -/
  least : Int
  /-- The greatest power of ten of a leading digit that is written positionally. -/
  greatest : Int
  /-- The sign written before an exponent that is not negative. -/
  plus : String

namespace DecimalLayout

/-- JSON numbers are written positionally from `0.00001` up to sixteen digits before the point,
and always with a point; an exponent carries its sign. -/
def json : DecimalLayout := ⟨-5, 15, "+"⟩

/-- Digits with a point before the last `places` of them. -/
def pointed (digits : List Char) (places : Nat) : List Char :=
  let whole := digits.take (digits.length - places)
  let part := digits.drop (digits.length - places)
  let part := List.replicate (places - part.length) '0' ++ part
  (if whole.isEmpty then ['0'] else whole) ++ '.' :: (if part.isEmpty then ['0'] else part)

/-- The text of a decimal other than zero. -/
def render (layout : DecimalLayout) (d : Decimal) : List Char :=
  let digits := Nat.toDigits 10 d.digits
  let lead : Int := d.exponent + digits.length - 1
  if layout.least ≤ lead ∧ lead ≤ layout.greatest then
    if 0 ≤ d.exponent then pointed (digits ++ List.replicate d.exponent.natAbs '0') 0
    else pointed digits d.exponent.natAbs
  else
    let mantissa := match digits with
      | c :: [] => [c]
      | c :: cs => c :: '.' :: cs
      | [] => []
    let sign := if lead < 0 then "-" else layout.plus
    mantissa ++ 'e' :: sign.toList ++ Nat.toDigits 10 lead.natAbs

end DecimalLayout

/-- The text of a number in the layout of JSON numbers; zero keeps its sign. -/
def Binary64.text (x : Binary64) : List Char :=
  let digits :=
    if x.place = 0 then ['0', '.', '0']
    else DecimalLayout.json.render (Decimal.shortest x.place)
  if x.negative then '-' :: digits else digits

end GossipNode
