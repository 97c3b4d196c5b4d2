import LedgerEntity.Text.Decimal

/-!
# Shortest text of a floating-point number

The text of a finite double-precision number with the fewest significant
digits that still identify it.

A nonzero number is `m * 2 ^ q`, and the reals that round to it form an
interval around it.  For one, two, up to seventeen digits the module tests the
two neighbours of the number on that decimal grid; the first grid with a
neighbour inside the interval wins, and of two neighbours the nearer.

The layout is a separate decision: which exponents are positional, and how the
others are marked.
-/

namespace LedgerEntity
namespace ShortestFloat

/--
A positive number `numerator / denominator` with the ends of its interval, over the same
denominator, and whether the ends round to the number.  The numerator is four times the
significand.
-/
structure Interval where
  numerator : Nat
  lower : Nat
  upper : Nat
  denominator : Nat
  closed : Bool

/--
The interval of a nonzero number, from its sign-free bits: the fraction has
fifty-two bits, and below a power of two the gap is half as wide.
-/
def Interval.ofBits
    (bits : Nat) :
    Interval :=
  let fraction : Nat := bits % (1 <<< 52)
  let biased : Nat := (bits >>> 52) % (1 <<< 11)
  let m := if biased = 0 then fraction else fraction + (1 <<< 52)
  let q : Int := (max biased 1 : Nat) - 1077
  let gap := if fraction = 0 && decide (1 < biased) then 1 else 2
  let up := 1 <<< q.toNat
  { numerator := 4 * m * up
    lower := (4 * m - gap) * up
    upper := (4 * m + 2) * up
    denominator := 1 <<< (-q).toNat
    closed := m % 2 == 0 }

/-- The power of ten of the leading digit of `numerator / denominator`. -/
def leadingPower
    (numerator denominator : Nat) :
    Int :=
  if denominator ≤ numerator then
    ((Decimal.digits (numerator / denominator)).length : Int) - 1
  else
    let zeros := (Decimal.digits (denominator / numerator)).length
    if denominator ≤ numerator * Decimal.placeValue (zeros - 1) then
      1 - (zeros : Int)
    else
      -(zeros : Int)

/-- A decimal number `coefficient * 10 ^ power`. -/
structure Scaled where
  coefficient : Nat
  power : Int

/-- The nearer neighbour on the grid `10 ^ power` that lies in the interval. -/
def Interval.neighbour?
    (i : Interval)
    (power : Int) :
    Option Scaled :=
  let down := Decimal.placeValue (-power).toNat
  let den := i.denominator * Decimal.placeValue power.toNat
  let inside (c : Nat) : Bool :=
    if i.closed then
      decide (i.lower * down ≤ c * den) && decide (c * den ≤ i.upper * down)
    else
      decide (i.lower * down < c * den) && decide (c * den < i.upper * down)
  let below := i.numerator * down / den
  let rest := i.numerator * down % den
  let nearBelow :=
    decide (2 * rest < den) || (2 * rest == den && below % 2 == 0)
  let first := if nearBelow then below else below + 1
  let second := if nearBelow then below + 1 else below
  if inside first then some ⟨first, power⟩
  else if inside second then some ⟨second, power⟩
  else none

/-- The shortest decimal number in the interval. -/
def Interval.shortest
    (i : Interval) :
    Scaled :=
  let top := leadingPower i.numerator i.denominator
  let grids := (List.range 17).map fun places : Nat => top - Int.ofNat places
  (grids.findSome? i.neighbour?).getD ⟨0, 0⟩

/--
Which exponents are written without an exponent mark, by the largest number of digits
before the point and of zeros after it, and what marks the others: one mark for an
exponent that is not negative and one for the amount of a negative one.
-/
structure Layout where
  digitsBefore : Nat
  zerosAfter : Nat
  markUp : String
  markDown : String

/--
Up to sixteen digits stand before the point, and up to four zeros follow it;
beyond that one digit stands before the point, and the exponent has the mark
`e` and always a sign.
-/
def layout : Layout := ⟨16, 4, "e+", "e-"⟩

/-- A marked exponent, without leading zeros. -/
def exponentText
    (exponent : Int) :
    String :=
  (if 0 ≤ exponent then layout.markUp else layout.markDown)
    ++ Decimal.text exponent.natAbs

/-- Exponents of either sign are marked. -/
example : exponentText 16 = "e+16" ∧ exponentText (-6) = "e-6" := by
  decide +kernel

/-- The digits of a decimal number, placed by the layout. -/
def Scaled.text
    (s : Scaled) :
    String :=
  let written := Decimal.digits s.coefficient
  let ds := (written.reverse.dropWhile (· == '0')).reverse
  let power := s.power + ((written.length : Int) - (ds.length : Int))
  let point := (ds.length : Int) + power
  let zeros (n : Int) : List Char := List.replicate n.toNat '0'
  if 0 ≤ power ∧ point ≤ layout.digitsBefore then
    String.ofList (ds ++ zeros power) ++ ".0"
  else if 0 < point ∧ point ≤ layout.digitsBefore then
    String.ofList (ds.take point.toNat ++ '.' :: ds.drop point.toNat)
  else if -(layout.zerosAfter : Int) ≤ point ∧ point ≤ 0 then
    "0." ++ String.ofList (zeros (-point) ++ ds)
  else
    let mantissa :=
      match ds with
      | [] => []
      | [d] => [d]
      | d :: others => d :: '.' :: others
    String.ofList mantissa ++ exponentText (point - 1)

/-- The shortest text of a finite number; both zeros keep their sign. -/
def text
    (x : Float) :
    String :=
  let bits := x.toBits.toNat
  let sign := if bits >>> 63 = 1 then "-" else ""
  let magnitude := bits % (1 <<< 63)
  if magnitude = 0 then
    sign ++ "0.0"
  else
    sign ++ (Interval.ofBits magnitude).shortest.text

end ShortestFloat
end LedgerEntity
