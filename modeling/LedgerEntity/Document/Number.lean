import LedgerEntity.Document.Basic

/-!
# Reading numbers

The value of a JSON number.

A number without point and exponent is an integer if it fits a 64-bit word,
unsigned or signed; minus zero does not count as an integer.  Every other
number is floating point.  Its significand is taken from the digits before the
point as long as they fit a 64-bit word, and goes on with those after the point
as long as they fit.  The double nearest to that significand is then multiplied
or divided once by a power of ten.  A number beyond the largest double is
refused.
-/

namespace LedgerEntity
namespace Document

/--
The leading digits as a number with the power of ten of the last of them, and whether a
digit was left out already.
-/
structure Magnitude where
  significand : Nat
  power : Int
  full : Bool

namespace Magnitude

/-- Take one more digit before the point, or only count it once the word is full. -/
def takeInteger
    (m : Magnitude)
    (d : Char) :
    Magnitude :=
  let longer := 10 * m.significand + Hexadecimal.digitValue d
  if m.full || decide (Decimal.wordLimit ≤ longer) then
    { m with power := m.power + 1, full := true }
  else
    { m with significand := longer }

/-- Take one more digit after the point, or drop it once the word is full. -/
def takeFraction
    (m : Magnitude)
    (d : Char) :
    Magnitude :=
  let longer := 10 * m.significand + Hexadecimal.digitValue d
  if m.full || decide (Decimal.wordLimit ≤ longer) then
    { m with full := true }
  else
    { m with significand := longer, power := m.power - 1 }

/-- The double nearest to a power of ten. -/
def tenTo
    (n : Nat) :
    Float :=
  Float.ofScientific 1 false n

/-- A double divided by a power of ten, in steps that stay within the doubles. -/
def divideByTenTo
    (x : Float)
    (n : Nat) :
    Float :=
  if n ≤ 308 then
    x / tenTo n
  else if x == 0.0 then
    x
  else
    divideByTenTo (x / tenTo 308) (n - 308)
termination_by n

/-- The double that a magnitude denotes, unless it is too large. -/
def toFloat?
    (m : Magnitude) :
    Option Float :=
  let x := Float.ofNat m.significand
  if m.power < 0 then
    some (divideByTenTo x (-m.power).toNat)
  else if x == 0.0 then
    some x
  else if 308 < m.power then
    none
  else
    let y := x * tenTo m.power.toNat
    if y.isInf then none else some y

end Magnitude

/--
The parts of a number: the minus sign, the digits before the point, those after it, the
exponent.
-/
structure NumberParts where
  negative : Bool
  whole : List Char
  fraction : Option (List Char)
  exponent : Option Int

namespace NumberParts

/-- Read the digits after an exponent mark, with an optional sign. -/
def exponent? : List Char → Option Int
  | '-' :: ds =>
      if ds.isEmpty || !ds.all Char.isDigit then none
      else some (-(Decimal.value ds : Int))
  | '+' :: ds =>
      if ds.isEmpty || !ds.all Char.isDigit then none
      else some (Decimal.value ds)
  | ds =>
      if ds.isEmpty || !ds.all Char.isDigit then none
      else some (Decimal.value ds)

/-- Read what follows the digits before the point. -/
def ofTail?
    (negative : Bool)
    (whole : List Char) :
    List Char → Option NumberParts
  | [] => some ⟨negative, whole, none, none⟩
  | '.' :: rest =>
      let ds := rest.takeWhile Char.isDigit
      if ds.isEmpty then none
      else
        match rest.dropWhile Char.isDigit with
        | [] => some ⟨negative, whole, some ds, none⟩
        | mark :: tail =>
            if mark = 'e' || mark = 'E' then
              (exponent? tail).map fun e => ⟨negative, whole, some ds, some e⟩
            else none
  | mark :: tail =>
      if mark = 'e' || mark = 'E' then
        (exponent? tail).map fun e => ⟨negative, whole, none, some e⟩
      else none

/-- Read a number without its sign; a leading zero stands alone. -/
def ofDigits?
    (negative : Bool)
    (cs : List Char) :
    Option NumberParts :=
  let whole := cs.takeWhile Char.isDigit
  if whole.isEmpty || (whole.head? == some '0' && decide (1 < whole.length)) then
    none
  else
    ofTail? negative whole (cs.dropWhile Char.isDigit)

/-- Read a number. -/
def ofChars? : List Char → Option NumberParts
  | '-' :: cs => ofDigits? true cs
  | cs => ofDigits? false cs

/-- The floating-point value of a number. -/
def toFloat?
    (p : NumberParts) :
    Option Float :=
  let start := p.whole.foldl Magnitude.takeInteger ⟨0, 0, false⟩
  let m :=
    (p.fraction.getD []).foldl Magnitude.takeFraction { start with full := false }
  let scaled := { m with power := m.power + p.exponent.getD 0 }
  scaled.toFloat?.map fun x => if p.negative then -x else x

/-- The document that a number denotes. -/
def document?
    (p : NumberParts) :
    Option Document :=
  let n := Decimal.value p.whole
  if p.fraction.isNone && p.exponent.isNone then
    if p.negative then
      if 0 < n ∧ n ≤ 1 <<< 63 then some (integer (-n))
      else p.toFloat?.map float
    else
      if n < Decimal.wordLimit then some (integer n)
      else p.toFloat?.map float
  else
    p.toFloat?.map float

end NumberParts

end Document
end LedgerEntity
