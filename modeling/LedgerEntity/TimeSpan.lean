import LedgerEntity.Text.Decimal

/-!
# Time spans

A length of time in whole nanoseconds, and its short text.

The text uses the largest unit in which the span is at least one, and a decimal
fraction of that unit without trailing zeros.
-/

namespace LedgerEntity

/-- A length of time in nanoseconds. -/
structure TimeSpan where
  nanoseconds : Nat
  deriving DecidableEq, Repr

namespace TimeSpan

/-- A span of whole milliseconds. -/
def ofMilliseconds
    (n : Nat) :
    TimeSpan :=
  ⟨n * 1000000⟩

/-- A span of whole seconds. -/
def ofSeconds
    (n : Nat) :
    TimeSpan :=
  ⟨n * 1000000000⟩

/-- The whole milliseconds in a span. -/
def milliseconds
    (t : TimeSpan) :
    Nat :=
  t.nanoseconds / 1000000

/-- The whole seconds in a span. -/
def seconds
    (t : TimeSpan) :
    Nat :=
  t.nanoseconds / 1000000000

/-- The fractional digits of `rest` units of `10 ^ -places`, zeros dropped at the end. -/
def fraction
    (places rest : Nat) :
    List Char :=
  let ds := Decimal.digits rest
  let padded := List.replicate (places - ds.length) '0' ++ ds
  (padded.reverse.dropWhile (· == '0')).reverse

/-- A count of units that each hold `10 ^ places` nanoseconds. -/
def inUnit
    (t : TimeSpan)
    (places : Nat)
    (unit : String) :
    String :=
  let size := Decimal.placeValue places
  let whole := Decimal.text (t.nanoseconds / size)
  let part := fraction places (t.nanoseconds % size)
  if part.isEmpty then
    whole ++ unit
  else
    whole ++ "." ++ String.ofList part ++ unit

/-- The text of a span in seconds, milliseconds, microseconds or nanoseconds. -/
def text
    (t : TimeSpan) :
    String :=
  if 1000000000 ≤ t.nanoseconds then t.inUnit 9 "s"
  else if 1000000 ≤ t.nanoseconds then t.inUnit 6 "ms"
  else if 1000 ≤ t.nanoseconds then t.inUnit 3 "µs"
  else t.inUnit 0 "ns"

end TimeSpan
end LedgerEntity
