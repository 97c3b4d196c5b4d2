/-!
# Decimal numerals

Numbers written in base ten with ASCII digits.

The input is a list of characters or a number.  The module gives the canonical
text of a number, the value of a list of digits, the test for a numeral of
bounded length, and the reader of 64-bit words.

The main facts say that the canonical digits of a number are ASCII digits, at
least one, and that they denote the number.
-/

namespace LedgerEntity
namespace Decimal

/-- Canonical digits of a number: no sign and no leading zero. -/
def digits
    (n : Nat) :
    List Char :=
  Nat.toDigits 10 n

/-- Canonical decimal text of a natural number. -/
def text
    (n : Nat) :
    String :=
  String.ofList (digits n)

/-- Canonical decimal text of an integer, with a minus sign below zero. -/
def intText : Int → String
  | .ofNat n => text n
  | .negSucc n => "-" ++ text (n + 1)

/-- The number that a list of digits denotes. -/
def value
    (ds : List Char) :
    Nat :=
  Nat.ofDigitChars 10 ds 0

/-- Between one and `atMost` characters, all of them ASCII digits. -/
def isNumeral
    (atMost : Nat)
    (ds : List Char) :
    Bool :=
  !ds.isEmpty && decide (ds.length ≤ atMost) && ds.all Char.isDigit

/-- One more than the largest 64-bit word. -/
def wordLimit : Nat := 1 <<< 64

/-- The value of a one with so many zeros behind it. -/
def placeValue
    (places : Nat) :
    Nat :=
  Nat.pow 10 places

/-- The characters after one optional plus sign. -/
def withoutPlus : List Char → List Char
  | '+' :: rest => rest
  | cs => cs

/--
Read a 64-bit word: an optional plus sign, then one or more digits, leading
zeros allowed, with a value below `wordLimit`.
-/
def readWord?
    (cs : List Char) :
    Option Nat :=
  let ds := withoutPlus cs
  if ds.isEmpty || !ds.all Char.isDigit then
    none
  else if value ds < wordLimit then
    some (value ds)
  else
    none

/-- Every canonical digit is an ASCII digit. -/
theorem isDigit_of_mem_digits
    {n : Nat}
    {c : Char}
    (h : c ∈ digits n) :
    c.isDigit = true :=
  Nat.isDigit_of_mem_toDigits (by decide) (by decide) h

/-- There is always at least one canonical digit. -/
theorem digits_ne_nil
    (n : Nat) :
    digits n ≠ [] :=
  Nat.toDigits_ne_nil

/-- The canonical digits denote the number they were made from. -/
@[simp] theorem value_digits
    (n : Nat) :
    value (digits n) = n :=
  Nat.ofDigitChars_ten_toDigits

end Decimal
end LedgerEntity
