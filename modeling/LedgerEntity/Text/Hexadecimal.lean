import LedgerEntity.Text.Decimal

/-!
# Hexadecimal digits

Numbers and bytes written in base sixteen.

Both letter cases are read and only lower case is written.  The module gives
the value of a list of digits, the reader of 64-bit words, and the two-digit
form of bytes in both directions.

The main fact says that reading the written bytes gives the same bytes back.
-/

namespace LedgerEntity
namespace Hexadecimal

/-- An ASCII hexadecimal digit of either case. -/
def isDigit
    (c : Char) :
    Bool :=
  c.isDigit
    || (decide ('a' ≤ c) && decide (c ≤ 'f'))
    || (decide ('A' ≤ c) && decide (c ≤ 'F'))

/-- The value of a hexadecimal digit. -/
def digitValue
    (c : Char) :
    Nat :=
  if c.isDigit then
    c.toNat - '0'.toNat
  else if 'a' ≤ c then
    c.toNat - 'a'.toNat + 10
  else
    c.toNat - 'A'.toNat + 10

/-- The number that a list of hexadecimal digits denotes. -/
def value
    (ds : List Char) :
    Nat :=
  ds.foldl (fun total d => 16 * total + digitValue d) 0

/-- Read one or more hexadecimal digits as a 64-bit word. -/
def readWord?
    (ds : List Char) :
    Option Nat :=
  if ds.isEmpty || !ds.all isDigit then
    none
  else if value ds < Decimal.wordLimit then
    some (value ds)
  else
    none

/-- The lower-case digit of a value below sixteen. -/
def digit
    (n : Nat) :
    Char :=
  Nat.digitChar n

/-- The two lower-case digits of a byte. -/
def ofByte
    (b : UInt8) :
    List Char :=
  [digit (b.toNat / 16), digit (b.toNat % 16)]

/-- The lower-case digits of a list of bytes. -/
def ofBytes
    (bs : List UInt8) :
    List Char :=
  bs.flatMap ofByte

/-- Read pairs of digits as bytes; an odd digit or another character fails. -/
def bytes? : List Char → Option (List UInt8)
  | [] => some []
  | [_] => none
  | hi :: lo :: rest =>
      if isDigit hi && isDigit lo then
        (bytes? rest).map
          (UInt8.ofNat (16 * digitValue hi + digitValue lo) :: ·)
      else
        none

/-- The canonical, unpadded digits of a number. -/
def digits
    (n : Nat) :
    List Char :=
  Nat.toDigits 16 n

/-- The bytes of a number, most significant first, in a field of fixed width. -/
def bigEndian : Nat → Nat → List UInt8
  | 0, _ => []
  | width + 1, n =>
      UInt8.ofNat (n >>> (8 * width)) :: bigEndian width n

/-- A field has exactly the bytes of its width. -/
@[simp] theorem length_bigEndian
    (width n : Nat) :
    (bigEndian width n).length = width := by
  induction width with
  | zero =>
      rfl
  | succ width ih =>
      simp [bigEndian, ih]

/-- Each byte is written with two digits. -/
@[simp] theorem length_ofBytes
    (bs : List UInt8) :
    (ofBytes bs).length = 2 * bs.length := by
  induction bs with
  | nil =>
      rfl
  | cons b bs ih =>
      simp only [ofBytes, List.flatMap_cons, List.length_append,
        List.length_cons] at ih ⊢
      rw [ih]
      simp [ofByte]
      omega

/-- A written digit is a digit. -/
theorem isDigit_digit :
    ∀ n < 16, isDigit (digit n) = true := by
  decide

/-- A written digit reads back as its value. -/
theorem digitValue_digit :
    ∀ n < 16, digitValue (digit n) = n := by
  decide

/-- Reading the written bytes gives the bytes back. -/
theorem bytes?_ofBytes
    (bs : List UInt8) :
    bytes? (ofBytes bs) = some bs := by
  induction bs with
  | nil =>
      rfl
  | cons b bs ih =>
      have hlt : b.toNat < 256 := b.toNat_lt
      have hhi : b.toNat / 16 < 16 := by omega
      have hlo : b.toNat % 16 < 16 := by omega
      have hsum : 16 * (b.toNat / 16) + b.toNat % 16 = b.toNat := by
        omega
      change bytes? (digit (b.toNat / 16) :: digit (b.toNat % 16)
        :: ofBytes bs) = some (b :: bs)
      simp [bytes?, isDigit_digit _ hhi, isDigit_digit _ hlo,
        digitValue_digit _ hhi, digitValue_digit _ hlo, ih, hsum]

end Hexadecimal
end LedgerEntity
