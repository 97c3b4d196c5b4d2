import LedgerEntity.Proofs.Text.Positional

/-!
# Canonical decimal text

The text that is written for a whole number, seen as a numeral.

The digits of a natural number denote the number again, and there are as many of
them as the number has places: a power of ten bounds the number exactly if its
exponent bounds the digits.  Only zero starts with a zero.  The text of a negative
number starts with a minus sign, which is no digit.
-/

namespace LedgerEntity
namespace Decimal

variable {n : Nat}

theorem toList_text
    (n : Nat) :
    (text n).toList = digits n :=
  String.toList_ofList

theorem toList_intText_negSucc
    (n : Nat) :
    (intText (.negSucc n)).toList = '-' :: digits (n + 1) := by
  simp only [intText, String.toList_append, toList_text]
  rfl

/-- The canonical text is the usual one. -/
theorem intText_eq_toString
    (n : Int) :
    intText n = toString n := by
  cases n <;> rfl

theorem mem_decimalAlphabet_of_mem_digits :
    ∀ d ∈ digits n, d ∈ decimalAlphabet :=
  fun d hd => (isDigit_iff_mem d).1 (isDigit_of_mem_digits hd)

/-- The canonical digits denote the number in positional notation. -/
theorem decimalNumber_digits
    (n : Nat) :
    decimalNumber (digits n) = n := by
  rw [← value_eq_decimalNumber mem_decimalAlphabet_of_mem_digits, value_digits]

theorem length_digits_le_iff
    (places : Nat)
    (hpos : 0 < places) :
    (digits n).length ≤ places ↔ n < 10 ^ places :=
  Nat.length_toDigits_le_iff (by decide) hpos

/-- Only zero is written with a zero in front. -/
theorem head?_digits_ne_zero
    (hpos : 0 < n) :
    (digits n).head? ≠ some '0' := by
  induction n using Nat.strongRecOn with
  | ind n ih =>
      rcases Nat.lt_or_ge n 10 with hsmall | hlarge
      · have hdigit : ∀ d < 10, 0 < d → Nat.digitChar d ≠ '0' := by decide
        rw [digits, Nat.toDigits_of_lt_base hsmall, List.head?_cons]
        exact fun h => hdigit n hsmall hpos (Option.some.inj h)
      · -- The digits in front are those of the tenth part.
        have hfront : digits n = digits (n / 10) ++ [Nat.digitChar (n % 10)] :=
          Nat.toDigits_of_base_le (by decide) hlarge
        rw [hfront, List.head?_append_of_ne_nil _ (digits_ne_nil _)]
        exact ih (n / 10) (by omega) (by omega)

/-- Numbers below a power of ten are those with numerals of so many digits. -/
theorem decimalNumeral_digits_iff
    (places : Nat)
    (hpos : 0 < places) :
    DecimalNumeral places (digits n) ↔ n < 10 ^ places := by
  rw [DecimalNumeral, length_digits_le_iff places hpos]
  constructor
  · exact fun h => h.2.1
  · intro h
    exact ⟨Nat.length_toDigits_pos, h, mem_decimalAlphabet_of_mem_digits⟩

theorem decimalWord_digits
    (h : n < 2 ^ 64) :
    DecimalWord (digits n) n :=
  ⟨[], digits n, .inl rfl, digits_ne_nil n, mem_decimalAlphabet_of_mem_digits, rfl,
    decimalNumber_digits n, h⟩

theorem dot_not_mem_digits :
    '.' ∉ digits n := by
  intro h
  exact absurd (mem_decimalAlphabet_of_mem_digits '.' h) (by decide)

end Decimal
end LedgerEntity
