import LedgerEntity.Text.Hexadecimal
import Mathlib.Data.Bool.AllAny
import Mathlib.Data.Nat.Digits.Defs
import Mathlib.Tactic

/-!
# Positional notation

What digits denote, told by an alphabet: a digit stands for its place in the
alphabet, and the length of the alphabet is the base.

The decimal and the hexadecimal readers are measured against this notation.
The main facts say which characters are digits, that the folds of the readers
compute the positional value, and that a numeral within the width of a word is
always read.
-/

namespace LedgerEntity

/-- The decimal digits in ascending order. -/
def decimalAlphabet : List Char :=
  "0123456789".toList

/-- The lower-case hexadecimal digits in ascending order. -/
def hexadecimalAlphabet : List Char :=
  "0123456789abcdef".toList

/-- The number that digits of an alphabet denote, the most significant first. -/
def positional
    (alphabet ds : List Char) :
    Nat :=
  Nat.ofDigits alphabet.length (ds.map alphabet.idxOf).reverse

/-- The number that decimal digits denote. -/
def decimalNumber
    (ds : List Char) :
    Nat :=
  positional decimalAlphabet ds

/-- The number that hexadecimal digits of either letter case denote. -/
def hexadecimalNumber
    (ds : List Char) :
    Nat :=
  positional hexadecimalAlphabet (ds.map Char.toLower)

/-- From one to `atMost` ASCII digits. -/
def DecimalNumeral
    (atMost : Nat)
    (ds : List Char) :
    Prop :=
  1 ≤ ds.length ∧ ds.length ≤ atMost ∧ ∀ d ∈ ds, d ∈ decimalAlphabet

/-- An optional plus sign and one or more ASCII digits, which denote `n` in 64 bits. -/
def DecimalWord
    (cs : List Char)
    (n : Nat) :
    Prop :=
  ∃ sign ds,
    (sign = [] ∨ sign = ['+']) ∧
    ds ≠ [] ∧
    (∀ d ∈ ds, d ∈ decimalAlphabet) ∧
    cs = sign ++ ds ∧
    decimalNumber ds = n ∧
    n < 2 ^ 64

/-- Exactly `width` hexadecimal digits of either letter case. -/
def HexadecimalNumeral
    (width : Nat)
    (ds : List Char) :
    Prop :=
  ds.length = width ∧ ∀ d ∈ ds, d.toLower ∈ hexadecimalAlphabet

theorem DecimalWord.lt
    {cs : List Char}
    {n : Nat}
    (h : DecimalWord cs n) :
    n < 2 ^ 64 := by
  obtain ⟨-, -, -, -, -, -, -, hlt⟩ := h
  exact hlt

section Folds

/-- A fold that shifts and adds digits computes the positional value of the digits. -/
theorem foldl_eq_ofDigits
    (base : Nat)
    (digitOf : Char → Nat)
    (ds : List Char) :
    ds.foldl (fun total d => base * total + digitOf d) 0 =
      Nat.ofDigits base (ds.map digitOf).reverse := by
  induction ds using List.reverseRecOn with
  | nil =>
      rfl
  | append_singleton ds d ih =>
      rw [List.foldl_append, ih]
      simp [Nat.ofDigits_cons, add_comm]

theorem positional_append
    (alphabet xs ys : List Char) :
    positional alphabet (xs ++ ys) =
      positional alphabet xs * alphabet.length ^ ys.length + positional alphabet ys := by
  simp only [positional, List.map_append, List.reverse_append, Nat.ofDigits_append,
    List.length_reverse, List.length_map]
  ring

theorem lt_length_of_mem_places
    {alphabet ds : List Char}
    (hds : ∀ d ∈ ds, d ∈ alphabet)
    {n : Nat}
    (hn : n ∈ (ds.map alphabet.idxOf).reverse) :
    n < alphabet.length := by
  obtain ⟨d, hd, rfl⟩ := List.mem_map.1 (List.mem_reverse.1 hn)
  exact List.idxOf_lt_length_iff.2 (hds d hd)

/-- Digits denote a number below the power of the base that their length gives. -/
theorem positional_lt
    {alphabet : List Char}
    (hbase : 1 < alphabet.length)
    {ds : List Char}
    (hds : ∀ d ∈ ds, d ∈ alphabet) :
    positional alphabet ds < alphabet.length ^ ds.length := by
  have hlt :=
    Nat.ofDigits_lt_base_pow_length hbase fun n hn => lt_length_of_mem_places hds hn
  rwa [List.length_reverse, List.length_map] at hlt

/-- Numerals of one length that denote the same number are the same. -/
theorem positional_injective
    {alphabet : List Char}
    (hbase : 1 < alphabet.length)
    {xs ys : List Char}
    (hlength : xs.length = ys.length)
    (hxs : ∀ d ∈ xs, d ∈ alphabet)
    (hys : ∀ d ∈ ys, d ∈ alphabet)
    (h : positional alphabet xs = positional alphabet ys) :
    xs = ys := by
  have hplaces :
      (xs.map alphabet.idxOf).reverse = (ys.map alphabet.idxOf).reverse :=
    Nat.ofDigits_inj_of_len_eq hbase (by simp [hlength])
      (fun n hn => lt_length_of_mem_places hxs hn)
      (fun n hn => lt_length_of_mem_places hys hn) h
  have hmap := List.reverse_injective hplaces
  refine List.ext_getElem hlength ?_
  intro i hi hi'
  have hi_idx : (xs.map alphabet.idxOf)[i]? = (ys.map alphabet.idxOf)[i]? := by
    rw [hmap]
  simp only [List.getElem?_map, List.getElem?_eq_getElem hi,
    List.getElem?_eq_getElem hi', Option.map_some, Option.some.injEq] at hi_idx
  exact (List.idxOf_inj (hxs _ (List.getElem_mem hi))).1 hi_idx

end Folds

namespace Decimal

/-- The ASCII digits are the characters of the decimal alphabet. -/
theorem isDigit_iff_mem
    (c : Char) :
    c.isDigit = true ↔ c ∈ decimalAlphabet := by
  constructor
  · intro h
    simp only [Char.isDigit, Bool.and_eq_true, decide_eq_true_eq] at h
    have hlow : 48 ≤ c.toNat := h.1
    have hhigh : c.toNat ≤ 57 := h.2
    rw [← Char.ofNat_toNat c]
    interval_cases c.toNat <;> decide
  · have hall : ∀ d ∈ decimalAlphabet, d.isDigit = true :=
      List.all_iff_forall_prop.1 (by decide)
    exact hall c

theorem toNat_sub_eq_idxOf :
    ∀ d ∈ decimalAlphabet, d.toNat - 48 = decimalAlphabet.idxOf d :=
  List.all_iff_forall_prop.1 (by decide)

theorem isNumeral_iff
    (atMost : Nat)
    (ds : List Char) :
    isNumeral atMost ds = true ↔ DecimalNumeral atMost ds := by
  have hpos : 1 ≤ ds.length ↔ ds ≠ [] := List.length_pos_iff
  simp [isNumeral, DecimalNumeral, hpos, isDigit_iff_mem, and_assoc]

theorem value_eq_decimalNumber
    {ds : List Char}
    (hds : ∀ d ∈ ds, d ∈ decimalAlphabet) :
    value ds = decimalNumber ds := by
  have hmap : ds.map (fun d => d.toNat - 48) = ds.map decimalAlphabet.idxOf :=
    List.map_congr_left fun d hd => toNat_sub_eq_idxOf d (hds d hd)
  calc value ds
      = ds.foldl (fun (total : Nat) d => 10 * total + (d.toNat - 48)) 0 :=
        Nat.ofDigitChars_eq_foldl
    _ = Nat.ofDigits 10 (ds.map fun d => d.toNat - 48).reverse :=
        foldl_eq_ofDigits 10 _ ds
    _ = decimalNumber ds := by
        rw [hmap]
        rfl

theorem exists_sign_of_withoutPlus
    (cs : List Char) :
    ∃ sign, (sign = [] ∨ sign = ['+']) ∧ cs = sign ++ withoutPlus cs := by
  unfold withoutPlus
  split
  · exact ⟨['+'], .inr rfl, rfl⟩
  · exact ⟨[], .inl rfl, rfl⟩

theorem withoutPlus_sign_append
    {sign ds : List Char}
    (hsign : sign = [] ∨ sign = ['+'])
    (hds : ∀ d ∈ ds, d ∈ decimalAlphabet) :
    withoutPlus (sign ++ ds) = ds := by
  rcases hsign with rfl | rfl
  · rw [List.nil_append]
    unfold withoutPlus
    split
    · next rest =>
        have hmem : '+' ∈ decimalAlphabet := hds '+' List.mem_cons_self
        exact absurd hmem (by decide)
    · rfl
  · rfl

/-- The word reader accepts exactly the words, and gives the number that they denote. -/
theorem readWord?_eq_some_iff
    {cs : List Char}
    {n : Nat} :
    readWord? cs = some n ↔ DecimalWord cs n := by
  have hlimit : wordLimit = 2 ^ 64 := by decide
  have hall :
      ∀ {ds : List Char}, ds.all Char.isDigit = true ↔ ∀ d ∈ ds, d ∈ decimalAlphabet := by
    intro ds
    simp [isDigit_iff_mem]
  constructor
  · intro h
    obtain ⟨sign, hsign, hcs⟩ := exists_sign_of_withoutPlus cs
    simp only [readWord?] at h
    split at h
    · cases h
    · next hdigits =>
        split at h
        · next hlt =>
            simp only [Bool.or_eq_true, List.isEmpty_iff, Bool.not_eq_true', not_or,
              Bool.not_eq_false] at hdigits
            obtain ⟨hne, hds⟩ := hdigits
            rw [hall] at hds
            rw [value_eq_decimalNumber hds] at h hlt
            obtain rfl := Option.some.inj h
            exact ⟨sign, withoutPlus cs, hsign, hne, hds, hcs, rfl, hlimit ▸ hlt⟩
        · cases h
  · rintro ⟨sign, ds, hsign, hne, hds, rfl, rfl, hlt⟩
    rw [← hlimit] at hlt
    simp only [readWord?, withoutPlus_sign_append hsign hds, hall.2 hds, Bool.not_true,
      Bool.or_false, value_eq_decimalNumber hds]
    rw [if_neg (by simpa using hne), if_pos hlt]

/-- A numeral of up to nineteen digits is a word. -/
theorem readWord?_of_numeral
    {atMost : Nat}
    {ds : List Char}
    (h : DecimalNumeral atMost ds)
    (hmost : atMost ≤ 19) :
    readWord? ds = some (decimalNumber ds) := by
  obtain ⟨hpos, hlength, hds⟩ := h
  have hlt : decimalNumber ds < 2 ^ 64 :=
    calc decimalNumber ds
        < 10 ^ ds.length := positional_lt (by decide) hds
      _ ≤ 10 ^ 19 := Nat.pow_le_pow_right (by decide) (by omega)
      _ < 2 ^ 64 := by decide
  exact
    readWord?_eq_some_iff.2
      ⟨[], ds, .inl rfl, List.length_pos_iff.1 hpos, hds, rfl, rfl, hlt⟩

end Decimal

namespace Hexadecimal

/-- The hexadecimal digits of either letter case. -/
def digitsOfEitherCase : List Char :=
  "0123456789abcdefABCDEF".toList

theorem isDigit_iff_mem_digitsOfEitherCase
    (c : Char) :
    isDigit c = true ↔ c ∈ digitsOfEitherCase := by
  constructor
  · intro h
    simp only [isDigit, Char.isDigit, Bool.or_eq_true, Bool.and_eq_true,
      decide_eq_true_eq] at h
    rw [← Char.ofNat_toNat c]
    rcases h with (⟨hlow, hhigh⟩ | ⟨hlow, hhigh⟩) | ⟨hlow, hhigh⟩
    · have hlow : 48 ≤ c.toNat := hlow
      have hhigh : c.toNat ≤ 57 := hhigh
      interval_cases c.toNat <;> decide
    · have hlow : 97 ≤ c.toNat := hlow
      have hhigh : c.toNat ≤ 102 := hhigh
      interval_cases c.toNat <;> decide
    · have hlow : 65 ≤ c.toNat := hlow
      have hhigh : c.toNat ≤ 70 := hhigh
      interval_cases c.toNat <;> decide
  · have hall : ∀ d ∈ digitsOfEitherCase, isDigit d = true :=
      List.all_iff_forall_prop.1 (by decide)
    exact hall c

theorem toLower_mem_iff
    (c : Char) :
    c.toLower ∈ hexadecimalAlphabet ↔ c ∈ digitsOfEitherCase := by
  constructor
  · intro h
    by_cases hupper : c.val ≥ 'A'.val ∧ c.val ≤ 'Z'.val
    · have hlow : 65 ≤ c.toNat := hupper.1
      have hhigh : c.toNat ≤ 90 := hupper.2
      rw [← Char.ofNat_toNat c] at h ⊢
      revert h
      interval_cases c.toNat <;> decide
    · have hsame : c.toLower = c := dif_neg hupper
      rw [hsame] at h
      have hall : ∀ d ∈ hexadecimalAlphabet, d ∈ digitsOfEitherCase :=
        List.all_iff_forall_prop.1 (by decide)
      exact hall c h
  · have hall : ∀ d ∈ digitsOfEitherCase, d.toLower ∈ hexadecimalAlphabet :=
      List.all_iff_forall_prop.1 (by decide)
    exact hall c

/-- The hexadecimal digits are the characters whose lower case is in the alphabet. -/
theorem isDigit_iff_toLower_mem
    (c : Char) :
    isDigit c = true ↔ c.toLower ∈ hexadecimalAlphabet := by
  rw [isDigit_iff_mem_digitsOfEitherCase, toLower_mem_iff]

theorem digitValue_eq_idxOf :
    ∀ d ∈ digitsOfEitherCase, digitValue d = hexadecimalAlphabet.idxOf d.toLower :=
  List.all_iff_forall_prop.1 (by decide)

theorem value_eq_hexadecimalNumber
    {ds : List Char}
    (hds : ∀ d ∈ ds, d.toLower ∈ hexadecimalAlphabet) :
    value ds = hexadecimalNumber ds := by
  have hmap :
      ds.map digitValue = (ds.map Char.toLower).map hexadecimalAlphabet.idxOf := by
    rw [List.map_map]
    exact
      List.map_congr_left fun d hd =>
        digitValue_eq_idxOf d ((toLower_mem_iff d).1 (hds d hd))
  calc value ds
      = Nat.ofDigits 16 (ds.map digitValue).reverse :=
        foldl_eq_ofDigits 16 digitValue ds
    _ = hexadecimalNumber ds := by
        rw [hmap]
        rfl

/-- A numeral of up to sixteen digits is a word. -/
theorem readWord?_of_numeral
    {width : Nat}
    {ds : List Char}
    (h : HexadecimalNumeral width ds)
    (hpos : 0 < width)
    (hwidth : width ≤ 16) :
    readWord? ds = some (hexadecimalNumber ds) := by
  obtain ⟨hlength, hds⟩ := h
  have hne : ds ≠ [] := List.length_pos_iff.1 (by omega)
  have hall : ds.all isDigit = true :=
    List.all_eq_true.2 fun d hd => (isDigit_iff_toLower_mem d).2 (hds d hd)
  have hlower : ∀ d ∈ ds.map Char.toLower, d ∈ hexadecimalAlphabet := by
    intro d hd
    obtain ⟨d', hd', rfl⟩ := List.mem_map.1 hd
    exact hds d' hd'
  have hlt : value ds < Decimal.wordLimit := by
    rw [value_eq_hexadecimalNumber hds]
    calc hexadecimalNumber ds
        < 16 ^ (ds.map Char.toLower).length := positional_lt (by decide) hlower
      _ ≤ 16 ^ 16 := Nat.pow_le_pow_right (by decide) (by simpa [hlength] using hwidth)
      _ = Decimal.wordLimit := by decide
  simp only [readWord?, hall, Bool.not_true, Bool.or_false, hlt, if_true]
  rw [if_neg (by simpa using hne), value_eq_hexadecimalNumber hds]

end Hexadecimal
end LedgerEntity
