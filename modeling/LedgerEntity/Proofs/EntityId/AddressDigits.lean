import LedgerEntity.EntityId.Address
import LedgerEntity.Proofs.Decode.Reference

/-!
# The digits of an address

The digits that are written for the address of a place, read back by position.

The bytes of a field are written most significant first, two digits each, so
the digits of a field denote the field.  Hence the digits of a place spell the
fields of the place, and no other forty lower-case digits do.

Any forty digits are read as an address that is written with the same digits in
lower case.
-/

namespace LedgerEntity
namespace Hexadecimal

theorem ofBytes_append
    (xs ys : List UInt8) :
    ofBytes (xs ++ ys) = ofBytes xs ++ ofBytes ys :=
  List.flatMap_append

theorem digit_mem :
    ∀ n < 16, digit n ∈ hexadecimalAlphabet := by
  decide

theorem idxOf_digit :
    ∀ n < 16, hexadecimalAlphabet.idxOf (digit n) = n := by
  decide

/-- Bytes are written with lower-case digits only. -/
theorem mem_of_mem_ofBytes
    {bs : List UInt8}
    {d : Char}
    (h : d ∈ ofBytes bs) :
    d ∈ hexadecimalAlphabet := by
  obtain ⟨b, -, hd⟩ := List.mem_flatMap.1 h
  have hlt : b.toNat < 256 := b.toNat_lt
  rcases List.mem_pair.1 hd with rfl | rfl
  · exact digit_mem _ (by omega)
  · exact digit_mem _ (by omega)

theorem toLower_of_mem :
    ∀ d ∈ hexadecimalAlphabet, d.toLower = d :=
  List.all_iff_forall_prop.1 (by decide)

theorem map_toLower_of_mem
    {ds : List Char}
    (hds : ∀ d ∈ ds, d ∈ hexadecimalAlphabet) :
    ds.map Char.toLower = ds := by
  have hmap : ds.map Char.toLower = ds.map id :=
    List.map_congr_left fun d hd => toLower_of_mem d (hds d hd)
  rw [hmap, List.map_id]

theorem hexadecimalNumber_of_mem
    {ds : List Char}
    (hds : ∀ d ∈ ds, d ∈ hexadecimalAlphabet) :
    hexadecimalNumber ds = positional hexadecimalAlphabet ds := by
  rw [hexadecimalNumber, map_toLower_of_mem hds]

theorem positional_ofByte
    (b : UInt8) :
    positional hexadecimalAlphabet (ofByte b) = b.toNat := by
  have hlt : b.toNat < 256 := b.toNat_lt
  have hhi := idxOf_digit (b.toNat / 16) (by omega)
  have hlo := idxOf_digit (b.toNat % 16) (by omega)
  have hlength : hexadecimalAlphabet.length = 16 := rfl
  simp only [positional, ofByte, hlength, List.map_cons, List.map_nil, hhi, hlo,
    List.reverse_cons, List.reverse_nil, List.nil_append, List.singleton_append,
    Nat.ofDigits_cons, Nat.ofDigits_nil]
  omega

/-- The digits of a field denote the field, up to its width. -/
theorem positional_ofBytes_bigEndian
    (width n : Nat) :
    positional hexadecimalAlphabet (ofBytes (bigEndian width n)) = n % 256 ^ width := by
  induction width with
  | zero =>
      rw [Nat.pow_zero, Nat.mod_one]
      rfl
  | succ width ih =>
      have hcons :
          ofBytes (bigEndian (width + 1) n) =
            ofByte (UInt8.ofNat (n >>> (8 * width))) ++ ofBytes (bigEndian width n) :=
        rfl
      have hbyte : (UInt8.ofNat (n >>> (8 * width))).toNat = n / 256 ^ width % 256 := by
        rw [UInt8.toNat_ofNat', Nat.shiftRight_eq_div_pow, Nat.pow_mul]
      have hplaces :
          hexadecimalAlphabet.length ^ (ofBytes (bigEndian width n)).length =
            256 ^ width := by
        rw [length_ofBytes, length_bigEndian, Nat.pow_mul]
        rfl
      rw [hcons, positional_append, positional_ofByte, hbyte, hplaces, ih,
        Nat.mod_pow_succ]
      ring

theorem hexadecimalNumber_ofBytes_bigEndian
    {width n : Nat}
    (h : n < 256 ^ width) :
    hexadecimalNumber (ofBytes (bigEndian width n)) = n := by
  rw [hexadecimalNumber_of_mem fun d hd => mem_of_mem_ofBytes hd,
    positional_ofBytes_bigEndian, Nat.mod_eq_of_lt h]

theorem digitValue_lt :
    ∀ d ∈ digitsOfEitherCase, digitValue d < 16 :=
  List.all_iff_forall_prop.1 (by decide)

theorem digit_digitValue :
    ∀ d ∈ digitsOfEitherCase, digit (digitValue d) = d.toLower :=
  List.all_iff_forall_prop.1 (by decide)

/-- A byte that is read from two digits is written with the same digits in lower case. -/
theorem ofByte_of_digits
    {hi lo : Char}
    (hhi : hi ∈ digitsOfEitherCase)
    (hlo : lo ∈ digitsOfEitherCase) :
    ofByte (UInt8.ofNat (16 * digitValue hi + digitValue lo)) =
      [hi.toLower, lo.toLower] := by
  have hhigh := digitValue_lt hi hhi
  have hlow := digitValue_lt lo hlo
  have hbyte :
      (UInt8.ofNat (16 * digitValue hi + digitValue lo)).toNat =
        16 * digitValue hi + digitValue lo := by
    rw [UInt8.toNat_ofNat']
    omega
  have hdiv : (16 * digitValue hi + digitValue lo) / 16 = digitValue hi := by omega
  have hmod : (16 * digitValue hi + digitValue lo) % 16 = digitValue lo := by omega
  rw [ofByte, hbyte, hdiv, hmod, digit_digitValue hi hhi, digit_digitValue lo hlo]

/-- Digits in pairs are read as bytes, which are written with the digits in lower case. -/
theorem exists_bytes?_eq
    (width : Nat)
    {ds : List Char}
    (h : HexadecimalNumeral (2 * width) ds) :
    ∃ bs, bytes? ds = some bs ∧ bs.length = width ∧ ofBytes bs = ds.map Char.toLower := by
  obtain ⟨hlength, hds⟩ := h
  induction width generalizing ds with
  | zero =>
      obtain rfl := List.length_eq_zero_iff.1 hlength
      exact ⟨[], rfl, rfl, rfl⟩
  | succ width ih =>
      match ds, hlength with
      | hi :: lo :: rest, hlength =>
          obtain ⟨hhi, hds⟩ := List.forall_mem_cons.1 hds
          obtain ⟨hlo, hrest⟩ := List.forall_mem_cons.1 hds
          rw [toLower_mem_iff] at hhi hlo
          simp only [List.length_cons] at hlength
          obtain ⟨bs, hbytes, hwidth, hdigits⟩ := ih (by omega) hrest
          have hdigit :
              (isDigit hi && isDigit lo) = true := by
            rw [Bool.and_eq_true, isDigit_iff_mem_digitsOfEitherCase,
              isDigit_iff_mem_digitsOfEitherCase]
            exact ⟨hhi, hlo⟩
          refine
            ⟨UInt8.ofNat (16 * digitValue hi + digitValue lo) :: bs, ?_, by simp [hwidth],
              ?_⟩
          · rw [bytes?, if_pos hdigit, hbytes, Option.map_some]
          · change ofByte _ ++ ofBytes bs = _
            rw [ofByte_of_digits hhi hlo, hdigits]
            rfl

end Hexadecimal

/-- Forty digits are read as an address, which has these digits in lower case. -/
theorem Address.exists_ofDigits?_eq
    {ds : List Char}
    (h : HexadecimalNumeral 40 ds) :
    ∃ a, ofDigits? ds = some a ∧ a.digits = ds.map Char.toLower := by
  obtain ⟨bs, hbytes, hlength, hdigits⟩ := Hexadecimal.exists_bytes?_eq 20 h
  refine ⟨⟨bs, hlength⟩, ?_, hdigits⟩
  rw [ofDigits?, hbytes]
  exact dif_pos hlength

section AddressFields

variable {xs ys ds : List Char}

/-- Digits of either letter case are lower-case digits once their case is dropped. -/
theorem hexadecimalNumeral_iff_map_toLower
    {width : Nat} :
    HexadecimalNumeral width ds ↔
      (ds.map Char.toLower).length = width ∧
        ∀ d ∈ ds.map Char.toLower, d ∈ hexadecimalAlphabet := by
  rw [HexadecimalNumeral, List.length_map, List.forall_mem_map]

/-- The letter case of the digits does not matter to the fields. -/
theorem addressFields_congr
    (h : xs.map Char.toLower = ys.map Char.toLower) :
    addressFields xs = addressFields ys := by
  simp only [addressFields, hexadecimalNumber, List.map_take, List.map_drop, h]

theorem addressFields_map_toLower
    (h : HexadecimalNumeral 40 ds) :
    addressFields (ds.map Char.toLower) = addressFields ds := by
  have hmem := (hexadecimalNumeral_iff_map_toLower.1 h).2
  exact addressFields_congr (Hexadecimal.map_toLower_of_mem hmem)

theorem eq_of_hexadecimalNumber_eq
    (hlength : xs.length = ys.length)
    (hxs : ∀ d ∈ xs, d ∈ hexadecimalAlphabet)
    (hys : ∀ d ∈ ys, d ∈ hexadecimalAlphabet)
    (h : hexadecimalNumber xs = hexadecimalNumber ys) :
    xs = ys := by
  rw [Hexadecimal.hexadecimalNumber_of_mem hxs,
    Hexadecimal.hexadecimalNumber_of_mem hys] at h
  exact positional_injective (by decide) hlength hxs hys h

/-- Forty lower-case digits are determined by their fields. -/
theorem eq_of_addressFields_eq
    (hlength : xs.length = ys.length)
    (hxs : ∀ d ∈ xs, d ∈ hexadecimalAlphabet)
    (hys : ∀ d ∈ ys, d ∈ hexadecimalAlphabet)
    (h : addressFields xs = addressFields ys) :
    xs = ys := by
  simp only [addressFields, Fields.mk.injEq] at h
  obtain ⟨hshard, hrealm, hnum⟩ := h
  have hshard : xs.take 8 = ys.take 8 :=
    eq_of_hexadecimalNumber_eq (by simp [hlength])
      (fun d hd => hxs d (List.mem_of_mem_take hd))
      (fun d hd => hys d (List.mem_of_mem_take hd)) hshard
  have hrealm : (xs.drop 8).take 16 = (ys.drop 8).take 16 :=
    eq_of_hexadecimalNumber_eq (by simp [hlength])
      (fun d hd => hxs d (List.mem_of_mem_drop (List.mem_of_mem_take hd)))
      (fun d hd => hys d (List.mem_of_mem_drop (List.mem_of_mem_take hd))) hrealm
  have hnum : xs.drop 24 = ys.drop 24 :=
    eq_of_hexadecimalNumber_eq (by simp [hlength])
      (fun d hd => hxs d (List.mem_of_mem_drop hd))
      (fun d hd => hys d (List.mem_of_mem_drop hd)) hnum
  -- The three fields are all of the digits.
  have hsplit : ∀ zs : List Char, zs.take 8 ++ ((zs.drop 8).take 16 ++ zs.drop 24) = zs := by
    intro zs
    have htail : (zs.drop 8).take 16 ++ zs.drop 24 = zs.drop 8 := by
      have hdrop : zs.drop 24 = (zs.drop 8).drop 16 := by rw [List.drop_drop]
      rw [hdrop, List.take_append_drop]
    rw [htail, List.take_append_drop]
  rw [← hsplit xs, ← hsplit ys, hshard, hrealm, hnum]

end AddressFields

namespace Place

theorem mem_of_mem_digits
    (p : Place) :
    ∀ d ∈ p.address.digits, d ∈ hexadecimalAlphabet :=
  fun _ hd => Hexadecimal.mem_of_mem_ofBytes hd

theorem hexadecimalNumeral_digits
    (p : Place) :
    HexadecimalNumeral 40 p.address.digits := by
  constructor
  · exact p.address.length_digits
  · intro d hd
    have hmem := p.mem_of_mem_digits d hd
    rw [Hexadecimal.toLower_of_mem d hmem]
    exact hmem

/-- The digits of the address of a place spell the fields of the place. -/
theorem addressFields_digits
    (p : Place) :
    addressFields p.address.digits = p.fields := by
  have hdigits :
      p.address.digits =
        Hexadecimal.ofBytes (Hexadecimal.bigEndian 4 p.shard.toNat) ++
          (Hexadecimal.ofBytes (Hexadecimal.bigEndian 8 p.realm.toNat) ++
            Hexadecimal.ofBytes (Hexadecimal.bigEndian 8 p.num.toNat)) := by
    simp only [Address.digits, address, Hexadecimal.ofBytes_append, List.append_assoc]
  have hshard : p.shard.toNat < 256 ^ 4 := lt_trans p.shard.toNat_lt (by decide)
  have hrealm : p.realm.toNat < 256 ^ 8 := lt_trans p.realm.toNat_lt (by decide)
  have hnum : p.num.toNat < 256 ^ 8 := lt_trans p.num.toNat_lt (by decide)
  have hdrop : p.address.digits.drop 24 = (p.address.digits.drop 8).drop 16 := by
    rw [List.drop_drop]
  rw [addressFields, hdrop, hdigits, List.take_left' (by simp), List.drop_left' (by simp),
    List.take_left' (by simp), List.drop_left' (by simp),
    Hexadecimal.hexadecimalNumber_ofBytes_bigEndian hshard,
    Hexadecimal.hexadecimalNumber_ofBytes_bigEndian hrealm,
    Hexadecimal.hexadecimalNumber_ofBytes_bigEndian hnum]
  rfl

/-- Digits that spell the fields of a place are its digits, up to letter case. -/
theorem digits_eq_map_toLower
    {p : Place}
    {ds : List Char}
    (hds : HexadecimalNumeral 40 ds)
    (h : addressFields ds = p.fields) :
    p.address.digits = ds.map Char.toLower := by
  obtain ⟨hlength, hmem⟩ := hexadecimalNumeral_iff_map_toLower.1 hds
  apply eq_of_addressFields_eq _ p.mem_of_mem_digits hmem
  · rw [addressFields_map_toLower hds, p.addressFields_digits, h]
  · rw [p.address.length_digits, hlength]

end Place
end LedgerEntity
