import LedgerEntity.EntityId.Decoding
import LedgerEntity.Proofs.Codec.Transparency
import LedgerEntity.Proofs.EntityId.PackedOrder
import LedgerEntity.Proofs.Text.DecimalText

/-!
# Whole numbers as IDs

A whole number is read by way of its decimal text, and the text is a packed ID
or nothing.

Up to nineteen digits make a packed ID, which denotes the place with that packed
value or is out of range from `2 ^ 63` on.  More digits have no dot and are too
few for an address as long as the number fits 127 bits.  A minus sign occurs in
no written form.  Hence reading numbers is the inverse of packing, for a codec of
any shard and flavor and for the readers of documents alike.
-/

namespace LedgerEntity

section PackedFields

theorem packedNumber_packedFields
    (v : Nat) :
    (packedFields v).packedNumber = v := by
  simp only [packedFields, Fields.packedNumber]
  omega

theorem inRange_packedFields
    {v : Nat}
    (h : v ≤ 2 ^ 63 - 1) :
    (packedFields v).InRange := by
  rw [Fields.inRange_iff]
  simp only [packedFields]
  omega

end PackedFields

section Minus

theorem DecimalNumeral.minus_not_mem
    {atMost : Nat}
    {ds : List Char}
    (h : DecimalNumeral atMost ds) :
    '-' ∉ ds :=
  h.not_mem (by decide)

theorem AddressFront.minus_not_mem
    {flavor : Flavor}
    {front : List Char}
    (h : AddressFront flavor front) :
    '-' ∉ front := by
  cases h with
  | none => simp
  | mark => decide
  | qualifiers hflavor hlength hqualifiers =>
      exact
        not_mem_qualified (by decide) (fun q hq => (hqualifiers q hq).minus_not_mem)
          (by simp)

/-- No written form has a minus sign. -/
theorem Spells.minus_not_mem
    {flavor : Flavor}
    {systemShard : UInt16}
    {cs : List Char}
    {outcome : Except Rejection Fields}
    (h : Spells flavor systemShard cs outcome) :
    '-' ∉ cs := by
  cases h with
  | short hrealm hnum =>
      exact
        not_mem_qualified (by decide) (by simpa using hrealm.minus_not_mem)
          hnum.minus_not_mem
  | full hshard hrealm hnum =>
      exact
        not_mem_qualified (by decide)
          (by simpa using ⟨hshard.minus_not_mem, hrealm.minus_not_mem⟩) hnum.minus_not_mem
  | packed hds => exact hds.minus_not_mem
  | packedTooLarge hds => exact hds.minus_not_mem
  | address hfront hds =>
      rw [List.mem_append, not_or]
      exact ⟨hfront.minus_not_mem, hds.not_mem (by decide)⟩

end Minus

section Texts

variable {flavor : Flavor}
variable {systemShard : UInt16}

theorem extractFields_digits
    {n : Nat}
    (h : n < 10 ^ 19) :
    extractFields (Decimal.digits n) flavor systemShard = Fields.unpack n := by
  have hnumeral := (Decimal.decimalNumeral_digits_iff 19 (by decide)).2 h
  rw [extractFields_of_isPacked (Shape.isPacked_iff.2 hnumeral),
    Fields.ofPacked_of_numeral hnumeral, Decimal.decimalNumber_digits]

/-- From twenty to thirty-nine digits have no shape. -/
theorem extractFields_digits_of_le
    {n : Nat}
    (h : 10 ^ 19 ≤ n)
    (hshort : n < 10 ^ 39) :
    extractFields (Decimal.digits n) flavor systemShard = .error .malformed := by
  apply extractFields_of_no_shape
  · intro hdotted
    exact Decimal.dot_not_mem_digits (Shape.dot_mem_of_isDotted hdotted)
  · rw [Shape.isPacked_iff, Decimal.decimalNumeral_digits_iff 19 (by decide)]
    omega
  · intro haddress
    have hlong := Shape.le_length_of_isAddress haddress
    have hlength := (Decimal.length_digits_le_iff 39 (by decide)).2 hshort
    omega

theorem extractFields_minus
    (cs : List Char) :
    extractFields ('-' :: cs) flavor systemShard = .error .malformed :=
  extractFields_of_unspelled fun _ h => h.minus_not_mem List.mem_cons_self

section Outcomes

variable {n : Nat}
variable (flavor : Flavor)
variable (systemShard : UInt16)

theorem decode_text_of_fits
    (h : n ≤ 2 ^ 63 - 1) :
    ∃ p : Place, p.packed.toInt = n ∧
      decode (Decimal.text n) flavor systemShard = .ok (.present p) := by
  have hrange := inRange_packedFields h
  have hfields := Place.fields_ofFields _ hrange
  refine ⟨Place.ofFields _ hrange, ?_, decode_of_extractFields ?_⟩
  · rw [Place.toInt_packed, hfields, packedNumber_packedFields]
  · rw [Decimal.toList_text, extractFields_digits (by omega), Fields.unpack_eq,
      if_neg (by omega), hfields]

theorem decode_text_of_tooLarge
    (h : 2 ^ 63 ≤ n)
    (hdigits : n < 10 ^ 19) :
    decode (Decimal.text n) flavor systemShard = .error .outOfRange := by
  apply decode_of_extractFields_error
  rw [Decimal.toList_text, extractFields_digits hdigits, Fields.unpack_eq,
    if_pos (by omega)]

theorem decode_text_of_tooLong
    (h : 10 ^ 19 ≤ n)
    (hshort : n < 10 ^ 39) :
    decode (Decimal.text n) flavor systemShard = .error .malformed := by
  apply decode_of_extractFields_error
  rw [Decimal.toList_text]
  exact extractFields_digits_of_le h hshort

theorem decode_intText_of_neg
    {n : Int}
    (h : n < 0) :
    decode (Decimal.intText n) flavor systemShard = .error .malformed := by
  obtain ⟨m, rfl⟩ := Int.eq_negSucc_of_lt_zero h
  apply decode_of_extractFields_error
  rw [Decimal.toList_intText_negSucc]
  exact extractFields_minus _

end Outcomes

/-- The text of a whole number denotes the place with that packed value, or is refused. -/
theorem decode_intText_cases
    {n : Int}
    (hn : n < 2 ^ 127)
    (flavor : Flavor)
    (systemShard : UInt16) :
    (0 ≤ n ∧ n ≤ 2 ^ 63 - 1 ∧
      ∃ p : Place, p.packed.toInt = n ∧
        decode (Decimal.intText n) flavor systemShard = .ok (.present p))
      ∨
    (2 ^ 63 ≤ n ∧ n < 10 ^ 19 ∧
      decode (Decimal.intText n) flavor systemShard = .error .outOfRange)
      ∨
    ((n < 0 ∨ 10 ^ 19 ≤ n) ∧
      decode (Decimal.intText n) flavor systemShard = .error .malformed) := by
  rcases lt_or_ge n 0 with hneg | hnonneg
  · right; right
    exact ⟨Or.inl hneg, decode_intText_of_neg flavor systemShard hneg⟩
  · obtain ⟨m, rfl⟩ := Int.eq_ofNat_of_zero_le hnonneg
    have hm : m < 2 ^ 127 := by omega
    by_cases hfits : m ≤ 2 ^ 63 - 1
    · left
      exact ⟨hnonneg, by omega, decode_text_of_fits flavor systemShard hfits⟩
    · right
      by_cases hdigits : m < 10 ^ 19
      · left
        exact
          ⟨by omega, by omega,
            decode_text_of_tooLarge flavor systemShard (by omega) hdigits⟩
      · right
        exact
          ⟨Or.inr (by omega),
            decode_text_of_tooLong flavor systemShard (by omega) (by omega)⟩

/-- A number denotes the ID with that packed value, whatever flavor and shard are. -/
theorem decode_intText_eq_ok_iff
    {n : Int}
    (hn : n < 2 ^ 127)
    (flavor : Flavor)
    (systemShard : UInt16)
    {id : EntityId} :
    decode (Decimal.intText n) flavor systemShard = .ok id ↔ id.packedNumber? = some n := by
  constructor
  · intro h
    rcases decode_intText_cases hn flavor systemShard with
      ⟨-, -, p, rfl, hdecode⟩ | ⟨-, -, hdecode⟩ | ⟨-, hdecode⟩
    · rw [← Except.ok.inj (hdecode.symm.trans h), EntityId.packedNumber?_present]
    · cases hdecode.symm.trans h
    · cases hdecode.symm.trans h
  · intro h
    obtain ⟨q, rfl, rfl⟩ := EntityId.packedNumber?_eq_some_iff.1 h
    have hbounds := q.toInt_packed_bounds
    rcases decode_intText_cases hn flavor systemShard with
      ⟨-, -, p, hp, hdecode⟩ | ⟨hlow, -, -⟩ | ⟨hout, -⟩
    · have hpq : EntityId.present p = .present q :=
        EntityId.packedNumber?_injective (congrArg some hp)
      rw [hdecode, hpq]
    · omega
    · omega

end Texts

section Readers

variable {n : Int}
variable {id : EntityId}

/-- A text in a document denotes what it denotes under the default flavor in shard zero. -/
theorem ofTextValue_eq_ok_iff
    {raw : String} :
    EntityId.ofTextValue raw = .ok id ↔ decode raw default 0 = .ok id := by
  rw [EntityId.ofTextValue, EntityId.ofText]
  cases decode raw default 0 <;> simp

theorem ofTextValue_intText_eq_ok_iff
    (hn : n < 2 ^ 127) :
    EntityId.ofTextValue (Decimal.intText n) = .ok id ↔ id.packedNumber? = some n := by
  rw [ofTextValue_eq_ok_iff, decode_intText_eq_ok_iff hn default 0]

end Readers

namespace Codec

variable {n : Int}
variable (systemShard : UInt16)
variable (options : ParseOptions)
variable (now : Int)

/-- Without a cache a number is read as its text is decoded. -/
theorem value_parsePacked_withoutCache
    (n : Int) :
    (parsePacked ⟨systemShard, none⟩ (some n) options now).value =
      match decode (Decimal.intText n) options.flavor systemShard with
      | .ok id => .ok id
      | .error rejection =>
          .error (rejection.toError (Decimal.intText n) options.parameter) :=
  value_parsePresent_withoutCache ⟨systemShard, none⟩ (Decimal.intText n) options now

theorem value_parsePacked_eq_ok_iff
    (hn : n < 2 ^ 127)
    {id : EntityId} :
    (parsePacked ⟨systemShard, none⟩ (some n) options now).value = .ok id ↔
      id.packedNumber? = some n := by
  rw [value_parsePacked_withoutCache,
    ← decode_intText_eq_ok_iff hn options.flavor systemShard]
  cases decode (Decimal.intText n) options.flavor systemShard <;> simp

theorem value_parsePacked_cases
    (hn : n < 2 ^ 127) :
    (0 ≤ n ∧ n ≤ 2 ^ 63 - 1 ∧
      ∃ id, (parsePacked ⟨systemShard, none⟩ (some n) options now).value = .ok id)
      ∨
    (2 ^ 63 ≤ n ∧ n < 10 ^ 19 ∧
      (parsePacked ⟨systemShard, none⟩ (some n) options now).value =
        .error (.outOfRange (toString n) options.parameter))
      ∨
    ((n < 0 ∨ 10 ^ 19 ≤ n) ∧
      (parsePacked ⟨systemShard, none⟩ (some n) options now).value =
        .error (.malformed (toString n) options.parameter)) := by
  rw [value_parsePacked_withoutCache, ← Decimal.intText_eq_toString]
  rcases decode_intText_cases hn options.flavor systemShard with
    ⟨hlow, hhigh, p, -, hdecode⟩ | ⟨hlow, hhigh, hdecode⟩ | ⟨hout, hdecode⟩
  · left
    exact ⟨hlow, hhigh, .present p, by rw [hdecode]⟩
  · right; left
    exact ⟨hlow, hhigh, by rw [hdecode]; rfl⟩
  · right; right
    exact ⟨hout, by rw [hdecode]; rfl⟩

/--
Reading whole numbers is the inverse of packing.

A number of up to 127 bits is read as the ID with that packed value.  There is
such an ID up to `2 ^ 63 - 1`.  Larger numbers of nineteen digits are out of
range and all others are malformed, in the words of this call.  A document with
the number is read as the same ID, and so is a word of 64 bits that another format
offers, with or without a sign.
-/
theorem parsePacked_inverse_packedNumber?
    (n : Int)
    (hn : n < 2 ^ 127)
    (systemShard : UInt16)
    (options : ParseOptions)
    (now : Int) :
    let reading (n : Int) := (parsePacked ⟨systemShard, none⟩ (some n) options now).value
    (∀ id, reading n = .ok id ↔ id.packedNumber? = some n) ∧
    ((∃ id, reading n = .ok id) ↔ 0 ≤ n ∧ n ≤ 2 ^ 63 - 1) ∧
    (reading n = .error (.outOfRange (toString n) options.parameter) ↔
      2 ^ 63 ≤ n ∧ n < 10 ^ 19) ∧
    (reading n = .error (.malformed (toString n) options.parameter) ↔
      n < 0 ∨ 10 ^ 19 ≤ n) ∧
    (∀ id, id ≠ .null → ∃ v, id.packed? = some v ∧ reading v.toInt = .ok id) ∧
    (∀ id, EntityId.ofDocument (.integer n) = .ok id ↔ reading n = .ok id) ∧
    (∀ word : UInt64, (word.toNat : Int) = n →
      ∀ id, EntityId.ofOffered (.unsigned word) = .ok id ↔ reading n = .ok id) ∧
    (∀ word : Int64, word.toInt = n →
      ∀ id, EntityId.ofOffered (.signed word) = .ok id ↔ reading n = .ok id) := by
  intro reading
  have hok {id : EntityId} : reading n = .ok id ↔ id.packedNumber? = some n :=
    value_parsePacked_eq_ok_iff systemShard options now hn
  have hdocument {id : EntityId} :
      EntityId.ofTextValue (Decimal.intText n) = .ok id ↔ reading n = .ok id := by
    rw [hok, ofTextValue_intText_eq_ok_iff hn]
  have houtcomes :
      ((∃ id, reading n = .ok id) ↔ 0 ≤ n ∧ n ≤ 2 ^ 63 - 1) ∧
      (reading n = .error (.outOfRange (toString n) options.parameter) ↔
        2 ^ 63 ≤ n ∧ n < 10 ^ 19) ∧
      (reading n = .error (.malformed (toString n) options.parameter) ↔
        n < 0 ∨ 10 ^ 19 ≤ n) := by
    -- The three outcomes exclude each other, and so do the three ranges.
    rcases value_parsePacked_cases systemShard options now hn with
      ⟨hlow, hhigh, id, hvalue⟩ | ⟨hlow, hhigh, hvalue⟩ | ⟨hout, hvalue⟩ <;>
      simp only [reading, hvalue, Except.ok.injEq, Except.error.injEq, reduceCtorEq,
        exists_eq', exists_false, true_iff, false_iff] <;>
      omega
  obtain ⟨hfits, hlarge, hmalformed⟩ := houtcomes
  refine ⟨fun _ => hok, hfits, hlarge, hmalformed, ?_, fun _ => hdocument, ?_, ?_⟩
  case refine_2 =>
    rintro word rfl id
    exact hdocument
  case refine_3 =>
    rintro word rfl id
    exact hdocument
  intro id hid
  cases id with
  | null => exact absurd rfl hid
  | present p =>
      have hbounds := p.toInt_packed_bounds
      refine ⟨p.packed, rfl, ?_⟩
      exact (value_parsePacked_eq_ok_iff systemShard options now (by omega)).2 rfl

/--
The largest ID is read from its packed value, the next number is out of range, as a
word without a sign too, and a word with a sign is read as `0.0.1001`.
-/
theorem parsePacked_inverse_packedNumber?_at_limit :
    let options : ParseOptions := { parameter := some "id", flavor := .any }
    let last : EntityId := .present ⟨32767, 65535, 4294967295, by decide⟩
    let small : EntityId := .present ⟨0, 0, 1001, by decide⟩
    ((9223372036854775808 : Int) < 2 ^ 127 ∧ (1001 : Int) < 2 ^ 127) ∧
    last ≠ .null ∧
    (parsePacked ⟨7, none⟩ (some 9223372036854775808) options 0).value =
      .error (.outOfRange "9223372036854775808" (some "id")) ∧
    (∃ v, last.packed? = some v ∧
      (parsePacked ⟨7, none⟩ (some v.toInt) options 0).value = .ok last) ∧
    ((9223372036854775808 : UInt64).toNat : Int) = 9223372036854775808 ∧
    EntityId.ofOffered (.unsigned 9223372036854775808) ≠ .ok last ∧
    (1001 : Int64).toInt = 1001 ∧
    EntityId.ofOffered (.signed 1001) = .ok small := by
  intro options last small
  have hfits : (9223372036854775808 : Int) < 2 ^ 127 := by decide
  have hsmall : (1001 : Int) < 2 ^ 127 := by decide
  have hlast : last ≠ .null := by simp [last]
  obtain ⟨-, -, hlarge, -, hinverse, -, hunsigned, -⟩ :=
    parsePacked_inverse_packedNumber? 9223372036854775808 hfits 7 options 0
  obtain ⟨hread, -, -, -, -, -, -, hsigned⟩ :=
    parsePacked_inverse_packedNumber? 1001 hsmall 7 options 0
  have herror := hlarge.2 (by decide)
  refine
    ⟨⟨hfits, hsmall⟩, hlast, herror, hinverse last hlast, rfl, ?_, rfl,
      (hsigned 1001 rfl small).2 ((hread small).2 rfl)⟩
  intro hoffered
  cases herror.symm.trans ((hunsigned _ rfl last).1 hoffered)

end Codec
end LedgerEntity
