import LedgerEntity.Proofs.Codec.Transparency
import LedgerEntity.Proofs.Text.DecimalText

/-!
# Building and reading by the dotted text

Three numbers make an ID in two ways: directly, or by way of their dotted text.

The canonical text of three numbers has the dotted form if the numbers have few
digits, and then it spells these numbers.  With more digits it has no form at
all: it is no packed ID because of its dots, and its last piece is too short for
an address as long as the third number has less than forty digits.  Numbers
within the limits of an ID always have few digits, so both ways accept the same
numbers and make the same ID of them, in every shard and under every flavor.
-/

namespace LedgerEntity

theorem Shape.length_withoutMark_le
    (cs : List Char) :
    (withoutMark cs).length ≤ cs.length := by
  unfold withoutMark
  split
  · simp only [List.length_cons]
    omega
  · exact le_refl _

namespace Fields

variable (f : Fields)

theorem toList_text :
    f.text.toList =
      qualified [Decimal.digits f.shard, Decimal.digits f.realm] (Decimal.digits f.num) := by
  simp [text, Decimal.toList_text, qualified]

theorem pieces_text :
    pieces '.' f.text.toList =
      [Decimal.digits f.shard, Decimal.digits f.realm, Decimal.digits f.num] := by
  rw [f.toList_text, pieces_qualified _ Decimal.dot_not_mem_digits]
  · rfl
  · simp [Decimal.dot_not_mem_digits]

/-- The canonical text is dotted exactly for numbers of so few digits. -/
theorem isDotted_text_iff :
    Shape.isDotted f.text.toList = true ↔
      f.shard < 10 ^ 5 ∧ f.realm < 10 ^ 5 ∧ f.num < 10 ^ 10 := by
  simp only [Shape.isDotted, f.pieces_text, Bool.and_eq_true, Decimal.isNumeral_iff,
    Decimal.decimalNumeral_digits_iff 5 (by decide),
    Decimal.decimalNumeral_digits_iff 10 (by decide), and_assoc]

theorem isPacked_text :
    ¬ Shape.isPacked f.text.toList = true := by
  rw [Shape.isPacked_iff]
  intro h
  apply h.dot_not_mem
  rw [f.toList_text]
  simp [qualified]

/-- The digits of an address would have to fit the third number. -/
theorem isAddress_text
    (hshort : f.num < 10 ^ 39)
    (flavor : Flavor) :
    ¬ Shape.isAddress flavor f.text.toList = true := by
  rw [Shape.isAddress_iff]
  rintro ⟨front, ds, hfront, hds, hsplit⟩
  have hlast : lastPiece '.' f.text.toList = Decimal.digits f.num := by
    rw [lastPiece, f.pieces_text]
    rfl
  have hcut := Shape.withoutMark_lastPiece hfront hds
  rw [← hsplit, hlast] at hcut
  have hle := Shape.length_withoutMark_le (Decimal.digits f.num)
  have hdigits := (Decimal.length_digits_le_iff 39 (by decide)).2 hshort
  rw [hcut, hds.1] at hle
  omega

section Decoding

variable {f}
variable (flavor : Flavor)
variable (systemShard : UInt16)

/-- A canonical text that is dotted spells the numbers it is made of. -/
theorem extractFields_text_of_few_digits
    (h : f.shard < 10 ^ 5 ∧ f.realm < 10 ^ 5 ∧ f.num < 10 ^ 10) :
    extractFields f.text.toList flavor systemShard = .ok f := by
  rw [extractFields_of_isDotted (f.isDotted_text_iff.2 h), f.toList_text,
    ofDotted_full systemShard
      ((Decimal.decimalNumeral_digits_iff 5 (by decide)).2 h.1)
      ((Decimal.decimalNumeral_digits_iff 5 (by decide)).2 h.2.1)
      ((Decimal.decimalNumeral_digits_iff 10 (by decide)).2 h.2.2)]
  simp only [Decimal.decimalNumber_digits]

theorem decode_text_of_many_digits
    (hmany : ¬ (f.shard < 10 ^ 5 ∧ f.realm < 10 ^ 5 ∧ f.num < 10 ^ 10))
    (hshort : f.num < 10 ^ 39) :
    decode f.text flavor systemShard = .error .malformed := by
  apply decode_of_extractFields_error
  apply extractFields_of_no_shape
  · rwa [f.isDotted_text_iff]
  · exact f.isPacked_text
  · exact f.isAddress_text hshort flavor

theorem decode_text_of_not_inRange
    (hfew : f.shard < 10 ^ 5 ∧ f.realm < 10 ^ 5 ∧ f.num < 10 ^ 10)
    (hlarge : ¬ f.InRange) :
    decode f.text flavor systemShard = .error .outOfRange :=
  decode_of_not_inRange (extractFields_text_of_few_digits flavor systemShard hfew) hlarge

/-- The text of a place denotes the place: fields within range have few digits. -/
theorem decode_text_place
    (p : Place) :
    decode p.text flavor systemShard = .ok (.present p) := by
  obtain ⟨hshard, hrealm, hnum⟩ := p.fields.inRange_iff.1 p.inRange_fields
  apply decode_of_extractFields
  exact extractFields_text_of_few_digits flavor systemShard (by omega)

end Decoding

end Fields

namespace EntityId

section Building

variable {f : Fields}

theorem of_place
    (p : Place) :
    of p.fields.shard p.fields.realm p.fields.num = .ok (.present p) := by
  simp only [of]
  rw [Place.ofFields?_fields]

theorem of_of_not_inRange
    (h : ¬ f.InRange) :
    of f.shard f.realm f.num = .error (.outOfRange f.text none) := by
  simp only [of]
  rw [Place.ofFields?, dif_neg h]
  rfl

end Building

section Words

variable (shard realm num : UInt64)

/-- The canonical text of three words. -/
theorem text_of_words :
    (⟨shard.toNat, realm.toNat, num.toNat⟩ : Fields).text =
      toString shard ++ "." ++ toString realm ++ "." ++ toString num :=
  rfl

theorem inRange_words_iff :
    (⟨shard.toNat, realm.toNat, num.toNat⟩ : Fields).InRange ↔
      shard ≤ 32767 ∧ realm ≤ 65535 ∧ num ≤ 4294967295 := by
  rw [Fields.inRange_iff, UInt64.le_iff_toNat_le, UInt64.le_iff_toNat_le,
    UInt64.le_iff_toNat_le]
  rfl

theorem few_digits_words_iff :
    (shard.toNat < 10 ^ 5 ∧ realm.toNat < 10 ^ 5 ∧ num.toNat < 10 ^ 10) ↔
      shard < 100000 ∧ realm < 100000 ∧ num < 10000000000 := by
  rw [UInt64.lt_iff_toNat_lt, UInt64.lt_iff_toNat_lt, UInt64.lt_iff_toNat_lt]
  rfl

end Words

section Agreement

variable (systemShard : UInt16)
variable (options : ParseOptions)
variable (now : Int)

/-- Without a cache the canonical text of a place is read as the place. -/
theorem value_parse_text_place
    (p : Place) :
    (Codec.parse ⟨systemShard, none⟩ (some p.text) options now).value =
      .ok (.present p) := by
  have hdecode := Fields.decode_text_place options.flavor systemShard p
  have hvalue := Codec.value_parsePresent_withoutCache ⟨systemShard, none⟩ p.text options now
  rw [hdecode] at hvalue
  exact hvalue

/-- Numbers that make no ID have a text that is refused, for the digits or for the range. -/
theorem value_parse_text_of_not_inRange
    {f : Fields}
    (hlarge : ¬ f.InRange)
    (hshort : f.num < 10 ^ 39) :
    (Codec.parse ⟨systemShard, none⟩ (some f.text) options now).value =
      if f.shard < 10 ^ 5 ∧ f.realm < 10 ^ 5 ∧ f.num < 10 ^ 10 then
        .error (.outOfRange f.text options.parameter)
      else
        .error (.malformed f.text options.parameter) := by
  have hvalue := Codec.value_parsePresent_withoutCache ⟨systemShard, none⟩ f.text options now
  by_cases hfew : f.shard < 10 ^ 5 ∧ f.realm < 10 ^ 5 ∧ f.num < 10 ^ 10
  · rw [Fields.decode_text_of_not_inRange options.flavor systemShard hfew hlarge] at hvalue
    rw [if_pos hfew]
    exact hvalue
  · rw [Fields.decode_text_of_many_digits options.flavor systemShard hfew hshort] at hvalue
    rw [if_neg hfew]
    exact hvalue

/--
Building an ID from three words and reading their dotted text agree.

Words within the limits make an ID that has them as its fields and their text as
its own, and a codec of any shard and flavor reads that text as the same ID.  Of
other words nothing is built, and their text is refused as well: it is out of
range if the words have few digits, and malformed otherwise.  The text of every
ID with a place is read as the ID.
-/
theorem of_agrees_with_reading_of_text
    (systemShard : UInt16)
    (options : ParseOptions)
    (now : Int) :
    let reading (raw : String) :=
      (Codec.parse ⟨systemShard, none⟩ (some raw) options now).value
    (∀ shard realm num : UInt64,
      let built := of shard.toNat realm.toNat num.toNat
      let text := toString shard ++ "." ++ toString realm ++ "." ++ toString num
      ((shard ≤ 32767 ∧ realm ≤ 65535 ∧ num ≤ 4294967295) ∧
        ∃ id, built = .ok id ∧
          id.shard?.map UInt16.toNat = some shard.toNat ∧
          id.realm?.map UInt16.toNat = some realm.toNat ∧
          id.num?.map UInt32.toNat = some num.toNat ∧
          id.text = text ∧
          reading text = .ok id)
        ∨
      (¬ (shard ≤ 32767 ∧ realm ≤ 65535 ∧ num ≤ 4294967295) ∧
        built = .error (.outOfRange text none) ∧
        reading text =
          if shard < 100000 ∧ realm < 100000 ∧ num < 10000000000 then
            .error (.outOfRange text options.parameter)
          else
            .error (.malformed text options.parameter)))
      ∧
    ∀ p : Place, reading (present p).text = .ok (present p) := by
  intro reading
  refine ⟨?_, value_parse_text_place systemShard options now⟩
  intro shard realm num built text
  let f : Fields := ⟨shard.toNat, realm.toNat, num.toNat⟩
  by_cases hrange : shard ≤ 32767 ∧ realm ≤ 65535 ∧ num ≤ 4294967295
  · left
    have hinRange : f.InRange := (inRange_words_iff shard realm num).2 hrange
    obtain ⟨p, hp⟩ : ∃ p : Place, p.fields = f :=
      ⟨Place.ofFields f hinRange, Place.fields_ofFields f hinRange⟩
    have htext : p.text = text := by
      rw [Place.text, hp]
      exact text_of_words shard realm num
    refine
      ⟨hrange, present p, ?_, congrArg (some ∘ Fields.shard) hp,
        congrArg (some ∘ Fields.realm) hp, congrArg (some ∘ Fields.num) hp, htext, ?_⟩
    · have hbuilt := of_place p
      rw [hp] at hbuilt
      exact hbuilt
    · rw [← htext]
      exact value_parse_text_place systemShard options now p
  · right
    have hlarge : ¬ f.InRange := by
      rwa [inRange_words_iff]
    have hshort : f.num < 10 ^ 39 := by
      have hword := num.toNat_lt
      simp only [f]
      omega
    have hreading := value_parse_text_of_not_inRange systemShard options now hlarge hshort
    simp only [f, few_digits_words_iff] at hreading
    exact ⟨hrange, of_of_not_inRange hlarge, hreading⟩

end Agreement

end EntityId
end LedgerEntity
