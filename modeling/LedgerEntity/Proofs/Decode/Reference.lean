import LedgerEntity.Decode
import LedgerEntity.Proofs.Shape.Grammar

/-!
# The reference for decoding

Which entity ID a raw text denotes, told without the decoder.

A text spells fields in one of a few written forms.  Digits are read in
positional notation, a packed value is split by division, and an address is cut
at its eighth and its twenty-fourth digit.  Fields within range give an ID,
other fields are out of range, and a text in no form at all is malformed.

The main theorem says that decoding computes the reference on every text.
-/

namespace LedgerEntity

/-- The fields of forty digits: eight of shard, sixteen of realm and sixteen of num. -/
def addressFields
    (ds : List Char) :
    Fields where
  shard := hexadecimalNumber (ds.take 8)
  realm := hexadecimalNumber ((ds.drop 8).take 16)
  num := hexadecimalNumber (ds.drop 24)

/-- The fields of a packed value, sixteen bits of realm above thirty-two of num. -/
def packedFields
    (v : Nat) :
    Fields where
  shard := v / 2 ^ 48
  realm := v / 2 ^ 32 % 2 ^ 16
  num := v % 2 ^ 32

/-- What a text spells: fields of any size, or a packed value that is too large. -/
inductive Spells
    (flavor : Flavor)
    (systemShard : UInt16) :
    List Char → Except Rejection Fields → Prop
  | short
      {realm num : List Char}
      (hrealm : DecimalNumeral 5 realm)
      (hnum : DecimalNumeral 10 num) :
      Spells flavor systemShard
        (qualified [realm] num)
        (.ok ⟨systemShard.toNat, decimalNumber realm, decimalNumber num⟩)
  | full
      {shard realm num : List Char}
      (hshard : DecimalNumeral 5 shard)
      (hrealm : DecimalNumeral 5 realm)
      (hnum : DecimalNumeral 10 num) :
      Spells flavor systemShard
        (qualified [shard, realm] num)
        (.ok ⟨decimalNumber shard, decimalNumber realm, decimalNumber num⟩)
  | packed
      {ds : List Char}
      (hds : DecimalNumeral 19 ds)
      (hfits : decimalNumber ds ≤ 2 ^ 63 - 1) :
      Spells flavor systemShard ds (.ok (packedFields (decimalNumber ds)))
  | packedTooLarge
      {ds : List Char}
      (hds : DecimalNumeral 19 ds)
      (hlarge : 2 ^ 63 - 1 < decimalNumber ds) :
      Spells flavor systemShard ds (.error .outOfRange)
  | address
      {front ds : List Char}
      (hfront : AddressFront flavor front)
      (hds : HexadecimalNumeral 40 ds) :
      Spells flavor systemShard (front ++ ds) (.ok (addressFields ds))

/-- The outcome that the reference gives to a text. -/
inductive Denotes
    (flavor : Flavor)
    (systemShard : UInt16)
    (cs : List Char) :
    Except Rejection EntityId → Prop
  | present
      (place : Place)
      (h : Spells flavor systemShard cs (.ok place.fields)) :
      Denotes flavor systemShard cs (.ok (.present place))
  | fieldTooLarge
      {f : Fields}
      (h : Spells flavor systemShard cs (.ok f))
      (hlarge : ¬ (f.shard ≤ 32767 ∧ f.realm ≤ 65535 ∧ f.num ≤ 4294967295)) :
      Denotes flavor systemShard cs (.error .outOfRange)
  | packedTooLarge
      (h : Spells flavor systemShard cs (.error .outOfRange)) :
      Denotes flavor systemShard cs (.error .outOfRange)
  | unspelled
      (h : ∀ outcome, ¬ Spells flavor systemShard cs outcome) :
      Denotes flavor systemShard cs (.error .malformed)

namespace Fields

theorem word_of_numeral
    {atMost : Nat}
    {ds : List Char}
    (h : DecimalNumeral atMost ds)
    (hmost : atMost ≤ 19) :
    word ds = .ok (decimalNumber ds) := by
  rw [word, Decimal.readWord?_of_numeral h hmost]

theorem ofDotted_short
    {realm num : List Char}
    (systemShard : UInt16)
    (hrealm : DecimalNumeral 5 realm)
    (hnum : DecimalNumeral 10 num) :
    ofDotted systemShard (qualified [realm] num) =
      .ok ⟨systemShard.toNat, decimalNumber realm, decimalNumber num⟩ := by
  have hpieces : pieces '.' (qualified [realm] num) = [realm] ++ [num] :=
    pieces_of_numerals (by simpa using hrealm) hnum.dot_not_mem
  rw [ofDotted, hpieces]
  simp [word_of_numeral hrealm, word_of_numeral hnum, bind, Except.bind, pure,
    Except.pure]

theorem ofDotted_full
    {shard realm num : List Char}
    (systemShard : UInt16)
    (hshard : DecimalNumeral 5 shard)
    (hrealm : DecimalNumeral 5 realm)
    (hnum : DecimalNumeral 10 num) :
    ofDotted systemShard (qualified [shard, realm] num) =
      .ok ⟨decimalNumber shard, decimalNumber realm, decimalNumber num⟩ := by
  have hpieces :
      pieces '.' (qualified [shard, realm] num) = [shard, realm] ++ [num] :=
    pieces_of_numerals (by simpa using ⟨hshard, hrealm⟩) hnum.dot_not_mem
  rw [ofDotted, hpieces]
  simp [word_of_numeral hshard, word_of_numeral hrealm, word_of_numeral hnum, bind,
    Except.bind, pure, Except.pure]

/-- Unpacking by shifts and masks is division by powers of two. -/
theorem unpack_eq
    (v : Nat) :
    unpack v =
      if 2 ^ 63 - 1 < v then
        .error .outOfRange
      else
        .ok (packedFields v) := by
  have hshard : (v >>> numBits) >>> realmBits = v / 2 ^ 48 := by
    rw [← Nat.shiftRight_add]
    exact Nat.shiftRight_eq_div_pow v 48
  have hrealm : (v >>> numBits) &&& maxRealm = v / 2 ^ 32 % 2 ^ 16 := by
    rw [Nat.shiftRight_eq_div_pow v numBits]
    exact Nat.and_two_pow_sub_one_eq_mod (v / 2 ^ 32) 16
  have hnum : v &&& maxNum = v % 2 ^ 32 :=
    Nat.and_two_pow_sub_one_eq_mod v 32
  have hmax : maxPacked = 2 ^ 63 - 1 := by decide
  rw [unpack, hmax, hshard, hrealm, hnum]
  rfl

theorem ofPacked_of_numeral
    {ds : List Char}
    (h : DecimalNumeral 19 ds) :
    ofPacked ds = unpack (decimalNumber ds) := by
  rw [ofPacked, word_of_numeral h (le_refl 19)]
  rfl

theorem hexField_of_numeral
    (start width : Nat)
    {ds : List Char}
    (h : HexadecimalNumeral 40 ds)
    (hstop : start + width ≤ 40)
    (hpos : 0 < width)
    (hwidth : width ≤ 16) :
    hexField ds start (start + width) =
      .ok (hexadecimalNumber ((ds.drop start).take width)) := by
  have hlength : ¬ ds.length < start + width := by
    rw [h.1]
    omega
  have hfield : HexadecimalNumeral width ((ds.drop start).take width) := by
    constructor
    · rw [List.length_take, List.length_drop, h.1]
      omega
    · intro d hd
      exact h.2 d (List.mem_of_mem_drop (List.mem_of_mem_take hd))
  rw [hexField, if_neg hlength, Nat.add_sub_cancel_left,
    Hexadecimal.readWord?_of_numeral hfield hpos hwidth]

/-- An address is cut into its fields whatever stands before its digits. -/
theorem ofAddress_of_digits
    {cs ds : List Char}
    (hds : HexadecimalNumeral 40 ds)
    (hlast : Shape.withoutMark (lastPiece '.' cs) = ds) :
    ofAddress cs = .ok (addressFields ds) := by
  have hshard : hexField ds 0 8 = .ok (hexadecimalNumber (ds.take 8)) :=
    hexField_of_numeral 0 8 hds (by decide) (by decide) (by decide)
  have hrealm :
      hexField ds 8 24 = .ok (hexadecimalNumber ((ds.drop 8).take 16)) :=
    hexField_of_numeral 8 16 hds (by decide) (by decide) (by decide)
  have hnum : hexField ds 24 40 = .ok (hexadecimalNumber ((ds.drop 24).take 16)) :=
    hexField_of_numeral 24 16 hds (by decide) (by decide) (by decide)
  have htake : (ds.drop 24).take 16 = ds.drop 24 :=
    List.take_of_length_le (by simp [hds.1])
  rw [htake] at hnum
  simp only [ofAddress, hlast, hshard, hrealm, hnum, bind, Except.bind, addressFields]

theorem inRange_iff
    (f : Fields) :
    f.InRange ↔ f.shard ≤ 32767 ∧ f.realm ≤ 65535 ∧ f.num ≤ 4294967295 :=
  Iff.rfl

end Fields

section Extraction

variable {flavor : Flavor}
variable {systemShard : UInt16}
variable {cs : List Char}

theorem extractFields_of_isDotted
    (h : Shape.isDotted cs = true) :
    extractFields cs flavor systemShard = Fields.ofDotted systemShard cs := by
  rw [extractFields, if_pos h]

theorem extractFields_of_isPacked
    (h : Shape.isPacked cs = true) :
    extractFields cs flavor systemShard = Fields.ofPacked cs := by
  have hdotted := Shape.isDotted_eq_false_of_isPacked h
  simp [extractFields, hdotted, h]

theorem extractFields_of_isAddress
    (h : Shape.isAddress flavor cs = true) :
    extractFields cs flavor systemShard = Fields.ofAddress cs := by
  obtain ⟨hdotted, hpacked⟩ :=
    Shape.isDotted_isPacked_eq_false_of_length (Shape.le_length_of_isAddress h)
  simp [extractFields, hdotted, hpacked, h]

theorem extractFields_of_no_shape
    (hdotted : ¬ Shape.isDotted cs = true)
    (hpacked : ¬ Shape.isPacked cs = true)
    (haddress : ¬ Shape.isAddress flavor cs = true) :
    extractFields cs flavor systemShard = .error .malformed := by
  rw [extractFields, if_neg hdotted, if_neg hpacked, if_neg haddress]

/-- The extraction for the shape of a text yields what the text spells. -/
theorem Spells.extractFields_eq
    {outcome : Except Rejection Fields}
    (h : Spells flavor systemShard cs outcome) :
    extractFields cs flavor systemShard = outcome := by
  cases h with
  | short hrealm hnum =>
      have hshape : Shape.isDotted (qualified [_] _) = true :=
        Shape.isDotted_iff.2 (Or.inl ⟨_, _, hrealm, hnum, rfl⟩)
      rw [extractFields_of_isDotted hshape]
      exact Fields.ofDotted_short systemShard hrealm hnum
  | full hshard hrealm hnum =>
      have hshape : Shape.isDotted (qualified [_, _] _) = true :=
        Shape.isDotted_iff.2 (Or.inr ⟨_, _, _, hshard, hrealm, hnum, rfl⟩)
      rw [extractFields_of_isDotted hshape]
      exact Fields.ofDotted_full systemShard hshard hrealm hnum
  | packed hds hfits =>
      rw [extractFields_of_isPacked (Shape.isPacked_iff.2 hds),
        Fields.ofPacked_of_numeral hds, Fields.unpack_eq, if_neg (not_lt.2 hfits)]
  | packedTooLarge hds hlarge =>
      rw [extractFields_of_isPacked (Shape.isPacked_iff.2 hds),
        Fields.ofPacked_of_numeral hds, Fields.unpack_eq, if_pos hlarge]
  | address hfront hds =>
      rw [extractFields_of_isAddress (Shape.isAddress_iff.2 ⟨_, _, hfront, hds, rfl⟩)]
      exact Fields.ofAddress_of_digits hds (Shape.withoutMark_lastPiece hfront hds)

theorem exists_spells_of_isDotted
    (h : Shape.isDotted cs = true) :
    ∃ outcome, Spells flavor systemShard cs outcome := by
  rcases Shape.isDotted_iff.1 h with
    ⟨realm, num, hrealm, hnum, rfl⟩ | ⟨shard, realm, num, hshard, hrealm, hnum, rfl⟩
  · exact ⟨_, .short hrealm hnum⟩
  · exact ⟨_, .full hshard hrealm hnum⟩

theorem exists_spells_of_isPacked
    (h : Shape.isPacked cs = true) :
    ∃ outcome, Spells flavor systemShard cs outcome := by
  have hds := Shape.isPacked_iff.1 h
  rcases le_or_gt (decimalNumber cs) (2 ^ 63 - 1) with hfits | hlarge
  · exact ⟨_, .packed hds hfits⟩
  · exact ⟨_, .packedTooLarge hds hlarge⟩

theorem exists_spells_of_isAddress
    (h : Shape.isAddress flavor cs = true) :
    ∃ outcome, Spells flavor systemShard cs outcome := by
  obtain ⟨front, ds, hfront, hds, rfl⟩ := Shape.isAddress_iff.1 h
  exact ⟨_, .address hfront hds⟩

/-- A text that spells nothing has no accepted shape. -/
theorem extractFields_of_unspelled
    (h : ∀ outcome, ¬ Spells flavor systemShard cs outcome) :
    extractFields cs flavor systemShard = .error .malformed := by
  have hnone : ¬ ∃ outcome, Spells flavor systemShard cs outcome :=
    not_exists.2 h
  apply extractFields_of_no_shape
  · exact fun hdotted => hnone (exists_spells_of_isDotted hdotted)
  · exact fun hpacked => hnone (exists_spells_of_isPacked hpacked)
  · exact fun haddress => hnone (exists_spells_of_isAddress haddress)

/-- What an extraction yields is spelled by the text, unless the text is malformed. -/
theorem spells_of_extractFields_eq
    {outcome : Except Rejection Fields}
    (h : extractFields cs flavor systemShard = outcome)
    (hne : outcome ≠ .error .malformed) :
    Spells flavor systemShard cs outcome := by
  by_cases hspelled : ∃ outcome', Spells flavor systemShard cs outcome'
  · obtain ⟨outcome', houtcome'⟩ := hspelled
    rw [houtcome'.extractFields_eq] at h
    rwa [h] at houtcome'
  · rw [extractFields_of_unspelled (not_exists.1 hspelled)] at h
    exact absurd h.symm hne

end Extraction

section Decoding

variable {raw : String}
variable {flavor : Flavor}
variable {systemShard : UInt16}

theorem decode_of_extractFields
    {place : Place}
    (h : extractFields raw.toList flavor systemShard = .ok place.fields) :
    decode raw flavor systemShard = .ok (.present place) := by
  simp [decode, h, bind, Except.bind]

theorem decode_of_not_inRange
    {f : Fields}
    (h : extractFields raw.toList flavor systemShard = .ok f)
    (hlarge : ¬ f.InRange) :
    decode raw flavor systemShard = .error .outOfRange := by
  simp [decode, h, Place.ofFields?, hlarge, bind, Except.bind]

theorem decode_of_extractFields_error
    {rejection : Rejection}
    (h : extractFields raw.toList flavor systemShard = .error rejection) :
    decode raw flavor systemShard = .error rejection := by
  simp [decode, h, bind, Except.bind]

/-- Two readings that extract the same have the same outcome. -/
theorem decode_eq_of_extractFields_eq
    {raw' : String}
    {flavor' : Flavor}
    {systemShard' : UInt16}
    (h :
      extractFields raw.toList flavor systemShard =
        extractFields raw'.toList flavor' systemShard') :
    decode raw flavor systemShard = decode raw' flavor' systemShard' := by
  rw [decode, decode, h]

/-- A text denotes the place whose fields are extracted from it. -/
theorem decode_eq_ok_iff
    {id : EntityId} :
    decode raw flavor systemShard = .ok id ↔
      ∃ place : Place, id = .present place ∧
        extractFields raw.toList flavor systemShard = .ok place.fields := by
  constructor
  · intro h
    cases hfields : extractFields raw.toList flavor systemShard with
    | error rejection =>
        rw [decode_of_extractFields_error hfields] at h
        cases h
    | ok f =>
        by_cases hrange : f.InRange
        · rw [← Place.fields_ofFields f hrange] at hfields ⊢
          rw [decode_of_extractFields hfields] at h
          exact ⟨_, (Except.ok.inj h).symm, rfl⟩
        · rw [decode_of_not_inRange hfields hrange] at h
          cases h
  · rintro ⟨place, rfl, hfields⟩
    exact decode_of_extractFields hfields

/-- A text is refused as its extraction is, or because a field is too large. -/
theorem decode_eq_error_iff
    {rejection : Rejection} :
    decode raw flavor systemShard = .error rejection ↔
      extractFields raw.toList flavor systemShard = .error rejection
        ∨
      (rejection = .outOfRange ∧
        ∃ f, extractFields raw.toList flavor systemShard = .ok f ∧ ¬ f.InRange) := by
  constructor
  · intro h
    cases hfields : extractFields raw.toList flavor systemShard with
    | error rejection' =>
        rw [decode_of_extractFields_error hfields] at h
        left
        rw [Except.error.inj h]
    | ok f =>
        right
        by_cases hrange : f.InRange
        · rw [← Place.fields_ofFields f hrange] at hfields
          rw [decode_of_extractFields hfields] at h
          cases h
        · rw [decode_of_not_inRange hfields hrange] at h
          exact ⟨(Except.error.inj h).symm, f, rfl, hrange⟩
  · rintro (hfields | ⟨rfl, f, hfields, hrange⟩)
    · exact decode_of_extractFields_error hfields
    · exact decode_of_not_inRange hfields hrange

theorem Denotes.decode_eq
    {result : Except Rejection EntityId}
    (h : Denotes flavor systemShard raw.toList result) :
    decode raw flavor systemShard = result := by
  cases h with
  | present place h =>
      exact decode_of_extractFields h.extractFields_eq
  | @fieldTooLarge f h hlarge =>
      rw [← f.inRange_iff] at hlarge
      exact decode_of_not_inRange h.extractFields_eq hlarge
  | packedTooLarge h =>
      exact decode_of_extractFields_error h.extractFields_eq
  | unspelled h =>
      exact decode_of_extractFields_error (extractFields_of_unspelled h)

theorem exists_denotes
    (flavor : Flavor)
    (systemShard : UInt16)
    (cs : List Char) :
    ∃ result, Denotes flavor systemShard cs result := by
  by_cases hspelled : ∃ outcome, Spells flavor systemShard cs outcome
  · obtain ⟨outcome, houtcome⟩ := hspelled
    cases outcome with
    | error rejection =>
        have hrejection : rejection = .outOfRange := by
          cases houtcome
          rfl
        subst hrejection
        exact ⟨_, .packedTooLarge houtcome⟩
    | ok f =>
        by_cases hrange : f.InRange
        · rw [← Place.fields_ofFields f hrange] at houtcome
          exact ⟨_, .present _ houtcome⟩
        · rw [f.inRange_iff] at hrange
          exact ⟨_, .fieldTooLarge houtcome hrange⟩
  · exact ⟨_, .unspelled (not_exists.1 hspelled)⟩

/-- Decoding computes the reference on every text, whatever the outcome. -/
theorem decode_eq_iff_denotes
    (raw : String)
    (flavor : Flavor)
    (systemShard : UInt16)
    (result : Except Rejection EntityId) :
    decode raw flavor systemShard = result ↔
      Denotes flavor systemShard raw.toList result := by
  constructor
  · rintro rfl
    obtain ⟨result, hresult⟩ := exists_denotes flavor systemShard raw.toList
    rw [hresult.decode_eq]
    exact hresult
  · exact Denotes.decode_eq

end Decoding
end LedgerEntity
