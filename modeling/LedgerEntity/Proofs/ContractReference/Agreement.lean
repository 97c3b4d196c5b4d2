import LedgerEntity.ContractReference
import LedgerEntity.Proofs.Decode.AddressSplit
import LedgerEntity.Proofs.Lists.FirstFailure

/-!
# Contract references and the decoder agree

A reference cuts its value at the dots and reads the last piece as an address or
a word; the decoder tests the whole value for its shape first.  Both agree on
every value that has an accepted shape.

The last piece of an address is its forty digits with or without the mark, and
the same digits decide in both readings whether it stands for a place or for
itself.  The pieces of a dotted ID are words with the same values.
-/

namespace LedgerEntity

/-- What forty digits point at: the num of their fields, or an address of these digits. -/
inductive ContractTarget.OfDigits
    (ds : List Char) :
    ContractTarget → Prop
  | inRange
      (hrange : (addressFields ds).InRange) :
      OfDigits ds (.num (addressFields ds).num)
  | outOfRange
      {address : Address}
      (hrange : ¬ (addressFields ds).InRange)
      (hdigits : address.digits = ds.map Char.toLower) :
      OfDigits ds (.create2 address)

section Numerals

theorem Fields.mapM_word_of_numerals
    {atMost : Nat}
    {qualifiers : List (List Char)}
    (hmost : atMost ≤ 19)
    (h : ∀ q ∈ qualifiers, DecimalNumeral atMost q) :
    qualifiers.mapM word = .ok (qualifiers.map decimalNumber) := by
  rw [mapM_eq_ok_iff, List.forall₂_map_right_iff, List.forall₂_same]
  intro q hq
  exact word_of_numeral (h q hq) hmost

end Numerals

namespace ContractTarget

variable {front ds cs : List Char}
variable {target : ContractTarget}

/-- Forty digits after an optional mark are a target that the digits decide. -/
theorem exists_ofPiece_eq
    (hfront : AddressFront .noShardRealm front)
    (hds : HexadecimalNumeral 40 ds) :
    ∃ target, ofPiece (front ++ ds) = .ok target ∧ OfDigits ds target := by
  have hshape : Shape.isAddress .noShardRealm (front ++ ds) = true :=
    Shape.isAddress_iff.2 ⟨front, ds, hfront, hds, rfl⟩
  have hfields : Fields.ofAddress (front ++ ds) = .ok (addressFields ds) :=
    Fields.ofAddress_of_digits hds (Shape.withoutMark_lastPiece hfront hds)
  obtain ⟨address, haddress, hdigits⟩ := Address.exists_ofDigits?_eq hds
  have hmark : Shape.withoutMark (front ++ ds) = ds := by
    cases hfront with
    | none => exact hds.withoutMark
    | mark => rfl
    | qualifiers hflavor => exact absurd rfl hflavor
  rw [ofPiece, if_pos hshape, ofAddress, hfields, hmark, haddress]
  by_cases hrange : (addressFields ds).InRange
  · exact ⟨_, if_pos hrange, .inRange hrange⟩
  · exact ⟨_, if_neg hrange, .outOfRange hrange hdigits⟩

theorem ofPiece_of_not_isAddress
    (h : ¬ Shape.isAddress .noShardRealm cs = true) :
    ofPiece cs = (Fields.word cs).map num := by
  rw [ofPiece, if_neg h]
  cases Fields.word cs <;> rfl

/-- A target is read from forty digits or from a word. -/
theorem ofPiece_eq_ok_cases
    (h : ofPiece cs = .ok target) :
    (∃ front ds, AddressFront .noShardRealm front ∧ HexadecimalNumeral 40 ds ∧
      cs = front ++ ds ∧ OfDigits ds target)
      ∨
    (¬ Shape.isAddress .noShardRealm cs = true ∧ ∃ n, target = num n) := by
  by_cases hshape : Shape.isAddress .noShardRealm cs = true
  · left
    obtain ⟨front, ds, hfront, hds, rfl⟩ := Shape.isAddress_iff.1 hshape
    obtain ⟨target', htarget', hdigits⟩ := exists_ofPiece_eq hfront hds
    obtain rfl := Except.ok.inj (h.symm.trans htarget')
    exact ⟨front, ds, hfront, hds, rfl, hdigits⟩
  · right
    rw [ofPiece_of_not_isAddress hshape] at h
    cases hword : Fields.word cs with
    | error rejection =>
        rw [hword] at h
        cases h
    | ok n =>
        rw [hword] at h
        exact ⟨hshape, n, (Except.ok.inj h).symm⟩

theorem OfDigits.exists_create2_iff
    (h : OfDigits ds target) :
    (∃ address, target = create2 address) ↔ ¬ (addressFields ds).InRange := by
  cases h with
  | inRange hrange => simp [hrange]
  | outOfRange hrange => simp [hrange]

theorem OfDigits.digits_eq
    {address : Address}
    (h : OfDigits ds (create2 address)) :
    address.digits = ds.map Char.toLower := by
  cases h with
  | outOfRange _ hdigits => exact hdigits

end ContractTarget

namespace ContractReference

variable {value : String}
variable {r : ContractReference}

/-- A reference is read word by word, the realm right before the target. -/
theorem ofPieces_append
    {qualifiers : List (List Char)}
    {last : List Char}
    (hlength : qualifiers.length ≤ 2) :
    ofPieces (qualifiers ++ [last]) =
      (do
        let words ← qualifiers.mapM Fields.word
        let target ← ContractTarget.ofPiece last
        return ⟨words.reverse[1]?, words.reverse[0]?, target⟩) := by
  match qualifiers, hlength with
  | [], _ => rfl
  | [realm], _ =>
      simp only [List.singleton_append, ofPieces, List.mapM_cons, List.mapM_nil]
      cases Fields.word realm <;> rfl
  | [shard, realm], _ =>
      simp only [List.cons_append, List.nil_append, ofPieces, List.mapM_cons, List.mapM_nil]
      cases Fields.word shard with
      | error rejection => rfl
      | ok s => cases Fields.word realm <;> rfl

theorem ofPieces_of_length_gt
    {parts : List (List Char)}
    (h : 3 < parts.length) :
    ofPieces parts = .error .malformed := by
  match parts, h with
  | _ :: _ :: _ :: _ :: _, _ => rfl

/-- A reference is read from at most two words and then a target. -/
theorem ofPieces_eq_ok_iff
    {parts : List (List Char)} :
    ofPieces parts = .ok r ↔
      ∃ qualifiers last words,
        parts = qualifiers ++ [last] ∧
        qualifiers.length ≤ 2 ∧
        qualifiers.mapM Fields.word = .ok words ∧
        ContractTarget.ofPiece last = .ok r.target ∧
        r.shard = words.reverse[1]? ∧
        r.realm = words.reverse[0]? := by
  constructor
  · intro h
    rcases List.eq_nil_or_concat parts with rfl | ⟨qualifiers, last, rfl⟩
    · cases h
    · rw [List.concat_eq_append] at h ⊢
      have hlength : qualifiers.length ≤ 2 := by
        by_contra hlong
        rw [ofPieces_of_length_gt (by simp; omega)] at h
        cases h
      rw [ofPieces_append hlength] at h
      cases hwords : qualifiers.mapM Fields.word with
      | error rejection =>
          rw [hwords] at h
          cases h
      | ok words =>
          cases htarget : ContractTarget.ofPiece last with
          | error rejection =>
              rw [hwords, htarget] at h
              cases h
          | ok target =>
              rw [hwords, htarget] at h
              obtain rfl := Except.ok.inj h
              exact ⟨qualifiers, last, words, rfl, hlength, hwords, htarget, rfl, rfl⟩
  · rintro ⟨qualifiers, last, words, rfl, hlength, hwords, htarget, hshard, hrealm⟩
    rw [ofPieces_append hlength, hwords, htarget]
    change Except.ok _ = Except.ok r
    rw [← hshard, ← hrealm]

theorem ofText_eq_ok_iff :
    ofText value = .ok r ↔ ofPieces (pieces '.' value.toList) = .ok r := by
  rw [ofText]
  cases ofPieces (pieces '.' value.toList) <;> simp

/-- Numerals in front of a target are read as words. -/
theorem ofText_of_numerals
    {atMost : Nat}
    (hmost : atMost ≤ 19)
    {qualifiers : List (List Char)}
    {last : List Char}
    {target : ContractTarget}
    (hpieces : pieces '.' value.toList = qualifiers ++ [last])
    (hlength : qualifiers.length ≤ 2)
    (hqualifiers : ∀ q ∈ qualifiers, DecimalNumeral atMost q)
    (htarget : ContractTarget.ofPiece last = .ok target) :
    ofText value =
      .ok
        { shard := (qualifiers.map decimalNumber).reverse[1]?
          realm := (qualifiers.map decimalNumber).reverse[0]?
          target := target } := by
  rw [ofText_eq_ok_iff, ofPieces_eq_ok_iff]
  exact
    ⟨qualifiers, last, _, hpieces, hlength, Fields.mapM_word_of_numerals hmost hqualifiers,
      htarget, rfl, rfl⟩

section LastPiece

theorem isAddress_any_of_dot_not_mem
    {cs : List Char}
    (hdot : '.' ∉ cs)
    (h : Shape.isAddress .any cs = true) :
    Shape.isAddress .noShardRealm cs = true := by
  obtain ⟨front, ds, hfront, hds, rfl⟩ := Shape.isAddress_iff.1 h
  apply Shape.isAddress_iff.2
  cases hfront with
  | none => exact ⟨[], ds, .none, hds, rfl⟩
  | mark => exact ⟨['0', 'x'], ds, .mark (by decide), hds, rfl⟩
  | @qualifiers qualifiers =>
      cases qualifiers with
      | nil => exact ⟨[], ds, .none, hds, rfl⟩
      | cons q qualifiers => exact absurd hdot (by simp [qualified])

/-- The last piece of a reference decides whether the target is an address. -/
theorem create2_iff_of_ofText_eq_ok
    (h : ofText value = .ok r) :
    ((∃ address, r.target = .create2 address) ↔
      isCreate2Text (String.ofList (lastPiece '.' value.toList)) = true) ∧
    ∀ address, r.target = .create2 address →
      address.digits = (finalForty value).map Char.toLower := by
  rw [ofText_eq_ok_iff, ofPieces_eq_ok_iff] at h
  obtain ⟨qualifiers, last, words, hpieces, -, -, htarget, -, -⟩ := h
  have hlast : lastPiece '.' value.toList = last := by
    rw [lastPiece, hpieces]
    simp
  have hdot : '.' ∉ last :=
    not_mem_of_mem_pieces (by rw [hpieces]; simp)
  have hvalue := eq_qualified_of_pieces_eq hpieces
  rw [hlast]
  rcases ContractTarget.ofPiece_eq_ok_cases htarget with
    ⟨front, ds, hfront, hds, rfl, hdigits⟩ | ⟨hshape, n, hnum⟩
  · have hfinal : finalForty value = ds := by
      rw [qualified_append] at hvalue
      exact finalForty_eq hvalue hds.1
    constructor
    · rw [hdigits.exists_create2_iff, hfront.isCreate2Text_eq hds String.toList_ofList]
      simp
    · intro address haddress
      rw [haddress] at hdigits
      rw [hfinal, hdigits.digits_eq]
  · -- A word has no dot, so it could only be an address without qualifiers.
    have hnone : isAddressText (String.ofList last) .any = false := by
      rw [isAddressText, String.toList_ofList, Bool.eq_false_iff]
      exact fun hany => hshape (isAddress_any_of_dot_not_mem hdot hany)
    rw [hnum, isCreate2Text, hnone]
    simp

end LastPiece

section Addresses

variable {front ds : List Char}

/-- The last piece of an address is its digits after an optional mark. -/
theorem exists_pieces_of_front
    (hfront : AddressFront .any front)
    (hds : HexadecimalNumeral 40 ds) :
    ∃ qualifiers mark,
      pieces '.' (front ++ ds) = qualifiers ++ [mark ++ ds] ∧
      qualifiers.length ≤ 2 ∧
      (∀ q ∈ qualifiers, DecimalNumeral 10 q) ∧
      AddressFront .noShardRealm mark := by
  have hdot := hds.dot_not_mem
  cases hfront with
  | none => exact ⟨[], [], pieces_of_not_mem hdot, by simp, by simp, .none⟩
  | mark =>
      have hmarked : '.' ∉ ['0', 'x'] ++ ds := by simpa using hdot
      exact
        ⟨[], ['0', 'x'], pieces_of_not_mem hmarked, by simp, by simp, .mark (by decide)⟩
  | @qualifiers qualifiers hflavor hlength hqualifiers =>
      refine ⟨qualifiers, [], ?_, hlength, hqualifiers, .none⟩
      rw [← qualified_append]
      exact pieces_of_numerals hqualifiers hdot

/-- An address is a reference to what its digits point at. -/
theorem exists_ofText_eq_of_isAddressText
    (h : isAddressText value .any = true) :
    ∃ r, ofText value = .ok r ∧ ContractTarget.OfDigits (finalForty value) r.target := by
  obtain ⟨front, hfront, hds, hvalue⟩ := exists_front_of_isAddressText h
  obtain ⟨qualifiers, mark, hpieces, hlength, hqualifiers, hmark⟩ :=
    exists_pieces_of_front hfront hds
  obtain ⟨target, htarget, hdigits⟩ := ContractTarget.exists_ofPiece_eq hmark hds
  rw [← hvalue] at hpieces
  exact ⟨_, ofText_of_numerals (by decide) hpieces hlength hqualifiers htarget, hdigits⟩

/--
The decoder refuses an address that stands for itself, and else gives the num pointed
at.
-/
theorem decode_of_ofDigits
    (h : isAddressText value .any = true)
    {target : ContractTarget}
    (htarget : ContractTarget.OfDigits (finalForty value) target) :
    ((∃ address, target = .create2 address) ↔ isCreate2Text value = true) ∧
    ∀ systemShard,
      (isCreate2Text value = true ↔ decode value .any systemShard = .error .outOfRange) ∧
      (isCreate2Text value = false →
        ∃ id num, decode value .any systemShard = .ok id ∧ id.num? = some num ∧
          target = .num num.toNat) := by
  obtain ⟨front, hfront, hds, hvalue⟩ := exists_front_of_isAddressText h
  have hcreate := hfront.isCreate2Text_eq hds hvalue
  have hfields := hfront.extractFields_eq hds hvalue
  refine ⟨by simp [htarget.exists_create2_iff, hcreate], ?_⟩
  intro systemShard
  cases htarget with
  | inRange hrange =>
      have hplace := Place.fields_ofFields _ hrange
      have hdecode :
          decode value .any systemShard = .ok (.present (Place.ofFields _ hrange)) :=
        hfront.decode_of_fields hds hvalue hplace.symm systemShard
      refine ⟨by simp [hcreate, hrange, hdecode], fun _ => ?_⟩
      have hnum := congrArg (fun f : Fields => ContractTarget.num f.num) hplace
      exact ⟨_, _, hdecode, rfl, hnum.symm⟩
  | outOfRange hrange =>
      have hdecode := decode_of_not_inRange (hfields systemShard) hrange
      exact ⟨by simp [hcreate, hrange, hdecode], by simp [hcreate, hrange]⟩

end Addresses

section Dotted

/-- A numeral of ten digits is too short for an address. -/
theorem ofPiece_of_numeral
    {num : List Char}
    (h : DecimalNumeral 10 num) :
    ContractTarget.ofPiece num = .ok (.num (decimalNumber num)) := by
  have hshape : ¬ Shape.isAddress .noShardRealm num = true := by
    intro haddress
    have hlong := Shape.le_length_of_isAddress haddress
    have hshort := h.2.1
    omega
  rw [ContractTarget.ofPiece_of_not_isAddress hshape, Fields.word_of_numeral h (by decide)]
  rfl

/-- A num behind at most two numerals is a reference to the num. -/
theorem ofText_of_qualified
    {qualifiers : List (List Char)}
    {num : List Char}
    (hlength : qualifiers.length ≤ 2)
    (hqualifiers : ∀ q ∈ qualifiers, DecimalNumeral 5 q)
    (hnum : DecimalNumeral 10 num)
    (hvalue : value.toList = qualified qualifiers num) :
    pieces '.' value.toList = qualifiers ++ [num] ∧
      ofText value =
        .ok
          { shard := (qualifiers.map decimalNumber).reverse[1]?
            realm := (qualifiers.map decimalNumber).reverse[0]?
            target := .num (decimalNumber num) } := by
  have hpieces : pieces '.' value.toList = qualifiers ++ [num] := by
    rw [hvalue]
    exact pieces_of_numerals hqualifiers hnum.dot_not_mem
  exact
    ⟨hpieces,
      ofText_of_numerals (by decide) hpieces hlength hqualifiers (ofPiece_of_numeral hnum)⟩

theorem accessors_of_spells
    {flavor : Flavor}
    {systemShard : UInt16}
    {id : EntityId}
    {f : Fields}
    (hid : decode value flavor systemShard = .ok id)
    (hspelled : Spells flavor systemShard value.toList (.ok f)) :
    id.shard?.map UInt16.toNat = some f.shard ∧
      id.realm?.map UInt16.toNat = some f.realm ∧
      id.num?.map UInt32.toNat = some f.num := by
  obtain ⟨place, rfl, hplace⟩ := decode_eq_ok_iff.1 hid
  rw [hspelled.extractFields_eq] at hplace
  obtain rfl := Except.ok.inj hplace
  exact ⟨rfl, rfl, rfl⟩

/-- A dotted ID is a reference with the realm, the num and, if it is written, the shard. -/
theorem exists_ofText_eq_of_isDotted
    (h : Shape.isDotted value.toList = true) :
    ∃ r num, ofText value = .ok r ∧ r.target = .num num ∧
      ∀ flavor systemShard id, decode value flavor systemShard = .ok id →
        id.num?.map UInt32.toNat = some num ∧
        id.realm?.map UInt16.toNat = r.realm ∧
        r.shard =
          if (pieces '.' value.toList).length = 3 then
            id.shard?.map UInt16.toNat
          else
            none := by
  rcases Shape.isDotted_iff.1 h with
    ⟨realm, num, hrealm, hnum, hvalue⟩ | ⟨shard, realm, num, hshard, hrealm, hnum, hvalue⟩
  · obtain ⟨hpieces, hr⟩ :=
      ofText_of_qualified (by simp) (by simpa using hrealm) hnum hvalue
    refine ⟨_, _, hr, rfl, ?_⟩
    intro flavor systemShard id hid
    obtain ⟨-, hrealm?, hnum?⟩ :=
      accessors_of_spells hid (by rw [hvalue]; exact .short hrealm hnum)
    exact ⟨hnum?, hrealm?, by simp [hpieces]⟩
  · obtain ⟨hpieces, hr⟩ :=
      ofText_of_qualified (by simp) (by simpa using ⟨hshard, hrealm⟩) hnum hvalue
    refine ⟨_, _, hr, rfl, ?_⟩
    intro flavor systemShard id hid
    obtain ⟨hshard?, hrealm?, hnum?⟩ :=
      accessors_of_spells hid (by rw [hvalue]; exact .full hshard hrealm hnum)
    exact ⟨hnum?, hrealm?, by simp [hpieces, hshard?]⟩

end Dotted

/--
References and the decoder agree on what a value denotes.

A reference points at an address exactly if its last piece is an address that
stands for itself, and then the address has the last forty characters of the
value.  Every address is a reference, and it points at the num that the decoder
finds unless the decoder refuses it.  Every dotted ID is a reference with the
realm and the num of the decoder, and with its shard if that is written.
-/
theorem ofText_agrees_with_decode
    (value : String) :
    (∀ r, ofText value = .ok r →
      ((∃ address, r.target = .create2 address) ↔
        isCreate2Text (String.ofList (lastPiece '.' value.toList)) = true) ∧
      ∀ address, r.target = .create2 address →
        address.digits = (finalForty value).map Char.toLower)
      ∧
    (isAddressText value .any = true →
      ∃ r, ofText value = .ok r ∧
        ((∃ address, r.target = .create2 address) ↔ isCreate2Text value = true) ∧
        ∀ systemShard,
          (isCreate2Text value = true ↔
            decode value .any systemShard = .error .outOfRange) ∧
          (isCreate2Text value = false →
            ∃ id num, decode value .any systemShard = .ok id ∧ id.num? = some num ∧
              r.target = .num num.toNat))
      ∧
    (Shape.isDotted value.toList = true →
      ∃ r num, ofText value = .ok r ∧ r.target = .num num ∧
        ∀ flavor systemShard id, decode value flavor systemShard = .ok id →
          id.num?.map UInt32.toNat = some num ∧
          id.realm?.map UInt16.toNat = r.realm ∧
          r.shard =
            if (pieces '.' value.toList).length = 3 then
              id.shard?.map UInt16.toNat
            else
              none) := by
  refine ⟨fun _ h => create2_iff_of_ofText_eq_ok h, ?_, exists_ofText_eq_of_isDotted⟩
  intro haddress
  obtain ⟨r, hr, hdigits⟩ := exists_ofText_eq_of_isAddressText haddress
  exact ⟨r, hr, decode_of_ofDigits haddress hdigits⟩

/-- A create2 address behind a shard and a realm, the address of `0.0.171`, and `1.2.3`. -/
theorem ofText_agrees_with_decode_create2 :
    let far := "0.0.71EAA748D5252BE68C1185588BECA495459FDBA4"
    let near := "0x00000000000000000000000000000000000000ab"
    let dotted := "1.2.3"
    isAddressText far .any = true ∧
    isCreate2Text far = true ∧
    (∃ r address, ofText far = .ok r ∧ r.target = .create2 address ∧
      address.digits = "71eaa748d5252be68c1185588beca495459fdba4".toList) ∧
    decode far .any 5 = .error .outOfRange ∧
    isAddressText near .any = true ∧
    isCreate2Text near = false ∧
    (∃ r id num, ofText near = .ok r ∧ decode near .any 5 = .ok id ∧ id.num? = some num ∧
      r.target = .num num.toNat) ∧
    Shape.isDotted dotted.toList = true ∧
    (∃ r, ofText dotted = .ok r ∧ r.target = .num 3 ∧ r.realm = some 2 ∧
      r.shard = some 1) := by
  have hdecoded : decode "1.2.3" .any 5 = .ok (.present ⟨1, 2, 3, by decide⟩) := by cbv
  intro far near dotted
  have hfar : isAddressText far .any = true := by decide
  have hcreate : isCreate2Text far = true := by decide
  have hnear : isAddressText near .any = true := by decide
  have hplain : isCreate2Text near = false := by decide
  have hdotted : Shape.isDotted dotted.toList = true := by decide
  have hthree : (pieces '.' dotted.toList).length = 3 := by decide
  have hlower :
      (finalForty far).map Char.toLower =
        "71eaa748d5252be68c1185588beca495459fdba4".toList := by
    decide
  obtain ⟨htarget, haddress, -⟩ := ofText_agrees_with_decode far
  obtain ⟨r, hr, hiff, hdecode⟩ := haddress hfar
  obtain ⟨address, hr'⟩ := hiff.2 hcreate
  have hdigits := (htarget r hr).2 address hr'
  obtain ⟨-, hnearAddress, -⟩ := ofText_agrees_with_decode near
  obtain ⟨s, hs, -, hnum⟩ := hnearAddress hnear
  obtain ⟨id, num, hid, hnum?, hs'⟩ := (hnum 5).2 hplain
  obtain ⟨t, n, ht, htarget', hagree⟩ := (ofText_agrees_with_decode dotted).2.2 hdotted
  obtain ⟨hn, hrealm, hshard⟩ := hagree .any 5 _ hdecoded
  obtain rfl : 3 = n := Option.some.inj hn
  rw [if_pos hthree] at hshard
  exact
    ⟨hfar, hcreate, ⟨r, address, hr, hr', hdigits.trans hlower⟩, (hdecode 5).1.1 hcreate,
      hnear, hplain, ⟨s, id, num, hs, hid, hnum?, hs'⟩, hdotted,
      ⟨t, ht, htarget', hrealm.symm, hshard⟩⟩

end ContractReference
end LedgerEntity
