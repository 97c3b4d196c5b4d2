import LedgerEntity.Proofs.EntityId.AddressDigits

/-!
# Addresses of IDs and other addresses

An address is forty digits behind a front: nothing, the mark `0x`, or up to two
numerals with a dot after each.  The flavor decides about the front, and the
digits alone decide what the address denotes.

Digits whose fields are within range are the digits of one place, and the
address denotes that place.  All other addresses stand for themselves and are
refused as out of range.
-/

namespace LedgerEntity

/-- The last forty characters of a text. -/
def finalForty
    (raw : String) :
    List Char :=
  raw.toList.drop (raw.toList.length - 40)

section Fronts

variable {flavor : Flavor}
variable {front ds : List Char}

/-- What any flavor accepts is accepted where both forms are. -/
theorem AddressFront.toAny
    (h : AddressFront flavor front) :
    AddressFront .any front := by
  cases h with
  | none => exact .none
  | mark => exact .mark (by decide)
  | qualifiers hflavor hlength hqualifiers =>
      exact .qualifiers (by decide) hlength hqualifiers

theorem isAddress_append_iff
    (hlength : ds.length = 40) :
    Shape.isAddress flavor (front ++ ds) = true ↔
      AddressFront flavor front ∧ HexadecimalNumeral 40 ds := by
  constructor
  · intro h
    -- Both ways of cutting the text leave forty characters behind the front.
    obtain ⟨front', ds', hfront, hds, hcs⟩ := Shape.isAddress_iff.1 h
    obtain ⟨rfl, rfl⟩ := List.append_inj' hcs (hlength.trans hds.1.symm)
    exact ⟨hfront, hds⟩
  · rintro ⟨hfront, hds⟩
    exact Shape.isAddress_iff.2 ⟨front, ds, hfront, hds, rfl⟩

theorem finalForty_eq
    {raw : String}
    (hraw : raw.toList = front ++ ds)
    (hlength : ds.length = 40) :
    finalForty raw = ds := by
  rw [finalForty, hraw]
  exact List.drop_left' (by simp [hlength])

/-- The digits of an address are its last forty characters. -/
theorem exists_front_of_isAddressText
    {raw : String}
    (h : isAddressText raw flavor = true) :
    ∃ front, AddressFront flavor front ∧ HexadecimalNumeral 40 (finalForty raw) ∧
      raw.toList = front ++ finalForty raw := by
  obtain ⟨front, ds, hfront, hds, hraw⟩ := Shape.isAddress_iff.1 h
  rw [finalForty_eq hraw hds.1]
  exact ⟨front, hfront, hds, hraw⟩

end Fronts

section Denotation

variable {flavor : Flavor}
variable {raw : String}
variable {front ds : List Char}

theorem AddressFront.extractFields_eq
    (h : AddressFront flavor front)
    (hds : HexadecimalNumeral 40 ds)
    (hraw : raw.toList = front ++ ds)
    (systemShard : UInt16) :
    extractFields raw.toList flavor systemShard = .ok (addressFields ds) := by
  rw [hraw]
  exact (Spells.address h hds).extractFields_eq

/-- Only the digits decide whether an address stands for itself. -/
theorem AddressFront.isCreate2Text_eq
    (h : AddressFront flavor front)
    (hds : HexadecimalNumeral 40 ds)
    (hraw : raw.toList = front ++ ds) :
    isCreate2Text raw = !decide (addressFields ds).InRange := by
  have haddress : Shape.isAddress .any raw.toList = true := by
    rw [hraw]
    exact Shape.isAddress_iff.2 ⟨front, ds, h.toAny, hds, rfl⟩
  have hfields : Fields.ofAddress raw.toList = .ok (addressFields ds) := by
    rw [← extractFields_of_isAddress haddress]
    exact h.toAny.extractFields_eq hds hraw 0
  rw [isCreate2Text, isAddressText, haddress, hfields, Bool.true_and]

theorem AddressFront.decode_of_fields
    {place : Place}
    (h : AddressFront flavor front)
    (hds : HexadecimalNumeral 40 ds)
    (hraw : raw.toList = front ++ ds)
    (hplace : addressFields ds = place.fields)
    (systemShard : UInt16) :
    decode raw flavor systemShard = .ok (.present place) := by
  apply decode_of_extractFields
  rw [h.extractFields_eq hds hraw systemShard, hplace]

/-- The digits of a place denote it behind every front, and stand for no other thing. -/
theorem AddressFront.decode_digits
    (h : AddressFront flavor front)
    (place : Place)
    (systemShard : UInt16) :
    decode (String.ofList (front ++ place.address.digits)) flavor systemShard =
        .ok (.present place) ∧
      isCreate2Text (String.ofList (front ++ place.address.digits)) = false := by
  have hraw :
      (String.ofList (front ++ place.address.digits)).toList =
        front ++ place.address.digits :=
    String.toList_ofList
  constructor
  · exact
      h.decode_of_fields place.hexadecimalNumeral_digits hraw place.addressFields_digits
        systemShard
  · rw [h.isCreate2Text_eq place.hexadecimalNumeral_digits hraw,
      place.addressFields_digits]
    simp [place.inRange_fields]

/-- An address denotes the place whose digits it has, or it is refused. -/
theorem decode_isAddressText_cases
    (h : isAddressText raw .any = true) :
    (isCreate2Text raw = false ∧
      ∀ flavor systemShard, isAddressText raw flavor = true →
        ∃ place : Place, decode raw flavor systemShard = .ok (.present place) ∧
          place.address.digits = (finalForty raw).map Char.toLower)
      ∨
    (isCreate2Text raw = true ∧
      ∀ flavor systemShard, isAddressText raw flavor = true →
        decode raw flavor systemShard = .error .outOfRange) := by
  obtain ⟨front, hfront, hds, hraw⟩ := exists_front_of_isAddressText h
  have hcreate := hfront.isCreate2Text_eq hds hraw
  by_cases hrange : (addressFields (finalForty raw)).InRange
  · left
    refine ⟨by simpa [hrange] using hcreate, ?_⟩
    intro flavor systemShard haddress
    -- Another flavor may see another front, but never other digits.
    obtain ⟨front', hfront', -, hraw'⟩ := exists_front_of_isAddressText haddress
    have hfields := (Place.fields_ofFields _ hrange).symm
    exact
      ⟨_, hfront'.decode_of_fields hds hraw' hfields systemShard,
        Place.digits_eq_map_toLower hds hfields⟩
  · right
    refine ⟨by simpa [hrange] using hcreate, ?_⟩
    intro flavor systemShard haddress
    obtain ⟨front', hfront', -, hraw'⟩ := exists_front_of_isAddressText haddress
    exact
      decode_of_not_inRange (hfront'.extractFields_eq hds hraw' systemShard) hrange

end Denotation

section LetterCase

variable {xs ys : List Char}

theorem length_of_map_toLower_eq
    (hlength : xs.length = 40)
    (h : xs.map Char.toLower = ys.map Char.toLower) :
    ys.length = 40 := by
  rw [← hlength]
  simpa using congrArg List.length h.symm

theorem isAddress_congr
    (flavor : Flavor)
    (front : List Char)
    (hlength : xs.length = 40)
    (h : xs.map Char.toLower = ys.map Char.toLower) :
    Shape.isAddress flavor (front ++ xs) = Shape.isAddress flavor (front ++ ys) := by
  have hlength' : ys.length = 40 := length_of_map_toLower_eq hlength h
  rw [Bool.eq_iff_iff, isAddress_append_iff hlength, isAddress_append_iff hlength',
    hexadecimalNumeral_iff_map_toLower, hexadecimalNumeral_iff_map_toLower, h]

/-- A text of forty characters or more is an address or malformed. -/
theorem extractFields_of_not_isAddress
    {flavor : Flavor}
    {cs : List Char}
    (hlength : 40 ≤ cs.length)
    (h : ¬ Shape.isAddress flavor cs = true)
    (systemShard : UInt16) :
    extractFields cs flavor systemShard = .error .malformed := by
  obtain ⟨hdotted, hpacked⟩ := Shape.isDotted_isPacked_eq_false_of_length hlength
  exact extractFields_of_no_shape (by simp [hdotted]) (by simp [hpacked]) h

theorem extractFields_congr
    (flavor : Flavor)
    (front : List Char)
    (hlength : xs.length = 40)
    (h : xs.map Char.toLower = ys.map Char.toLower)
    (systemShard : UInt16) :
    extractFields (front ++ xs) flavor systemShard =
      extractFields (front ++ ys) flavor systemShard := by
  have haddress := isAddress_congr flavor front hlength h
  have hlength' : ys.length = 40 := length_of_map_toLower_eq hlength h
  by_cases hxs : Shape.isAddress flavor (front ++ xs) = true
  · have hys : Shape.isAddress flavor (front ++ ys) = true := by
      rwa [← haddress]
    obtain ⟨hfront, hnumeral⟩ := (isAddress_append_iff hlength).1 hxs
    obtain ⟨-, hnumeral'⟩ := (isAddress_append_iff hlength').1 hys
    rw [(Spells.address hfront hnumeral).extractFields_eq,
      (Spells.address hfront hnumeral').extractFields_eq, addressFields_congr h]
  · have hys : ¬ Shape.isAddress flavor (front ++ ys) = true := by
      rwa [← haddress]
    rw [extractFields_of_not_isAddress (by simp [hlength]) hxs,
      extractFields_of_not_isAddress (by simp [hlength']) hys]

theorem isCreate2Text_congr
    (front : List Char)
    (hlength : xs.length = 40)
    (h : xs.map Char.toLower = ys.map Char.toLower) :
    isCreate2Text (String.ofList (front ++ xs)) =
      isCreate2Text (String.ofList (front ++ ys)) := by
  have haddress := isAddress_congr .any front hlength h
  have hfields := extractFields_congr .any front hlength h 0
  simp only [isCreate2Text, isAddressText, String.toList_ofList]
  cases hxs : Shape.isAddress .any (front ++ xs) with
  | true =>
      have hys : Shape.isAddress .any (front ++ ys) = true := by
        rw [← haddress, hxs]
      rw [extractFields_of_isAddress hxs, extractFields_of_isAddress hys] at hfields
      rw [hys, hfields]
  | false =>
      rw [← haddress, hxs, Bool.false_and, Bool.false_and]

/-- The letter case of the last forty characters never matters. -/
theorem decode_congr
    (flavor : Flavor)
    (systemShard : UInt16)
    (front : List Char)
    (hlength : xs.length = 40)
    (h : xs.map Char.toLower = ys.map Char.toLower) :
    isAddressText (String.ofList (front ++ xs)) flavor =
        isAddressText (String.ofList (front ++ ys)) flavor ∧
      isCreate2Text (String.ofList (front ++ xs)) =
        isCreate2Text (String.ofList (front ++ ys)) ∧
      decode (String.ofList (front ++ xs)) flavor systemShard =
        decode (String.ofList (front ++ ys)) flavor systemShard := by
  refine ⟨?_, isCreate2Text_congr front hlength h, ?_⟩
  · simp only [isAddressText, String.toList_ofList]
    exact isAddress_congr flavor front hlength h
  · simp only [decode, String.toList_ofList,
      extractFields_congr flavor front hlength h systemShard]

end LetterCase

/--
Addresses split into those of IDs and those that stand for themselves.

The address of an ID decodes to the ID in every spelling.  Every address has
the digits of the ID it decodes to, up to letter case, or it is refused under
all flavors that accept its form.  The letter case of digits never matters.
-/
theorem address_image_or_create2 :
    (∀ id : EntityId, id ≠ .null →
      ∃ address, id.address? = some address ∧
        address.text = String.ofList (['0', 'x'] ++ address.digits) ∧
        address.digits.length = 40 ∧
        (∀ d ∈ address.digits, d ∈ hexadecimalAlphabet) ∧
        ∀ flavor systemShard front, AddressFront flavor front →
          decode (String.ofList (front ++ address.digits)) flavor systemShard = .ok id ∧
          isCreate2Text (String.ofList (front ++ address.digits)) = false)
      ∧
    (∀ raw : String, isAddressText raw .any = true →
      (isCreate2Text raw = false ∧
        ∀ flavor systemShard, isAddressText raw flavor = true →
          ∃ id address, decode raw flavor systemShard = .ok id ∧
            id.address? = some address ∧
            address.text = "0x" ++ String.ofList ((finalForty raw).map Char.toLower))
        ∨
      (isCreate2Text raw = true ∧
        ∀ flavor systemShard, isAddressText raw flavor = true →
          decode raw flavor systemShard = .error .outOfRange))
      ∧
    (∀ flavor systemShard front xs ys, xs.length = 40 →
      xs.map Char.toLower = ys.map Char.toLower →
        isAddressText (String.ofList (front ++ xs)) flavor =
            isAddressText (String.ofList (front ++ ys)) flavor ∧
          isCreate2Text (String.ofList (front ++ xs)) =
            isCreate2Text (String.ofList (front ++ ys)) ∧
          decode (String.ofList (front ++ xs)) flavor systemShard =
            decode (String.ofList (front ++ ys)) flavor systemShard) := by
  refine ⟨?_, ?_, ?_⟩
  · intro id hid
    cases id with
    | null => exact absurd rfl hid
    | present place =>
        refine
          ⟨place.address, rfl, ?_, place.address.length_digits, place.mem_of_mem_digits, ?_⟩
        · rw [String.ofList_append]
          rfl
        · intro flavor systemShard front hfront
          exact hfront.decode_digits place systemShard
  · intro raw hraw
    rcases decode_isAddressText_cases hraw with ⟨hcreate, hdecode⟩ | hcreate
    · left
      refine ⟨hcreate, ?_⟩
      intro flavor systemShard haddress
      obtain ⟨place, hplace, hdigits⟩ := hdecode flavor systemShard haddress
      refine ⟨.present place, place.address, hplace, rfl, ?_⟩
      rw [Address.text, hdigits]
    · right
      exact hcreate
  · intro flavor systemShard front xs ys hlength hcase
    exact decode_congr flavor systemShard front hlength hcase

/-- The address of `1.2.171` behind a qualifier, a create2 address, and two letter cases. -/
theorem address_image_or_create2_letter_case :
    let id : EntityId := .present ⟨1, 2, 171, by decide⟩
    let lower := "00000001000000000000000200000000000000ab".toList
    let upper := "00000001000000000000000200000000000000AB".toList
    let far := "0xff00000000000000000000000000000000000000"
    id ≠ .null ∧
    AddressFront .optionalShardRealm ['9', '.'] ∧
    isAddressText far .any = true ∧
    lower.length = 40 ∧
    lower.map Char.toLower = upper.map Char.toLower ∧
    decode (String.ofList (['9', '.'] ++ lower)) .optionalShardRealm 5 = .ok id ∧
    decode (String.ofList (['9', '.'] ++ upper)) .optionalShardRealm 5 = .ok id ∧
    decode far .noShardRealm 5 = .error .outOfRange := by
  intro id lower upper far
  have hid : id ≠ .null := by simp [id]
  have hnine : ∀ q ∈ [['9']], DecimalNumeral 10 q := by
    rw [List.forall_mem_singleton]
    exact ⟨by decide, by decide, List.forall_mem_singleton.2 (by decide)⟩
  have hfront : AddressFront .optionalShardRealm (qualified [['9']] []) :=
    .qualifiers (by decide) (by decide) hnine
  have hfar : isAddressText far .any = true := by decide
  have hlength : lower.length = 40 := by decide
  have hcase : lower.map Char.toLower = upper.map Char.toLower := by decide
  obtain ⟨himage, hsplit, hletters⟩ := address_image_or_create2
  obtain ⟨address, haddress, -, -, -, hdecode⟩ := himage id hid
  have hdigits : address.digits = lower := by
    obtain rfl := Option.some.inj haddress
    decide
  have hlower :
      decode (String.ofList (['9', '.'] ++ lower)) .optionalShardRealm 5 = .ok id := by
    rw [← hdigits]
    exact (hdecode .optionalShardRealm 5 _ hfront).1
  have hupper :
      decode (String.ofList (['9', '.'] ++ upper)) .optionalShardRealm 5 = .ok id := by
    rw [← (hletters .optionalShardRealm 5 ['9', '.'] lower upper hlength hcase).2.2]
    exact hlower
  refine ⟨hid, hfront, hfar, hlength, hcase, hlower, hupper, ?_⟩
  rcases hsplit far hfar with ⟨hcreate, -⟩ | ⟨-, hrefused⟩
  · exact absurd hcreate (by decide)
  · exact hrefused .noShardRealm 5 (by decide)

end LedgerEntity
