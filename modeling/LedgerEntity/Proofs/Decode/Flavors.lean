import LedgerEntity.Proofs.Decode.AddressSplit
import LedgerEntity.Proofs.Decode.Forms

/-!
# Readings under the three flavors

A flavor decides which texts are refused, and never what a text denotes.

The extraction of a form does not ask for the flavor, and no text has two forms
under whatever flavors.  So two flavors that do not refuse a text as malformed
read it alike.  The wide flavor refuses exactly what both narrow flavors refuse,
which makes it their union.

An address that both narrow flavors accept has a front that is neither the mark
nor qualifiers.  Such an address is bare: its forty digits and nothing else.
-/

namespace LedgerEntity

section Fronts

variable {front : List Char}

/-- Qualifiers hold no letter of the mark. -/
theorem AddressFront.letter_not_mem
    (h : AddressFront .optionalShardRealm front) :
    'x' ∉ front := by
  cases h with
  | none => exact List.not_mem_nil
  | mark hflavor => exact absurd rfl hflavor
  | qualifiers hflavor hlength hqualifiers =>
      exact
        not_mem_qualified (by decide) (fun q hq => (hqualifiers q hq).not_mem (by decide))
          List.not_mem_nil

/-- Only the empty front is accepted by both narrow flavors. -/
theorem AddressFront.eq_nil
    (hbare : AddressFront .noShardRealm front)
    (hqualified : AddressFront .optionalShardRealm front) :
    front = [] := by
  have hletter := hqualified.letter_not_mem
  cases hbare with
  | none => rfl
  | mark => exact absurd (by simp) hletter
  | qualifiers hflavor => exact absurd rfl hflavor

/-- The narrow flavors share the addresses of forty digits with nothing in front. -/
theorem isAddressText_narrow_iff
    {raw : String} :
    (isAddressText raw .noShardRealm = true ∧ isAddressText raw .optionalShardRealm = true) ↔
      HexadecimalNumeral 40 raw.toList := by
  constructor
  · rintro ⟨hbare, hqualified⟩
    obtain ⟨front, hfront, hds, hraw⟩ := exists_front_of_isAddressText hbare
    obtain ⟨front', hfront', -, hraw'⟩ := exists_front_of_isAddressText hqualified
    obtain rfl : front = front' := List.append_cancel_right (hraw.symm.trans hraw')
    rw [hfront.eq_nil hfront', List.nil_append] at hraw
    rwa [hraw]
  · intro hds
    exact
      ⟨Shape.isAddress_iff.2 ⟨[], _, .none, hds, rfl⟩,
        Shape.isAddress_iff.2 ⟨[], _, .none, hds, rfl⟩⟩

end Fronts

section Agreement

variable {flavor flavor' : Flavor}
variable {systemShard : UInt16}

/-- A text that is extracted has a form. -/
theorem Form.exists_admits
    {cs : List Char}
    (h : extractFields cs flavor systemShard ≠ .error .malformed) :
    ∃ form : Form, form.admits flavor cs = true := by
  by_contra hnone
  exact h (Form.extractFields_eq_malformed_iff.2 (not_exists.1 hnone))

/-- Two flavors that find a form extract the same from it. -/
theorem extractFields_eq_of_ne_malformed
    {cs : List Char}
    (h : extractFields cs flavor systemShard ≠ .error .malformed)
    (h' : extractFields cs flavor' systemShard ≠ .error .malformed) :
    extractFields cs flavor systemShard = extractFields cs flavor' systemShard := by
  obtain ⟨form, hadmits⟩ := Form.exists_admits h
  obtain ⟨form', hadmits'⟩ := Form.exists_admits h'
  obtain rfl := Form.eq_of_admits hadmits hadmits'
  rw [Form.extractFields_of_admits systemShard hadmits,
    Form.extractFields_of_admits systemShard hadmits']

variable {raw : String}

/-- Two flavors that do not refuse a text as malformed read it alike. -/
theorem decode_eq_of_ne_malformed
    (h : decode raw flavor systemShard ≠ .error .malformed)
    (h' : decode raw flavor' systemShard ≠ .error .malformed) :
    decode raw flavor systemShard = decode raw flavor' systemShard := by
  apply decode_eq_of_extractFields_eq
  apply extractFields_eq_of_ne_malformed
  · exact fun hfields => h (decode_of_extractFields_error hfields)
  · exact fun hfields => h' (decode_of_extractFields_error hfields)

/-- The wide flavor refuses what both narrow flavors refuse. -/
theorem decode_any_eq_malformed_iff :
    decode raw .any systemShard = .error .malformed ↔
      decode raw .noShardRealm systemShard = .error .malformed ∧
        decode raw .optionalShardRealm systemShard = .error .malformed := by
  have hany :
      isAddressText raw .any =
        (isAddressText raw .noShardRealm || isAddressText raw .optionalShardRealm) :=
    rfl
  rw [Form.decode_eq_malformed_iff, Form.decode_eq_malformed_iff,
    Form.decode_eq_malformed_iff, hany, Bool.or_eq_false_iff, and_and_left]

/-- Both narrow flavors read an address exactly if it is bare digits. -/
theorem narrow_ne_malformed_iff
    (haddress : isAddressText raw .any = true) :
    (decode raw .noShardRealm systemShard ≠ .error .malformed ∧
        decode raw .optionalShardRealm systemShard ≠ .error .malformed) ↔
      HexadecimalNumeral 40 raw.toList := by
  have hlength := Shape.le_length_of_isAddress haddress
  have hother : isEntityIdText raw = false := by
    obtain ⟨hdotted, hpacked⟩ := Shape.isDotted_isPacked_eq_false_of_length hlength
    rw [isEntityIdText, hdotted, hpacked, Bool.or_false]
  have hread (flavor : Flavor) :
      decode raw flavor systemShard ≠ .error .malformed ↔
        isAddressText raw flavor = true := by
    rw [Ne, Form.decode_eq_malformed_iff, and_iff_right hother, Bool.not_eq_false]
  rw [hread, hread, isAddressText_narrow_iff]

end Agreement

/--
The wide flavor is the union of the narrow ones.

It reads a text as the bare flavor does, unless that refuses the text as
malformed, and then as the qualified flavor does.  Where neither narrow flavor
refuses the text they agree, and among addresses these are exactly the texts of
forty digits without mark and qualifier.  Between any two flavors the reading of
a text differs only if one of them refuses it as malformed.
-/
theorem decode_any_eq_union
    (raw : String)
    (systemShard : UInt16) :
    let reading (flavor : Flavor) := decode raw flavor systemShard
    let refused : Except Rejection EntityId := .error .malformed
    (reading .any =
        if reading .noShardRealm = refused then
          reading .optionalShardRealm
        else
          reading .noShardRealm)
      ∧
    (reading .noShardRealm ≠ refused → reading .optionalShardRealm ≠ refused →
      reading .noShardRealm = reading .optionalShardRealm)
      ∧
    (isAddressText raw .any = true →
      ((reading .noShardRealm ≠ refused ∧ reading .optionalShardRealm ≠ refused) ↔
        HexadecimalNumeral 40 raw.toList))
      ∧
    ∀ flavor flavor' : Flavor,
      reading flavor = reading flavor' ∨
        reading flavor = refused ∨ reading flavor' = refused := by
  intro reading refused
  have hagree {flavor flavor' : Flavor} :
      reading flavor ≠ refused → reading flavor' ≠ refused →
        reading flavor = reading flavor' :=
    decode_eq_of_ne_malformed
  have hwide :
      reading .any = refused ↔
        reading .noShardRealm = refused ∧ reading .optionalShardRealm = refused :=
    decode_any_eq_malformed_iff
  refine ⟨?_, hagree, narrow_ne_malformed_iff, ?_⟩
  · split
    · next hbare =>
        by_cases hqualified : reading .optionalShardRealm = refused
        · rw [hqualified]
          exact hwide.2 ⟨hbare, hqualified⟩
        · exact hagree (fun hany => hqualified (hwide.1 hany).2) hqualified
    · next hbare => exact hagree (fun hany => hbare (hwide.1 hany).1) hbare
  · intro flavor flavor'
    by_cases h : reading flavor = refused
    · exact .inr (.inl h)
    · by_cases h' : reading flavor' = refused
      · exact .inr (.inr h')
      · exact .inl (hagree h h')

/-- Bare digits are read alike by all flavors, and the mark is refused by one of them. -/
theorem decode_any_eq_union_bare :
    let bare := "00000001000000000000000200000000000000ab"
    let marked := "0x00000001000000000000000200000000000000ab"
    let id : EntityId := .present ⟨1, 2, 171, by decide⟩
    isAddressText bare .any = true ∧ isAddressText marked .any = true ∧
    HexadecimalNumeral 40 bare.toList ∧
    decode bare .optionalShardRealm 5 = .ok id ∧ decode bare .noShardRealm 5 = .ok id ∧
    decode marked .any 5 = .ok id ∧
    decode marked .optionalShardRealm 5 = .error .malformed := by
  have hbare_id :
      decode "00000001000000000000000200000000000000ab" .noShardRealm 5 =
        .ok (.present ⟨1, 2, 171, by decide⟩) := by
    cbv
  have hmarked_id :
      decode "0x00000001000000000000000200000000000000ab" .noShardRealm 5 =
        .ok (.present ⟨1, 2, 171, by decide⟩) := by
    cbv
  intro bare marked id
  have hbare : isAddressText bare .any = true := by decide
  have hmarked : isAddressText marked .any = true := by decide
  have hne : (.ok id : Except Rejection EntityId) ≠ .error .malformed := by
    intro h
    cases h
  have hds : HexadecimalNumeral 40 bare.toList :=
    Shape.isAddressDigits_iff.1 (by decide)
  have hmark : ¬ HexadecimalNumeral 40 marked.toList := fun h => absurd h.1 (by decide)
  obtain ⟨-, hagree, hboth, -⟩ := decode_any_eq_union bare 5
  obtain ⟨hunion, -, hboth', -⟩ := decode_any_eq_union marked 5
  beta_reduce at hagree hboth hunion hboth'
  rw [hbare_id] at hagree hboth
  rw [hmarked_id] at hunion hboth'
  have hqualified := ((hboth hbare).2 hds).2
  have hrefused : decode marked .optionalShardRealm 5 = .error .malformed := by
    by_contra hread
    exact hmark ((hboth' hmarked).1 ⟨hne, hread⟩)
  rw [if_neg hne] at hunion
  exact
    ⟨hbare, hmarked, hds, (hagree hne hqualified).symm, hbare_id, hunion, hrefused⟩

end LedgerEntity
