import LedgerEntity.Proofs.Decode.Reference
import LedgerEntity.Proofs.Text.DecimalText

/-!
# The system shard

What the system shard has to do with the reading of a text.

The short form `realm.num` is read as if the system shard were written in front
of it.  The prefix never has more than five digits, so the long form always
admits it, and then the long form names its shard itself.  No other form asks
for the system shard.

Both facts are about what a text spells, before any range is checked, so the
readings agree in every outcome and not only in the IDs they give.
-/

namespace LedgerEntity

/-- The short form of an ID: up to five digits of realm, a dot, up to ten digits of num. -/
def ShortForm
    (cs : List Char) :
    Prop :=
  ∃ realm num,
    DecimalNumeral 5 realm ∧ DecimalNumeral 10 num ∧ cs = realm ++ '.' :: num

theorem ShortForm.dot_mem
    {cs : List Char}
    (h : ShortForm cs) :
    '.' ∈ cs := by
  obtain ⟨realm, num, -, -, rfl⟩ := h
  exact List.mem_append_right realm List.mem_cons_self

section Extraction

variable {flavor : Flavor}
variable {cs : List Char}

/-- Every shard has at most five digits. -/
theorem decimalNumeral_digits_shard
    (systemShard : UInt16) :
    DecimalNumeral 5 (Decimal.digits systemShard.toNat) := by
  rw [Decimal.decimalNumeral_digits_iff 5 (by decide)]
  have hlt := systemShard.toNat_lt
  omega

/-- What is no short form spells the same in every shard. -/
theorem Spells.of_not_shortForm
    {systemShard : UInt16}
    {outcome : Except Rejection Fields}
    (h : Spells flavor systemShard cs outcome)
    (hform : ¬ ShortForm cs)
    (systemShard' : UInt16) :
    Spells flavor systemShard' cs outcome := by
  cases h with
  | short hrealm hnum => exact absurd ⟨_, _, hrealm, hnum, rfl⟩ hform
  | full hshard hrealm hnum => exact .full hshard hrealm hnum
  | packed hds hfits => exact .packed hds hfits
  | packedTooLarge hds hlarge => exact .packedTooLarge hds hlarge
  | address hfront hds => exact .address hfront hds

theorem extractFields_of_not_shortForm
    (hform : ¬ ShortForm cs)
    (systemShard systemShard' : UInt16) :
    extractFields cs flavor systemShard = extractFields cs flavor systemShard' := by
  by_cases hspelled : ∃ outcome, Spells flavor systemShard cs outcome
  · obtain ⟨outcome, houtcome⟩ := hspelled
    rw [houtcome.extractFields_eq,
      (houtcome.of_not_shortForm hform systemShard').extractFields_eq]
  · have hunspelled' : ∀ outcome, ¬ Spells flavor systemShard' cs outcome :=
      fun outcome h => hspelled ⟨outcome, h.of_not_shortForm hform systemShard⟩
    rw [extractFields_of_unspelled (not_exists.1 hspelled),
      extractFields_of_unspelled hunspelled']

/--
The fields of a short form are those of the long form that starts with the system
shard.
-/
theorem ShortForm.extractFields_eq
    (h : ShortForm cs)
    (systemShard systemShard' : UInt16) :
    extractFields cs flavor systemShard =
      extractFields (Decimal.digits systemShard.toNat ++ '.' :: cs) flavor systemShard' := by
  obtain ⟨realm, num, hrealm, hnum, rfl⟩ := h
  have hshort :
      Spells flavor systemShard (realm ++ '.' :: num)
        (.ok ⟨systemShard.toNat, decimalNumber realm, decimalNumber num⟩) :=
    .short hrealm hnum
  have hlong :
      Spells flavor systemShard'
        (Decimal.digits systemShard.toNat ++ '.' :: (realm ++ '.' :: num))
        (.ok ⟨decimalNumber (Decimal.digits systemShard.toNat), decimalNumber realm,
          decimalNumber num⟩) :=
    .full (decimalNumeral_digits_shard systemShard) hrealm hnum
  rw [hshort.extractFields_eq, hlong.extractFields_eq, Decimal.decimalNumber_digits]

/-- The shard of a short form is the system shard. -/
theorem ShortForm.exists_extractFields_eq
    (h : ShortForm cs)
    (flavor : Flavor)
    (systemShard : UInt16) :
    ∃ f : Fields, f.shard = systemShard.toNat ∧
      extractFields cs flavor systemShard = .ok f := by
  obtain ⟨realm, num, hrealm, hnum, rfl⟩ := h
  exact ⟨_, rfl, (Spells.short hrealm hnum).extractFields_eq⟩

end Extraction

section Decoding

variable {raw : String}
variable {flavor : Flavor}

theorem toList_shard_append
    (systemShard : UInt16)
    (raw : String) :
    (toString systemShard ++ "." ++ raw).toList =
      Decimal.digits systemShard.toNat ++ '.' :: raw.toList := by
  have htext : (toString systemShard).toList = Decimal.digits systemShard.toNat :=
    Decimal.toList_text systemShard.toNat
  rw [String.toList_append, String.toList_append, htext, List.append_assoc]
  rfl

/-- A system shard that no ID can have puts every short form out of range. -/
theorem ShortForm.decode_of_large_shard
    (h : ShortForm raw.toList)
    {systemShard : UInt16}
    (hlarge : 32767 < systemShard) :
    decode raw flavor systemShard = .error .outOfRange := by
  obtain ⟨f, hshard, hfields⟩ := h.exists_extractFields_eq flavor systemShard
  apply decode_of_not_inRange hfields
  rw [Fields.inRange_iff, hshard]
  have hlt : 32767 < systemShard.toNat := hlarge
  omega

end Decoding

/--
The system shard matters to the short form only, and there it means the prefix.

A short form is read in one shard as its text behind that shard is read in any
other, with the same ID or the same rejection, and it is out of range in a shard
above the limit.  Every other text is read alike in all shards.
-/
theorem decode_by_systemShard
    (raw : String)
    (flavor : Flavor)
    (systemShard systemShard' : UInt16) :
    (ShortForm raw.toList →
      decode raw flavor systemShard =
          decode (toString systemShard ++ "." ++ raw) flavor systemShard' ∧
        (32767 < systemShard → decode raw flavor systemShard = .error .outOfRange))
      ∧
    (¬ ShortForm raw.toList →
      decode raw flavor systemShard = decode raw flavor systemShard') := by
  constructor
  · intro hform
    refine ⟨?_, hform.decode_of_large_shard⟩
    apply decode_eq_of_extractFields_eq
    rw [toList_shard_append]
    exact hform.extractFields_eq systemShard systemShard'
  · intro hform
    exact decode_eq_of_extractFields_eq (extractFields_of_not_shortForm hform _ _)

/--
`2.3` in shard 7 is the ID `7.2.3`, in shard 40000 it is nothing, and `1001` has no
shard to add.
-/
theorem decode_by_systemShard_prefix :
    ShortForm "2.3".toList ∧ (32767 : UInt16) < 40000 ∧ ¬ ShortForm "1001".toList ∧
    decode "2.3" .any 7 = decode "7.2.3" .any 0 ∧
    decode "2.3" .any 7 = .ok (.present ⟨7, 2, 3, by decide⟩) ∧
    decode "2.3" .any 40000 = .error .outOfRange ∧
    decode "1001" .any 7 = decode "1001" .any 40000 ∧
    decode "1001" .any 7 = .ok (.present ⟨0, 0, 1001, by decide⟩) := by
  have htwo : DecimalNumeral 5 ['2'] := (Decimal.isNumeral_iff 5 ['2']).1 rfl
  have hthree : DecimalNumeral 10 ['3'] := (Decimal.isNumeral_iff 10 ['3']).1 rfl
  have hform : ShortForm "2.3".toList := ⟨['2'], ['3'], htwo, hthree, rfl⟩
  have hlarge : (32767 : UInt16) < 40000 := by decide
  have hpacked : ¬ ShortForm "1001".toList := fun h => absurd h.dot_mem (by decide)
  have hprefix := ((decode_by_systemShard "2.3" .any 7 0).1 hform).1
  have hsame := (decode_by_systemShard "1001" .any 7 40000).2 hpacked
  have hfull : decode "7.2.3" .any 0 = .ok (.present ⟨7, 2, 3, by decide⟩) := by
    cbv
  have hnum : decode "1001" .any 40000 = .ok (.present ⟨0, 0, 1001, by decide⟩) := by
    cbv
  exact
    ⟨hform, hlarge, hpacked, hprefix, hprefix.trans hfull,
      ((decode_by_systemShard "2.3" .any 40000 0).1 hform).2 hlarge, hsame,
      hsame.trans hnum⟩

end LedgerEntity
