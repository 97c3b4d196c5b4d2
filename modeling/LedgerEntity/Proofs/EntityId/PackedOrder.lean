import LedgerEntity.Proofs.Decode.Reference
import Mathlib.Data.Finset.Card
import Mathlib.Data.Finset.Image

/-!
# Packed values and the order of IDs

The packed value of a place is its three fields in unbounded arithmetic: sixteen
bits of realm above thirty-two of num, and the shard above both.  The shifted
fields never overlap and leave the sign bit free, because every place has a
shard of fifteen bits.

Hence IDs may be told apart, ordered, sorted and counted by their packed values.
The order of IDs compares the fields one after the other, and that is how numbers
compare that are cut at a power of two.
-/

namespace LedgerEntity

/-- Three fields as one number, with room for sixteen bits of realm and thirty-two of num. -/
def Fields.packedNumber
    (f : Fields) :
    Nat :=
  f.shard * 2 ^ 48 + f.realm * 2 ^ 32 + f.num

section Comparisons

theorem compareOfLessAndEq_congr
    {α β : Type}
    [LT α] [DecidableLT α] [DecidableEq α]
    [LT β] [DecidableLT β] [DecidableEq β]
    {a b : α}
    {x y : β}
    (hlt : a < b ↔ x < y)
    (heq : a = b ↔ x = y) :
    compareOfLessAndEq a b = compareOfLessAndEq x y := by
  simp only [compareOfLessAndEq, hlt, heq]

theorem compare_uint16
    (a b : UInt16) :
    compare a b = compare a.toNat b.toNat :=
  compareOfLessAndEq_congr UInt16.lt_iff_toNat_lt UInt16.toNat_inj.symm

theorem compare_uint32
    (a b : UInt32) :
    compare a b = compare a.toNat b.toNat :=
  compareOfLessAndEq_congr UInt32.lt_iff_toNat_lt UInt32.toNat_inj.symm

theorem compare_natCast
    (m n : Nat) :
    compare (m : Int) (n : Int) = compare m n :=
  compareOfLessAndEq_congr Int.ofNat_lt Int.ofNat_inj

/-- Numbers cut at a width compare first by what is above the cut, then by what is below. -/
theorem compare_then_compare
    (width : Nat)
    {x y : Nat}
    (hx : x < width)
    (hy : y < width)
    (a b : Nat) :
    (compare a b).then (compare x y) = compare (a * width + x) (b * width + y) := by
  rcases lt_trichotomy a b with hlt | rfl | hgt
  · have hstep : (a + 1) * width ≤ b * width := Nat.mul_le_mul_right width hlt
    rw [Nat.add_mul, Nat.one_mul] at hstep
    have hsum : a * width + x < b * width + y := by omega
    rw [Nat.compare_eq_lt.2 hlt, Nat.compare_eq_lt.2 hsum]
    rfl
  · rw [Nat.compare_eq_eq.2 rfl, Ordering.eq_then]
    exact compareOfLessAndEq_congr (by omega) (by omega)
  · have hstep : (b + 1) * width ≤ a * width := Nat.mul_le_mul_right width hgt
    rw [Nat.add_mul, Nat.one_mul] at hstep
    have hsum : b * width + y < a * width + x := by omega
    rw [Nat.compare_eq_gt.2 hgt, Nat.compare_eq_gt.2 hsum]
    rfl

end Comparisons

namespace Place

variable (p q : Place)

theorem packedNumber_le :
    p.fields.packedNumber ≤ 2 ^ 63 - 1 := by
  have hshard : p.shard.toNat ≤ 32767 := p.shard_le
  have hrealm := p.realm.toNat_lt
  have hnum := p.num.toNat_lt
  simp only [Fields.packedNumber, fields]
  omega

/-- The shifted fields do not overlap, so joining their bits adds them. -/
theorem toNat_packedBits :
    p.packedBits.toNat = p.fields.packedNumber := by
  have hshard : p.shard.toNat ≤ 32767 := p.shard_le
  have hrealm := p.realm.toNat_lt
  have hnum := p.num.toNat_lt
  have hhigh : p.shard.toNat <<< 48 % 2 ^ 64 = p.shard.toNat <<< 48 := by
    apply Nat.mod_eq_of_lt
    rw [Nat.shiftLeft_eq]
    omega
  have hmiddle : p.realm.toNat <<< 32 % 2 ^ 64 = p.realm.toNat <<< 32 := by
    apply Nat.mod_eq_of_lt
    rw [Nat.shiftLeft_eq]
    omega
  have hlow : p.realm.toNat <<< 32 ||| p.num.toNat = p.realm.toNat <<< 32 + p.num.toNat :=
    (Nat.shiftLeft_add_eq_or_of_lt hnum _).symm
  have hboth : p.realm.toNat <<< 32 + p.num.toNat < 2 ^ 48 := by
    rw [Nat.shiftLeft_eq]
    omega
  calc p.packedBits.toNat
      = p.shard.toNat <<< 48 % 2 ^ 64 ||| p.realm.toNat <<< 32 % 2 ^ 64 |||
          p.num.toNat := by
        simp only [packedBits, UInt64.toNat_or, UInt64.toNat_shiftLeft,
          UInt16.toNat_toUInt64, UInt32.toNat_toUInt64]
        rfl
    _ = p.shard.toNat <<< 48 ||| (p.realm.toNat <<< 32 + p.num.toNat) := by
        rw [hhigh, hmiddle, Nat.or_assoc, hlow]
    _ = p.shard.toNat <<< 48 + (p.realm.toNat <<< 32 + p.num.toNat) :=
        (Nat.shiftLeft_add_eq_or_of_lt hboth _).symm
    _ = p.fields.packedNumber := by
        rw [Nat.shiftLeft_eq, Nat.shiftLeft_eq, ← Nat.add_assoc]
        rfl

/-- The packed value is the number that the fields make; the sign bit is free. -/
theorem toInt_packed :
    p.packed.toInt = (p.fields.packedNumber : Int) := by
  have hle := p.packedNumber_le
  have hbits : p.packedBits.toBitVec.toNat = p.fields.packedNumber := p.toNat_packedBits
  calc p.packed.toInt
      = p.packedBits.toBitVec.toInt := rfl
    _ = (p.packedBits.toBitVec.toNat : Int) :=
        BitVec.toInt_eq_toNat_of_lt (by rw [hbits]; omega)
    _ = (p.fields.packedNumber : Int) := by rw [hbits]

theorem toInt_packed_bounds :
    0 ≤ p.packed.toInt ∧ p.packed.toInt ≤ 2 ^ 63 - 1 := by
  have hle := p.packedNumber_le
  rw [p.toInt_packed]
  omega

/-- Places are ordered as their packed values are. -/
theorem order_eq_compare_packed :
    p.order q = compare p.packed.toInt q.packed.toInt := by
  have hrealm := p.realm.toNat_lt
  have hnum := p.num.toNat_lt
  have hrealm' := q.realm.toNat_lt
  have hnum' := q.num.toNat_lt
  rw [toInt_packed, toInt_packed, compare_natCast, order, compare_uint16, compare_uint16,
    compare_uint32, compare_then_compare (2 ^ 32) hnum hnum',
    compare_then_compare (2 ^ 48) (by omega) (by omega)]
  simp only [Fields.packedNumber, fields, Nat.add_assoc]

/-- To compare the packed values after the fields changes nothing. -/
theorem order_then_compare_packed :
    (p.order q).then (compare p.packed q.packed) = p.order q := by
  have hpacked : compare p.packed q.packed = compare p.packed.toInt q.packed.toInt :=
    compareOfLessAndEq_congr Int64.lt_iff_toInt_lt Int64.toInt_inj.symm
  rw [hpacked, ← p.order_eq_compare_packed q]
  cases p.order q <;> rfl

variable {p q}

/-- Different places have different packed values. -/
theorem eq_of_packedNumber_eq
    (h : p.fields.packedNumber = q.fields.packedNumber) :
    p = q := by
  have hrealm := p.realm.toNat_lt
  have hnum := p.num.toNat_lt
  have hrealm' := q.realm.toNat_lt
  have hnum' := q.num.toNat_lt
  simp only [Fields.packedNumber, fields] at h
  apply eq_of_fields_eq
  simp only [fields, Fields.mk.injEq]
  omega

end Place

namespace EntityId

/-- The packed value of an ID as an integer. -/
def packedNumber?
    (id : EntityId) :
    Option Int :=
  id.packed?.map Int64.toInt

/-- The fields are within their widths, and the packed value of the ID is their number. -/
def PacksFields
    (id : EntityId)
    (f : Fields) :
    Prop :=
  f.shard ≤ 32767 ∧ f.realm ≤ 65535 ∧ f.num ≤ 4294967295 ∧
    id.packedNumber? = some (f.packedNumber : Int)

@[simp] theorem packedNumber?_null :
    null.packedNumber? = none :=
  rfl

@[simp] theorem packedNumber?_present
    (p : Place) :
    (present p).packedNumber? = some p.packed.toInt :=
  rfl

theorem packedNumber?_eq_some_iff
    {id : EntityId}
    {n : Int} :
    id.packedNumber? = some n ↔ ∃ p : Place, id = present p ∧ p.packed.toInt = n := by
  cases id with
  | null => simp
  | present p => simp

theorem packedNumber?_injective :
    Function.Injective packedNumber? := by
  intro a b h
  cases b with
  | null =>
      cases a with
      | null => rfl
      | present p => simp at h
  | present q =>
      obtain ⟨p, rfl, hp⟩ := packedNumber?_eq_some_iff.1 h
      rw [p.toInt_packed, q.toInt_packed, Int.ofNat_inj] at hp
      rw [Place.eq_of_packedNumber_eq hp]

/-- Different IDs have different packed values. -/
theorem packed?_injective :
    Function.Injective packed? :=
  Function.Injective.of_comp (f := Option.map Int64.toInt) packedNumber?_injective

/-- IDs are ordered as their packed values are, an absent value below every other. -/
theorem order_eq_compare_packedNumber?
    (a b : EntityId) :
    order a b = compare a.packedNumber? b.packedNumber? := by
  cases a with
  | null => cases b <;> rfl
  | present p =>
      cases b with
      | null => rfl
      | present q => exact p.order_eq_compare_packed q

theorem packsFields_present
    (p : Place) :
    (present p).PacksFields p.fields := by
  obtain ⟨hshard, hrealm, hnum⟩ := p.inRange_fields
  exact ⟨hshard, hrealm, hnum, congrArg some p.toInt_packed⟩

/-- Only the place of the fields packs them. -/
theorem packsFields_iff
    {id : EntityId}
    {f : Fields} :
    id.PacksFields f ↔ ∃ p : Place, id = .present p ∧ p.fields = f := by
  constructor
  · rintro ⟨hshard, hrealm, hnum, hnumber⟩
    have hrange : f.InRange := ⟨hshard, hrealm, hnum⟩
    have hfields := Place.fields_ofFields f hrange
    refine ⟨Place.ofFields f hrange, ?_, hfields⟩
    apply packedNumber?_injective
    rw [hnumber, packedNumber?_present, Place.toInt_packed, hfields]
  · rintro ⟨p, rfl, rfl⟩
    exact packsFields_present p

theorem of_eq_ok_iff
    {shard realm num : Nat}
    {id : EntityId} :
    of shard realm num = .ok id ↔ id.PacksFields ⟨shard, realm, num⟩ := by
  rw [packsFields_iff]
  constructor
  · intro h
    simp only [of] at h
    split at h
    · next p hp =>
        exact ⟨p, (Except.ok.inj h).symm, Place.ofFields?_eq_ok_iff.1 hp⟩
    · cases h
  · rintro ⟨p, rfl, hp⟩
    simp only [of, Place.ofFields?_eq_ok_iff.2 hp]

theorem decode_eq_ok_iff_packsFields
    {raw : String}
    {flavor : Flavor}
    {systemShard : UInt16}
    {id : EntityId} :
    decode raw flavor systemShard = .ok id ↔
      ∃ f, Spells flavor systemShard raw.toList (.ok f) ∧ id.PacksFields f := by
  rw [decode_eq_ok_iff]
  constructor
  · rintro ⟨p, rfl, hfields⟩
    exact ⟨p.fields, spells_of_extractFields_eq hfields (by simp), packsFields_present p⟩
  · rintro ⟨f, hf, hpacks⟩
    obtain ⟨p, rfl, rfl⟩ := packsFields_iff.1 hpacks
    exact ⟨p, rfl, hf.extractFields_eq⟩

section Sorting

variable {ids : List EntityId}

theorem sort_perm :
    (sort ids).Perm ids :=
  List.mergeSort_perm ids _

theorem pairwise_sort :
    (sort ids).Pairwise fun a b => (order a b).isLE := by
  apply List.pairwise_mergeSort
  · intro a b c hab hbc
    rw [order_eq_compare_packedNumber?] at hab hbc ⊢
    exact Std.TransCmp.isLE_trans hab hbc
  · intro a b
    have hswap : (order b a).swap = order a b := by
      rw [order_eq_compare_packedNumber?, order_eq_compare_packedNumber?]
      exact Std.OrientedCmp.eq_swap.symm
    rw [← hswap]
    cases order b a <;> rfl

/-- In ascending order the null IDs come first, then places with ascending packed values. -/
theorem exists_nulls_append_places
    (h : ids.Pairwise fun a b => (order a b).isLE) :
    ∃ (nulls : Nat) (places : List Place),
      ids = List.replicate nulls null ++ places.map present ∧
      (places.map fun p => p.packed.toInt).Pairwise (· ≤ ·) := by
  induction ids with
  | nil =>
      exact ⟨0, [], rfl, List.Pairwise.nil⟩
  | cons id ids ih =>
      obtain ⟨hfirst, hrest⟩ := List.pairwise_cons.1 h
      obtain ⟨nulls, places, rfl, hplaces⟩ := ih hrest
      cases id with
      | null =>
          exact ⟨nulls + 1, places, rfl, hplaces⟩
      | present p =>
          -- No null ID follows a place.
          have hnulls : nulls = 0 := by
            by_contra hne
            have hmem : null ∈ List.replicate nulls null ++ places.map present :=
              List.mem_append_left _ (List.mem_replicate.2 ⟨hne, rfl⟩)
            simpa [order] using hfirst null hmem
          subst hnulls
          refine ⟨0, p :: places, rfl, ?_⟩
          rw [List.map_cons, List.pairwise_cons]
          refine ⟨?_, hplaces⟩
          intro v hv
          obtain ⟨q, hq, rfl⟩ := List.mem_map.1 hv
          have hle := hfirst (present q) (by simpa using hq)
          rw [order_eq_compare_packedNumber?] at hle
          exact Int.isLE_compare.1 hle

end Sorting

section Counting

theorem nodup_eraseDups
    {α : Type}
    [DecidableEq α]
    (xs : List α) :
    xs.eraseDups.Nodup := by
  induction hlength : xs.length using Nat.strong_induction_on generalizing xs with
  | _ n ih =>
      cases xs with
      | nil =>
          simp
      | cons x xs =>
          have hlt : (xs.filter fun y => !y == x).length < n := by
            have hle := List.length_filter_le (fun y => !y == x) xs
            rw [List.length_cons] at hlength
            omega
          rw [List.eraseDups_cons, List.nodup_cons]
          refine ⟨?_, ih _ hlt _ rfl⟩
          simp [List.mem_eraseDups]

theorem length_distinct
    (ids : List EntityId) :
    (distinct ids).length = ids.toFinset.card := by
  rw [distinct, ← List.toFinset_card_of_nodup (nodup_eraseDups ids)]
  apply congrArg Finset.card
  ext id
  simp [List.mem_eraseDups]

/-- There are as many different IDs as different packed values. -/
theorem card_packed?
    (ids : List EntityId) :
    (ids.map packed?).toFinset.card = ids.toFinset.card := by
  rw [← Finset.card_image_of_injective ids.toFinset packed?_injective]
  apply congrArg Finset.card
  ext v
  simp

end Counting

/--
Packed values stand for IDs.

An ID is made only of fields within their widths, and its packed value is the
number of these fields, which fits sixty-three bits.  IDs are equal, ordered,
sorted and counted as their packed values are, the null ID below every other.
-/
theorem packed?_determines_identity_and_order :
    (∀ shard realm num id,
      of shard realm num = .ok id ↔ id.PacksFields ⟨shard, realm, num⟩)
      ∧
    (∀ raw flavor systemShard id,
      decode raw flavor systemShard = .ok id ↔
        ∃ f, Spells flavor systemShard raw.toList (.ok f) ∧ id.PacksFields f)
      ∧
    (∀ p : Place,
      (present p).PacksFields p.fields ∧
        0 ≤ p.packed.toInt ∧ p.packed.toInt ≤ 2 ^ 63 - 1)
      ∧
    (∀ a b : EntityId,
      (a = b ↔ a.packed? = b.packed?) ∧
        compare a b = compare a.packedNumber? b.packedNumber?)
      ∧
    (∀ p q : Place,
      compare null (present p) = .lt ∧
        (p.order q).then (compare p.packed q.packed) = compare (present p) (present q))
      ∧
    (∀ ids,
      (sort ids).Perm ids ∧
        ∃ (nulls : Nat) (places : List Place),
          sort ids = List.replicate nulls null ++ places.map present ∧
          (places.map fun p => p.packed.toInt).Pairwise (· ≤ ·))
      ∧
    (∀ ids,
      (distinct ids).length = ids.toFinset.card ∧
        ids.toFinset.card = (ids.map packed?).toFinset.card) := by
  refine ⟨fun _ _ _ _ => of_eq_ok_iff, fun _ _ _ _ => decode_eq_ok_iff_packsFields,
    ?_, ?_, ?_, ?_, ?_⟩
  · intro p
    exact ⟨packsFields_present p, p.toInt_packed_bounds⟩
  · intro a b
    exact ⟨packed?_injective.eq_iff.symm, order_eq_compare_packedNumber? a b⟩
  · intro p q
    exact ⟨rfl, p.order_then_compare_packed q⟩
  · intro ids
    exact ⟨sort_perm, exists_nulls_append_places pairwise_sort⟩
  · intro ids
    exact ⟨length_distinct ids, (card_packed? ids).symm⟩

end EntityId
end LedgerEntity
