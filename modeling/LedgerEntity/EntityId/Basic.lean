import LedgerEntity.Fields

/-!
# Entity IDs

The place of an entity in the ledger, or no place at all.

A place has a shard, a realm and a num, each within its width.  The packed
value of a place holds the three fields side by side in sixty-three bits.  IDs
are ordered field by field, with the null ID below every place.
-/

namespace LedgerEntity

/--
The place of an entity in the ledger: a shard of fifteen bits, which leaves the sign bit
of the packed value free, a realm of sixteen bits and a num of thirty-two.
-/
structure Place where
  shard : UInt16
  realm : UInt16
  num : UInt32
  shard_le : shard.toNat ≤ maxShard
  deriving DecidableEq, Repr

namespace Place

/-- The place with given fields. -/
def ofFields
    (f : Fields)
    (h : f.InRange) :
    Place where
  shard := UInt16.ofNat f.shard
  realm := UInt16.ofNat f.realm
  num := UInt32.ofNat f.num
  shard_le := by
    have hshard := h.1
    rw [UInt16.toNat_ofNat']
    exact Nat.le_trans (Nat.mod_le _ _) hshard

/-- The place with given fields, unless one is too large. -/
def ofFields?
    (f : Fields) :
    Except Rejection Place :=
  if h : f.InRange then
    .ok (ofFields f h)
  else
    .error .outOfRange

/-- The fields of a place. -/
def fields
    (p : Place) :
    Fields :=
  ⟨p.shard.toNat, p.realm.toNat, p.num.toNat⟩

/-- The three fields side by side: shard, then realm, then num. -/
def packedBits
    (p : Place) :
    UInt64 :=
  (p.shard.toUInt64 <<< 48) ||| (p.realm.toUInt64 <<< 32) ||| p.num.toUInt64

/-- The packed value as a signed word. -/
def packed
    (p : Place) :
    Int64 :=
  p.packedBits.toInt64

/-- The lexicographic order of two places. -/
def order
    (p q : Place) :
    Ordering :=
  (compare p.shard q.shard).then
    ((compare p.realm q.realm).then (compare p.num q.num))

/-- The canonical text `shard.realm.num`. -/
def text
    (p : Place) :
    String :=
  p.fields.text

/-- Fields within range are the fields of their place. -/
@[simp] theorem fields_ofFields
    (f : Fields)
    (h : f.InRange) :
    (ofFields f h).fields = f := by
  have hlimits := limits_eq
  have hshard : f.shard % 2 ^ 16 = f.shard :=
    Nat.mod_eq_of_lt (by have := h.1; omega)
  have hrealm : f.realm % 2 ^ 16 = f.realm :=
    Nat.mod_eq_of_lt (by have := h.2.1; omega)
  have hnum : f.num % 2 ^ 32 = f.num :=
    Nat.mod_eq_of_lt (by have := h.2.2; omega)
  simp only [fields, ofFields, UInt16.toNat_ofNat', UInt32.toNat_ofNat',
    hshard, hrealm, hnum]

/-- The fields of a place are within range. -/
theorem inRange_fields
    (p : Place) :
    p.fields.InRange := by
  have hlimits := limits_eq
  have hrealm := p.realm.toNat_lt
  have hnum := p.num.toNat_lt
  exact ⟨p.shard_le, by simp only [fields]; omega, by simp only [fields]; omega⟩

/-- A place is the place of its fields. -/
@[simp] theorem ofFields?_fields
    (p : Place) :
    ofFields? p.fields = .ok p := by
  rw [ofFields?, dif_pos p.inRange_fields]
  simp [ofFields, fields]

/-- A place is made of its own fields and of no others. -/
theorem ofFields?_eq_ok_iff
    {f : Fields}
    {p : Place} :
    ofFields? f = .ok p ↔ p.fields = f := by
  constructor
  · intro h
    rw [ofFields?] at h
    split at h
    · next hrange =>
        obtain rfl := Except.ok.inj h
        exact fields_ofFields f hrange
    · cases h
  · rintro rfl
    exact ofFields?_fields p

/-- A place is determined by its fields. -/
theorem eq_of_fields_eq
    {p q : Place}
    (h : p.fields = q.fields) :
    p = q := by
  have hp := ofFields?_eq_ok_iff.2 h
  rw [ofFields?_fields] at hp
  exact (Except.ok.inj hp).symm

end Place

/-- An entity ID: the place of an entity, or the null ID. -/
inductive EntityId where
  | null
  | present (place : Place)
  deriving DecidableEq, Repr

namespace EntityId

/-- Without further word an ID is null. -/
instance : Inhabited EntityId :=
  ⟨null⟩

/-- The place of an ID, if it has one. -/
def place? : EntityId → Option Place
  | null => none
  | present p => some p

/-- The shard of an ID. -/
def shard?
    (id : EntityId) :
    Option UInt16 :=
  id.place?.map Place.shard

/-- The realm of an ID. -/
def realm?
    (id : EntityId) :
    Option UInt16 :=
  id.place?.map Place.realm

/-- The num of an ID. -/
def num?
    (id : EntityId) :
    Option UInt32 :=
  id.place?.map Place.num

/-- The packed value of an ID. -/
def packed?
    (id : EntityId) :
    Option Int64 :=
  id.place?.map Place.packed

/-- Whether an ID is null. -/
def isNull : EntityId → Bool
  | null => true
  | present _ => false

/-- Whether an ID is the place whose three fields are zero. -/
def isAllZero : EntityId → Bool
  | null => false
  | present p => p.shard == 0 && p.realm == 0 && p.num == 0

/-- The text of an ID; the null ID has the empty text. -/
def text : EntityId → String
  | null => ""
  | present p => p.text

/-- The text to show to a reader: none for the null ID and for the place of zeros. -/
def displayText?
    (id : EntityId) :
    Option String :=
  if id.isAllZero then
    none
  else
    id.place?.map Place.text

/-- The order of two IDs, the null ID first. -/
def order : EntityId → EntityId → Ordering
  | null, null => .eq
  | null, present _ => .lt
  | present _, null => .gt
  | present p, present q => p.order q

/-- IDs are compared by their order. -/
instance : Ord EntityId :=
  ⟨order⟩

/-- A list of IDs in ascending order; equal IDs keep their places. -/
def sort
    (ids : List EntityId) :
    List EntityId :=
  ids.mergeSort fun a b => (order a b).isLE

/-- The different IDs of a list. -/
def distinct
    (ids : List EntityId) :
    List EntityId :=
  ids.eraseDups

end EntityId
end LedgerEntity
