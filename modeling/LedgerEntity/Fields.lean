import LedgerEntity.Limits
import LedgerEntity.Shape

/-!
# Fields

The shard, realm and num that a raw text spells, before their ranges are
checked.

There is one extraction for each shape.  An extraction trusts the shape no
further than it has to: it refuses what it cannot read, and the packed form
also what does not fit sixty-three bits.
-/

namespace LedgerEntity

/--
Why a raw text denotes no entity ID: it has none of the accepted shapes, or it has one
and a field is too large.
-/
inductive Rejection where
  | malformed
  | outOfRange
  deriving DecidableEq, Repr

/-- The name of a reason, as log entries show it. -/
def Rejection.name : Rejection → String
  | malformed => "Malformed"
  | outOfRange => "OutOfRange"

/-- Three fields of any size. -/
structure Fields where
  shard : Nat
  realm : Nat
  num : Nat
  deriving DecidableEq, Repr

namespace Fields

/-- Every field fits its width. -/
def InRange
    (f : Fields) :
    Prop :=
  f.shard ≤ maxShard ∧ f.realm ≤ maxRealm ∧ f.num ≤ maxNum

/-- Whether the fields fit is decided field by field. -/
instance
    (f : Fields) :
    Decidable f.InRange :=
  inferInstanceAs (Decidable (_ ∧ _ ∧ _))

/-- The canonical text `shard.realm.num`. -/
def text
    (f : Fields) :
    String :=
  Decimal.text f.shard ++ "." ++ Decimal.text f.realm
    ++ "." ++ Decimal.text f.num

/-- A word, or a text that spells none. -/
def word
    (cs : List Char) :
    Except Rejection Nat :=
  match Decimal.readWord? cs with
  | some n => .ok n
  | none => .error .malformed

/-- The fields of `shard.realm.num`, or of `realm.num` in the system shard. -/
def ofDotted
    (systemShard : UInt16)
    (cs : List Char) :
    Except Rejection Fields := do
  match ← (pieces '.' cs).mapM word with
  | [realm, num] => .ok ⟨systemShard.toNat, realm, num⟩
  | [shard, realm, num] => .ok ⟨shard, realm, num⟩
  | _ => .error .malformed

/-- The fields of a packed value: sixteen bits of realm between shard and num. -/
def unpack
    (packed : Nat) :
    Except Rejection Fields :=
  if maxPacked < packed then
    .error .outOfRange
  else
    .ok
      { shard := (packed >>> numBits) >>> realmBits
        realm := (packed >>> numBits) &&& maxRealm
        num := packed &&& maxNum }

/-- The fields of a packed ID. -/
def ofPacked
    (cs : List Char) :
    Except Rejection Fields := do
  unpack (← word cs)

/-- The value of the hexadecimal digits from `start` up to `stop`. -/
def hexField
    (ds : List Char)
    (start stop : Nat) :
    Except Rejection Nat :=
  if ds.length < stop then
    .error .malformed
  else
    match Hexadecimal.readWord? ((ds.drop start).take (stop - start)) with
    | some n => .ok n
    | none => .error .malformed

/--
The fields of an address: eight digits of shard, sixteen of realm and sixteen
of num, all after the last dot and an optional `0x`.
-/
def ofAddress
    (cs : List Char) :
    Except Rejection Fields := do
  let ds := Shape.withoutMark (lastPiece '.' cs)
  let shard ← hexField ds 0 8
  let realm ← hexField ds 8 24
  let num ← hexField ds 24 40
  .ok ⟨shard, realm, num⟩

end Fields

/--
Whether a text is an address with a field too large for an entity ID; such an
address was not made from an ID and stands for itself.
-/
def isCreate2Text
    (raw : String) :
    Bool :=
  isAddressText raw .any &&
    match Fields.ofAddress raw.toList with
    | .ok f => !decide f.InRange
    | .error _ => false

end LedgerEntity
