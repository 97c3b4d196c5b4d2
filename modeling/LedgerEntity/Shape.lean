import LedgerEntity.Flavor
import LedgerEntity.Text.Decimal
import LedgerEntity.Text.Hexadecimal
import LedgerEntity.Text.Pieces

/-!
# Shapes of raw text

The written forms of an entity ID, told apart by their shape alone.

A dotted ID has two or three numerals between dots, a packed ID is one numeral,
and an address is forty hexadecimal digits, either bare with an optional `0x`
or qualified by up to two numerals.  Only ASCII digits count, and the whole
text must match.  Field ranges are no matter of shape.
-/

namespace LedgerEntity
namespace Shape

/-- `shard.realm.num` or `realm.num`: up to five, five and ten digits. -/
def isDotted
    (cs : List Char) :
    Bool :=
  match pieces '.' cs with
  | [realm, num] =>
      Decimal.isNumeral 5 realm && Decimal.isNumeral 10 num
  | [shard, realm, num] =>
      Decimal.isNumeral 5 shard && Decimal.isNumeral 5 realm
        && Decimal.isNumeral 10 num
  | _ => false

/-- A packed ID: up to nineteen digits. -/
def isPacked
    (cs : List Char) :
    Bool :=
  Decimal.isNumeral 19 cs

/-- Exactly forty hexadecimal digits. -/
def isAddressDigits
    (cs : List Char) :
    Bool :=
  decide (cs.length = 40) && cs.all Hexadecimal.isDigit

/-- The characters after one optional `0x`. -/
def withoutMark : List Char → List Char
  | '0' :: 'x' :: rest => rest
  | cs => cs

/-- A bare address. -/
def isBareAddress
    (cs : List Char) :
    Bool :=
  isAddressDigits (withoutMark cs)

/-- An address behind up to two numerals of at most ten digits. -/
def isQualifiedAddress
    (cs : List Char) :
    Bool :=
  match pieces '.' cs with
  | [ds] => isAddressDigits ds
  | [realm, ds] =>
      Decimal.isNumeral 10 realm && isAddressDigits ds
  | [shard, realm, ds] =>
      Decimal.isNumeral 10 shard && Decimal.isNumeral 10 realm
        && isAddressDigits ds
  | _ => false

/-- An address in a form that the flavor accepts. -/
def isAddress : Flavor → List Char → Bool
  | .any, cs => isBareAddress cs || isQualifiedAddress cs
  | .noShardRealm, cs => isBareAddress cs
  | .optionalShardRealm, cs => isQualifiedAddress cs

end Shape

/-- Whether a text has the shape of a dotted or a packed ID. -/
def isEntityIdText
    (raw : String) :
    Bool :=
  Shape.isDotted raw.toList || Shape.isPacked raw.toList

/-- Whether a text has the shape of an address that the flavor accepts. -/
def isAddressText
    (raw : String)
    (flavor : Flavor) :
    Bool :=
  Shape.isAddress flavor raw.toList

end LedgerEntity
