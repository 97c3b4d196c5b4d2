import LedgerEntity.EntityId.Basic
import LedgerEntity.IdError

/-!
# Decoding raw text

The entity ID that a raw text denotes.

The shape decides which extraction applies: dotted before packed before
address.  The extracted fields are then checked against their widths.  The
system shard stands in for the shard of the two-part dotted form and matters
nowhere else.
-/

namespace LedgerEntity

/-- The fields that a raw text spells, by its shape. -/
def extractFields
    (raw : List Char)
    (flavor : Flavor)
    (systemShard : UInt16) :
    Except Rejection Fields :=
  if Shape.isDotted raw then
    Fields.ofDotted systemShard raw
  else if Shape.isPacked raw then
    Fields.ofPacked raw
  else if Shape.isAddress flavor raw then
    Fields.ofAddress raw
  else
    .error .malformed

/-- The entity ID that a raw text denotes. -/
def decode
    (raw : String)
    (flavor : Flavor)
    (systemShard : UInt16) :
    Except Rejection EntityId := do
  let fields ← extractFields raw.toList flavor systemShard
  let place ← Place.ofFields? fields
  .ok (.present place)

namespace EntityId

/-- The ID with given fields; an error quotes them in dotted form. -/
def of
    (shard realm num : Nat) :
    Except IdError EntityId :=
  let fields : Fields := ⟨shard, realm, num⟩
  match Place.ofFields? fields with
  | .ok place => .ok (.present place)
  | .error rejection => .error (rejection.toError fields.text none)

/-- The ID of a text, with the default flavor and shard zero for the short form. -/
def ofText
    (raw : String) :
    Except IdError EntityId :=
  match decode raw default 0 with
  | .ok id => .ok id
  | .error rejection => .error (rejection.toError raw none)

end EntityId
end LedgerEntity
