import LedgerEntity.EntityId.Basic

/-!
# Addresses

Addresses of twenty bytes, their text, and the address of an entity ID.

The address of a place has four bytes of shard, eight of realm and eight of
num, each most significant first.  The text of an address is `0x` and forty
lower-case digits.
-/

namespace LedgerEntity

/-- Twenty bytes. -/
structure Address where
  bytes : List UInt8
  length_bytes : bytes.length = addressLength
  deriving DecidableEq, Repr

namespace Address

/-- The lower-case digits of an address. -/
def digits
    (a : Address) :
    List Char :=
  Hexadecimal.ofBytes a.bytes

/-- The text of an address. -/
def text
    (a : Address) :
    String :=
  "0x" ++ String.ofList a.digits

/-- Read an address from its digits, of either letter case. -/
def ofDigits?
    (ds : List Char) :
    Option Address :=
  match Hexadecimal.bytes? ds with
  | none => none
  | some bs =>
      if h : bs.length = addressLength then
        some ⟨bs, h⟩
      else
        none

/-- An address is read back from its digits. -/
@[simp] theorem ofDigits?_digits
    (a : Address) :
    ofDigits? a.digits = some a := by
  simp [ofDigits?, digits, Hexadecimal.bytes?_ofBytes, a.length_bytes]

/-- An address has forty digits. -/
@[simp] theorem length_digits
    (a : Address) :
    a.digits.length = 40 := by
  simp [digits, a.length_bytes, addressLength]

end Address

/-- The address of a place. -/
def Place.address
    (p : Place) :
    Address where
  bytes :=
    Hexadecimal.bigEndian 4 p.shard.toNat
      ++ Hexadecimal.bigEndian 8 p.realm.toNat
      ++ Hexadecimal.bigEndian 8 p.num.toNat
  length_bytes := by
    simp [addressLength]

/-- The address of an ID, if it has a place. -/
def EntityId.address?
    (id : EntityId) :
    Option Address :=
  id.place?.map Place.address

end LedgerEntity
