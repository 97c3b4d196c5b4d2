import LedgerEntity.Decode
import LedgerEntity.Document.Basic
import LedgerEntity.EntityId.Address

/-!
# References to contracts

A filter value that names a contract: a target behind an optional realm and an
optional shard.

The target is a num or an address.  An address whose fields fit their widths
was made from an ID and stands for its num; any other address is kept as bytes.
Numbers are 64-bit words without regard to field widths.
-/

namespace LedgerEntity

/-- What a reference points at: a num, or an address that was not made from an ID. -/
inductive ContractTarget where
  | num (n : Nat)
  | create2 (address : Address)
  deriving DecidableEq, Repr

/-- A reference to a contract. -/
structure ContractReference where
  shard : Option Nat
  realm : Option Nat
  target : ContractTarget
  deriving DecidableEq, Repr

/-- The num of a target, if it has one. -/
def ContractTarget.num? : ContractTarget → Option Nat
  | num n => some n
  | create2 _ => none

/-- The address of a target, if it has one. -/
def ContractTarget.address? : ContractTarget → Option Address
  | num _ => none
  | create2 a => some a

/-- The document of a target. -/
def ContractTarget.document : ContractTarget → Document
  | num n => .object [("num", .integer n)]
  | create2 a => .object [("create2_evm_address", .text a.text)]

/-- The target of a bare address. -/
def ContractTarget.ofAddress
    (cs : List Char) :
    Except Rejection ContractTarget := do
  let fields ← Fields.ofAddress cs
  if fields.InRange then
    .ok (.num fields.num)
  else
    match Address.ofDigits? (Shape.withoutMark cs) with
    | some address => .ok (.create2 address)
    | none => .error .malformed

/-- The target of the last piece: an address by its shape, a word otherwise. -/
def ContractTarget.ofPiece
    (cs : List Char) :
    Except Rejection ContractTarget :=
  if Shape.isAddress .noShardRealm cs then
    ContractTarget.ofAddress cs
  else do
    .ok (.num (← Fields.word cs))

namespace ContractReference

/-- The document of a reference. -/
def document
    (r : ContractReference) :
    Document :=
  .object
    [ ("shard", .ofNat? r.shard), ("realm", .ofNat? r.realm),
      ("target", r.target.document) ]

/-- The reference of a value cut at its dots. -/
def ofPieces :
    List (List Char) → Except Rejection ContractReference
  | [last] => do
      .ok ⟨none, none, ← ContractTarget.ofPiece last⟩
  | [realm, last] => do
      let r ← Fields.word realm
      .ok ⟨none, some r, ← ContractTarget.ofPiece last⟩
  | [shard, realm, last] => do
      let s ← Fields.word shard
      let r ← Fields.word realm
      .ok ⟨some s, some r, ← ContractTarget.ofPiece last⟩
  | _ => .error .malformed

/-- The reference that a value denotes; an error quotes the whole value. -/
def ofText
    (value : String) :
    Except IdError ContractReference :=
  match ofPieces (pieces '.' value.toList) with
  | .ok reference => .ok reference
  | .error rejection => .error (rejection.toError value none)

end ContractReference
end LedgerEntity
