import LedgerEntity.Mismatch
import LedgerEntity.Settings.Basic

/-!
# Settings from documents

Settings are read from an object with named fields or from a list of the fields
in order.

A missing field leaves its default and an unknown field is ignored.  Of several
faults in an object the one with the least name is reported, and in a list the
first.  A list must not have more items than there are fields.
-/

namespace LedgerEntity
namespace Settings

/-- Read a field that must be a 64-bit word; `kind` is its name in error texts. -/
def wordOfDocument
    (kind : String) :
    Document → Except Mismatch Nat
  | .integer n =>
      if 0 ≤ n then .ok n.toNat
      else .error (.invalidValue (.integer n) kind)
  | other => .error (.invalidType other.found kind)

/-- Read a field that may be missing. -/
def fieldOr
    (kind : String)
    (fallback : Nat) :
    Option Document → Except Mismatch Nat
  | none => .ok fallback
  | some d => wordOfDocument kind d

/-- Read settings from a document. -/
def ofDocument : Document → Except Mismatch Settings
  | .object members => do
      let defaults : Settings := {}
      let age ←
        fieldOr "u64" defaults.cacheMaxAgeSecs
          (Document.member? "cache_max_age_secs" members)
      let size ←
        fieldOr "usize" defaults.cacheMaxSize
          (Document.member? "cache_max_size" members)
      let shard ←
        fieldOr "u64" defaults.systemShard
          (Document.member? "system_shard" members)
      .ok ⟨shard, size, age⟩
  | .list items => do
      let defaults : Settings := {}
      let shard ← fieldOr "u64" defaults.systemShard items[0]?
      let size ← fieldOr "usize" defaults.cacheMaxSize items[1]?
      let age ← fieldOr "u64" defaults.cacheMaxAgeSecs items[2]?
      if 3 < items.length then
        .error (.invalidLength items.length "fewer elements in array")
      else
        .ok ⟨shard, size, age⟩
  | other => .error (.invalidType other.found "struct EntityIdConfig")

end Settings
end LedgerEntity
