/-!
# Limits

The bit widths of the three fields of an entity ID, and what follows from them:
the largest value of each field, the largest packed value, and the length of an
address in bytes.
-/

namespace LedgerEntity

/-- The width of a num in bits. -/
def numBits : Nat := 32

/-- The width of a realm in bits. -/
def realmBits : Nat := 16

/-- The width of a shard in bits; the sign bit of the packed value stays free. -/
def shardBits : Nat := 15

/-- The largest num. -/
def maxNum : Nat := (1 <<< numBits) - 1

/-- The largest realm. -/
def maxRealm : Nat := (1 <<< realmBits) - 1

/-- The largest shard. -/
def maxShard : Nat := (1 <<< shardBits) - 1

/-- The largest packed value. -/
def maxPacked : Nat := (1 <<< (shardBits + realmBits + numBits)) - 1

/-- The length of an address in bytes. -/
def addressLength : Nat := 20

/-- The largest values in decimal. -/
theorem limits_eq :
    maxShard = 32767 ∧ maxRealm = 65535 ∧ maxNum = 4294967295
      ∧ maxPacked = 9223372036854775807 := by
  decide

end LedgerEntity
