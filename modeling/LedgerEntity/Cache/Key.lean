import LedgerEntity.Flavor

/-!
# Cache keys

What the cache is looked up by: the raw text together with the flavor, since
one text may be accepted under one flavor and refused under another.
-/

namespace LedgerEntity

/-- A raw text under a flavor. -/
structure Key where
  raw : String
  flavor : Flavor
  deriving DecidableEq, Repr

end LedgerEntity
