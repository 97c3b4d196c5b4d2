/-!
# Address flavors

Which written forms of an address a place of use accepts, and the names of the
three flavors.
-/

namespace LedgerEntity

/--
Which written forms of an address are accepted: the bare and the qualified form, only the
bare form, with an optional `0x`, or only the qualified form, with up to two numerals in
front.
-/
inductive Flavor where
  | any
  | noShardRealm
  | optionalShardRealm
  deriving DecidableEq, Repr

namespace Flavor

/-- The flavor of a place of use that names none. -/
instance : Inhabited Flavor :=
  ⟨optionalShardRealm⟩

/-- All flavors, in the order in which error texts list them. -/
def all : List Flavor :=
  [any, noShardRealm, optionalShardRealm]

/-- The name of a flavor. -/
def name : Flavor → String
  | any => "any"
  | noShardRealm => "no-shard-realm"
  | optionalShardRealm => "optional-shard-realm"

/-- The flavor of a name; letter case counts. -/
def ofName?
    (s : String) :
    Option Flavor :=
  all.find? fun f => f.name == s

/-- The error text for a name that no flavor has. -/
def unknownMessage
    (s : String) :
    String :=
  "unknown EVM address flavor '" ++ s ++ "', expected one of: "
    ++ String.intercalate ", " (all.map name)

/-- A flavor is found by its own name. -/
@[simp] theorem ofName?_name
    (f : Flavor) :
    ofName? f.name = some f := by
  cases f <;> decide

end Flavor
end LedgerEntity
