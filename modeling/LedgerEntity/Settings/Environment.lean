import LedgerEntity.Settings.Basic
import LedgerEntity.Text.Blank

/-!
# Settings from the environment

Three environment variables hold the settings; a variable that is not set
leaves the default.

The white space at both ends of a value is ignored, and the rest must be a
64-bit word.  The first fault is reported, in the order shard, size, age; the
range of the shard is checked last.
-/

namespace LedgerEntity

/-- The values, by name, of the environment variables that hold settings. -/
abbrev Environment :=
  String → Option String

namespace Environment

/-- The variable of the system shard. -/
def shardName : String :=
  "MIRROR_SHARD"

/-- The variable of the cache size. -/
def cacheMaxSizeName : String :=
  "MIRROR_CACHE_ENTITY_ID_MAX_SIZE"

/-- The variable of the age limit. -/
def cacheMaxAgeName : String :=
  "MIRROR_CACHE_ENTITY_ID_MAX_AGE"

/-- The variables that hold settings. -/
def names : List String :=
  [shardName, cacheMaxSizeName, cacheMaxAgeName]

/-- The environment with the given values; all other variables are not set. -/
def ofList
    (values : List (String × String)) :
    Environment :=
  fun name => values.lookup name

/-- The text of a raw value; bytes that are no UTF-8 count as not set. -/
def ofBytes?
    (bytes : List UInt8) :
    Option String :=
  String.fromUTF8? ⟨bytes.toArray⟩

/-- The number in a variable, or the default if it is not set. -/
def number
    (environment : Environment)
    (name : String)
    (fallback : Nat) :
    Except SettingsError Nat :=
  match environment name with
  | none => .ok fallback
  | some value =>
      match Decimal.readWord? (Blank.trim value.toList) with
      | some n => .ok n
      | none => .error (.invalidValue name value)

end Environment

/-- The settings in the environment. -/
def Settings.ofEnvironment
    (environment : Environment) :
    Except SettingsError Settings := do
  let defaults : Settings := {}
  let shard ← environment.number Environment.shardName defaults.systemShard
  let size ←
    environment.number Environment.cacheMaxSizeName defaults.cacheMaxSize
  let age ←
    environment.number Environment.cacheMaxAgeName defaults.cacheMaxAgeSecs
  let settings : Settings := ⟨shard, size, age⟩
  let _ ← settings.validate
  .ok settings

end LedgerEntity
