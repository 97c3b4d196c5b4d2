import LedgerEntity.Document.Basic
import LedgerEntity.Limits
import LedgerEntity.TimeSpan

/-!
# Settings

The settings of a codec: the system shard, and the size and age limits of its
cache.

The shard is checked against the largest shard when the settings are put to
use; reading them from a document does not check it.
-/

namespace LedgerEntity

/--
The settings of a codec: the shard that stands in for the missing one of the short form,
the largest number of cached IDs, where zero turns the cache off, and how many seconds an
ID stays cached.
-/
structure Settings where
  systemShard : Nat := 0
  cacheMaxSize : Nat := 100000
  cacheMaxAgeSecs : Nat := 1800
  deriving DecidableEq, Repr

/--
Why settings cannot be used: the value of an environment variable is no number, or the
system shard is larger than every shard.
-/
inductive SettingsError where
  | invalidValue (name value : String)
  | shardOutOfRange (shard : Nat)
  deriving DecidableEq, Repr

/-- The wording of an error; the value is quoted as it was given. -/
def SettingsError.message : SettingsError → String
  | invalidValue name value =>
      "invalid value for " ++ name ++ ": '" ++ value ++ "'"
  | shardOutOfRange shard =>
      "system shard " ++ Decimal.text shard ++ " exceeds the maximum shard "
        ++ Decimal.text maxShard

namespace Settings

/-- The system shard as a word, if it is in range. -/
def validate
    (s : Settings) :
    Except SettingsError UInt16 :=
  if maxShard < s.systemShard then
    .error (.shardOutOfRange s.systemShard)
  else
    .ok (UInt16.ofNat s.systemShard)

/-- How long an ID stays cached. -/
def cacheMaxAge
    (s : Settings) :
    TimeSpan :=
  .ofSeconds s.cacheMaxAgeSecs

/-- The settings as a document. -/
def document
    (s : Settings) :
    Document :=
  .object
    [ ("system_shard", .integer s.systemShard),
      ("cache_max_size", .integer s.cacheMaxSize),
      ("cache_max_age_secs", .integer s.cacheMaxAgeSecs) ]

end Settings
end LedgerEntity
