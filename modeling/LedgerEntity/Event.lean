import LedgerEntity.Cache.Key
import LedgerEntity.Fields

/-!
# Log events

The events that the library reports while it works, each with its level, its
message and its named fields.
-/

namespace LedgerEntity

/--
How important an event is: of interest when following single calls, when looking for a
fault, or in normal operation.
-/
inductive Level where
  | trace
  | debug
  | info
  deriving DecidableEq, Repr

/-- The name of a level. -/
def Level.name : Level → String
  | trace => "TRACE"
  | debug => "DEBUG"
  | info => "INFO"

/--
What happened: a codec was made from settings, a look-up was answered from the cache, a
look-up dropped an entry past its time, an insertion drove out the entry of a key, or a
raw text was rejected.
-/
inductive Event where
  | configured (systemShard : UInt16) (cacheMaxSize cacheMaxAgeSecs : Nat)
  | hit (key : Key)
  | expired (key : Key)
  | evicted (key : Key)
  | rejected (key : Key) (parameter : Option String) (rejection : Rejection)
  deriving DecidableEq, Repr

namespace Event

/-- The level of an event. -/
def level : Event → Level
  | configured _ _ _ => .info
  | hit _ => .trace
  | expired _ => .debug
  | evicted _ => .debug
  | rejected _ _ _ => .debug

/-- The message of an event. -/
def message : Event → String
  | configured _ _ _ => "Entity ID codec configured"
  | hit _ => "Entity ID cache hit"
  | expired _ => "Entity ID cache entry expired"
  | evicted _ => "Evicted entity ID cache entry"
  | rejected _ _ _ => "Rejected entity ID"

/-- The fields that name a key. -/
def keyFields
    (key : Key) :
    List (String × String) :=
  [("raw", key.raw), ("flavor", key.flavor.name)]

/-- The named fields of an event. -/
def fields : Event → List (String × String)
  | configured shard size age =>
      [ ("system_shard", Decimal.text shard.toNat),
        ("cache_max_size", Decimal.text size),
        ("cache_max_age_secs", Decimal.text age) ]
  | hit key => keyFields key
  | expired key => keyFields key
  | evicted key => keyFields key
  | rejected key parameter rejection =>
      [ ("raw", key.raw), ("parameter", parameter.getD ""),
        ("flavor", key.flavor.name), ("rejection", rejection.name) ]

end Event
end LedgerEntity
