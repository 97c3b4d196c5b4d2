import LedgerEntity.Cache.Basic
import LedgerEntity.Decode
import LedgerEntity.Settings.Basic

/-!
# Codecs

A codec reads entity IDs for one system shard and remembers what it read, if it
has a cache.

Only successful readings are remembered, under the raw text and the flavor.  An
absent value never reaches the cache: it is the null ID or an error, as the
place of use says.  A number is read by way of its decimal text.
-/

namespace LedgerEntity

/--
What the place of use says about a value: the name of the request parameter, for error
texts; whether an absent value is the null ID and no error; and which forms of an
address are accepted.
-/
structure ParseOptions where
  parameter : Option String := none
  nullable : Bool := false
  flavor : Flavor := default
  deriving DecidableEq, Repr

/--
A reader of entity IDs: the shard that stands in for the missing one of the short form,
and the remembered readings, if there is a cache.
-/
structure Codec where
  systemShard : UInt16
  cache : Option Cache := none
  deriving DecidableEq, Repr

namespace Codec

/-- What a codec answers, the codec afterwards, and the events it reports. -/
structure Answer (α : Type) where
  value : α
  codec : Codec
  events : List Event

/-- Make a codec from settings; a cache size of zero means no cache. -/
def ofSettings
    (s : Settings) :
    Except SettingsError (Answer Unit) := do
  let systemShard ← s.validate
  let cache :=
    if h : 0 < s.cacheMaxSize then
      some (Cache.empty s.cacheMaxSize s.cacheMaxAge h)
    else
      none
  .ok
    { value := ()
      codec := ⟨systemShard, cache⟩
      events := [.configured systemShard s.cacheMaxSize s.cacheMaxAgeSecs] }

/-- Look a key up in the cache, if there is one. -/
def lookUp
    (codec : Codec)
    (key : Key)
    (now : Int) :
    Answer (Option EntityId) :=
  match codec.cache with
  | none => ⟨none, codec, []⟩
  | some cache =>
      let answer := cache.get key now
      ⟨answer.found, { codec with cache := some answer.cache }, answer.events⟩

/-- Put a reading into the cache, if there is one. -/
def remember
    (codec : Codec)
    (key : Key)
    (id : EntityId)
    (now : Int) :
    Answer Unit :=
  match codec.cache with
  | none => ⟨(), codec, []⟩
  | some cache =>
      let answer := cache.insert key id now
      ⟨(), { codec with cache := some answer.cache }, answer.events⟩

/-- Read a raw text that is present. -/
def parsePresent
    (codec : Codec)
    (raw : String)
    (options : ParseOptions)
    (now : Int) :
    Answer (Except IdError EntityId) :=
  let key : Key := ⟨raw, options.flavor⟩
  let found := codec.lookUp key now
  match found.value with
  | some id => ⟨.ok id, found.codec, found.events⟩
  | none =>
      match decode raw options.flavor codec.systemShard with
      | .ok id =>
          let remembered := found.codec.remember key id now
          ⟨.ok id, remembered.codec, found.events ++ remembered.events⟩
      | .error rejection =>
          ⟨.error (rejection.toError raw options.parameter), found.codec,
            found.events ++ [.rejected key options.parameter rejection]⟩

/-- Read a raw text that may be absent. -/
def parse
    (codec : Codec)
    (raw : Option String)
    (options : ParseOptions)
    (now : Int) :
    Answer (Except IdError EntityId) :=
  match raw with
  | some text => codec.parsePresent text options now
  | none =>
      if options.nullable then
        ⟨.ok .null, codec, []⟩
      else
        ⟨.error (.nullNotAllowed options.parameter), codec, []⟩

/-- Read a packed ID that is a number already, by way of its decimal text. -/
def parsePacked
    (codec : Codec)
    (packed : Option Int)
    (options : ParseOptions)
    (now : Int) :
    Answer (Except IdError EntityId) :=
  codec.parse (packed.map Decimal.intText) options now

end Codec
end LedgerEntity
