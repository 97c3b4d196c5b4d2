import LedgerEntity.Codec.Basic

/-!
# Requests to a codec

What can be asked of a codec and of its cache, as data, and what comes back.

A run answers requests one after the other, each at its own time.  A request
that needs a cache is refused by a codec without one.
-/

namespace LedgerEntity

/-- Something to ask of a codec: a reading, or an operation on its cache. -/
inductive Request where
  | parse (raw : Option String) (options : ParseOptions)
  | parsePacked (packed : Option Int) (options : ParseOptions)
  | get (key : Key)
  | insert (key : Key) (id : EntityId)
  | contains (key : Key)
  | clear
  | describe
  deriving DecidableEq, Repr

/--
What comes back: the outcome of a reading, what a look-up found, whether it would find
something, nothing to tell, a description, or that there is no cache.
-/
inductive Reply where
  | parsed (result : Except IdError EntityId)
  | found (id : Option EntityId)
  | present (answer : Bool)
  | done
  | description (text : String)
  | noCache

namespace Codec

/-- Carry out a request that needs the cache. -/
def withCache
    (codec : Codec)
    (act : Cache → Cache.Answer Reply) :
    Answer Reply :=
  match codec.cache with
  | none => ⟨.noCache, codec, []⟩
  | some cache =>
      let answer := act cache
      ⟨answer.found, { codec with cache := some answer.cache }, answer.events⟩

/-- Carry out a request. -/
def perform
    (codec : Codec)
    (now : Int) :
    Request → Answer Reply
  | .parse raw options =>
      let answer := codec.parse raw options now
      ⟨.parsed answer.value, answer.codec, answer.events⟩
  | .parsePacked packed options =>
      let answer := codec.parsePacked packed options now
      ⟨.parsed answer.value, answer.codec, answer.events⟩
  | .get key =>
      codec.withCache fun cache =>
        let answer := cache.get key now
        ⟨.found answer.found, answer.cache, answer.events⟩
  | .insert key id =>
      codec.withCache fun cache =>
        let answer := cache.insert key id now
        ⟨.done, answer.cache, answer.events⟩
  | .contains key =>
      codec.withCache fun cache =>
        ⟨.present (cache.contains key now), cache, []⟩
  | .clear => codec.withCache fun cache => ⟨.done, cache.clear, []⟩
  | .describe =>
      codec.withCache fun cache => ⟨.description cache.description, cache, []⟩

/-- Carry out requests one after the other, each at its own time. -/
def run
    (codec : Codec) :
    List (Int × Request) → List (Answer Reply)
  | [] => []
  | (now, request) :: later =>
      let answer := codec.perform now request
      answer :: answer.codec.run later

end Codec
end LedgerEntity
