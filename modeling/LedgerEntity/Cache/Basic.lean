import LedgerEntity.Cache.Recency
import LedgerEntity.Document.Printer
import LedgerEntity.Event
import LedgerEntity.TimeSpan

/-!
# The cache of decoded IDs

A bounded memory of decoded IDs, each kept for a fixed time after it was put in.

The entries are kept by recency of use.  A look-up gets its entry, and pops it if
it has reached its age; an entry past its time that is not looked up stays.  An
insertion pushes its entry, which drives out the least recently used one of a full
cache.  A test for presence peeks and changes nothing.

The counters count without a bound.  None of them exceeds the number of steps, so
words of 64 bits show the same numbers in every run of fewer than 2 ^ 64 steps.

Every operation is a function of the cache and the time, and returns what it
found, the cache afterwards, and the events it reports.  The clock may go
backwards: an entry from the future has age zero.
-/

namespace LedgerEntity

/-- The time since an entry was put in; never negative. -/
def Entry.age
    (e : Entry)
    (now : Int) :
    TimeSpan :=
  ⟨(now - e.insertedAt).toNat⟩

/--
How often a look-up was answered, a look-up was not, an insertion drove an entry out,
and a look-up dropped an entry because of its age.
-/
structure Counters where
  hits : Nat := 0
  misses : Nat := 0
  evictions : Nat := 0
  expirations : Nat := 0
  deriving DecidableEq, Repr

/-- The counters as a document. -/
def Counters.document
    (c : Counters) :
    Document :=
  .object
    [ ("hits", .integer c.hits), ("misses", .integer c.misses),
      ("evictions", .integer c.evictions),
      ("expirations", .integer c.expirations) ]

/--
A bounded memory of decoded IDs: the largest number of entries, the age at which an
entry is of no use any more, and the entries, the most recently used first.
-/
structure Cache where
  capacity : Nat
  ttl : TimeSpan
  capacity_pos : 0 < capacity
  entries : List Entry := []
  counters : Counters := {}
  deriving DecidableEq, Repr

namespace Cache

/-- What an operation found, the cache after it, and the events it reports. -/
structure Answer (α : Type) where
  found : α
  cache : Cache
  events : List Event

/-- The entry of a key, of whatever age. -/
def entry?
    (c : Cache)
    (key : Key) :
    Option Entry :=
  Recency.peek c.entries key

/-- The entries of all other keys, in order. -/
def others
    (c : Cache)
    (key : Key) :
    List Entry :=
  Recency.others c.entries key

/-- Look a key up: an entry in time is used, an entry past its time is dropped. -/
def get
    (c : Cache)
    (key : Key)
    (now : Int) :
    Answer (Option EntityId) :=
  let promoted := Recency.get c.entries key
  match promoted.entry with
  | none =>
      { found := none
        cache :=
          { c with
            entries := promoted.entries
            counters := { c.counters with misses := c.counters.misses + 1 } }
        events := [] }
  | some e =>
      if c.ttl.nanoseconds ≤ (e.age now).nanoseconds then
        { found := none
          cache :=
            { c with
              entries := (Recency.pop promoted.entries key).entries
              counters :=
                { c.counters with
                  expirations := c.counters.expirations + 1
                  misses := c.counters.misses + 1 } }
          events := [.expired key] }
      else
        { found := some e.id
          cache :=
            { c with
              entries := promoted.entries
              counters := { c.counters with hits := c.counters.hits + 1 } }
          events := [.hit key] }

/--
Put an ID in: it replaces the entry of its key, or takes the place of the last
entry if the cache is full.  Only an entry of another key counts as driven out.
-/
def insert
    (c : Cache)
    (key : Key)
    (id : EntityId)
    (now : Int) :
    Answer Unit :=
  let pushed := Recency.push c.capacity c.entries ⟨key, id, now⟩
  let stored := { c with entries := pushed.entries }
  match pushed.entry with
  | none => ⟨(), stored, []⟩
  | some displaced =>
      if displaced.key != key then
        { found := ()
          cache :=
            { stored with
              counters := { c.counters with evictions := c.counters.evictions + 1 } }
          events := [.evicted displaced.key] }
      else
        ⟨(), stored, []⟩

/-- Whether a look-up would find the key now; nothing changes. -/
def contains
    (c : Cache)
    (key : Key)
    (now : Int) :
    Bool :=
  match Recency.peek c.entries key with
  | none => false
  | some e => decide ((e.age now).nanoseconds < c.ttl.nanoseconds)

/-- Drop all entries; the counters stay. -/
def clear
    (c : Cache) :
    Cache :=
  { c with entries := [] }

/-- The number of entries, those past their time included. -/
def size
    (c : Cache) :
    Nat :=
  c.entries.length

/-- Whether there is no entry. -/
def isEmpty
    (c : Cache) :
    Bool :=
  c.entries.isEmpty

/-- A one-line description with size, capacity and time to live. -/
def description
    (c : Cache) :
    String :=
  "EntityIdCache \x7b len: " ++ Decimal.text c.size
    ++ ", capacity: " ++ Decimal.text c.capacity
    ++ ", ttl: " ++ c.ttl.text ++ " \x7d"

/-- An empty cache. -/
def empty
    (capacity : Nat)
    (ttl : TimeSpan)
    (h : 0 < capacity) :
    Cache :=
  { capacity := capacity, ttl := ttl, capacity_pos := h }

/-- An empty cache has no entry. -/
@[simp] theorem entries_empty
    (capacity : Nat)
    (ttl : TimeSpan)
    (h : 0 < capacity) :
    (empty capacity ttl h).entries = [] :=
  rfl

/-- Clearing leaves no entry. -/
@[simp] theorem entries_clear
    (c : Cache) :
    c.clear.entries = [] :=
  rfl

/-- Clearing keeps the counters. -/
@[simp] theorem counters_clear
    (c : Cache) :
    c.clear.counters = c.counters :=
  rfl

end Cache
end LedgerEntity
