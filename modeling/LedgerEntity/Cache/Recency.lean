import LedgerEntity.Cache.Key
import LedgerEntity.EntityId.Basic

/-!
# Entries by recency of use

The store under the cache: entries in a list, the most recently used first, with
a limit to their number and without a notion of age.

Peeking finds the entry of a key and leaves the order alone.  Getting finds it
and brings it to the front.  Popping takes it out.  Pushing brings an entry to
the front and hands back the one that it displaces: the former entry of its own
key, or the last of all if the key is new and there is no more room.  Only the
key that is handed back tells the two apart.
-/

namespace LedgerEntity

/-- One remembered ID, with the time in nanoseconds at which it was put in. -/
structure Entry where
  key : Key
  id : EntityId
  insertedAt : Int
  deriving DecidableEq, Repr

namespace Recency

/-- The entry that an operation finds or hands back, and the entries after it. -/
structure Result where
  entry : Option Entry
  entries : List Entry

/-- Find the entry of a key. -/
def peek
    (entries : List Entry)
    (key : Key) :
    Option Entry :=
  entries.find? fun e => e.key == key

/-- The entries of all other keys, in order. -/
def others
    (entries : List Entry)
    (key : Key) :
    List Entry :=
  entries.filter fun e => e.key != key

/-- Find the entry of a key and bring it to the front. -/
def get
    (entries : List Entry)
    (key : Key) :
    Result :=
  match peek entries key with
  | none => ⟨none, entries⟩
  | some e => ⟨some e, e :: others entries key⟩

/-- Take the entry of a key out. -/
def pop
    (entries : List Entry)
    (key : Key) :
    Result :=
  ⟨peek entries key, others entries key⟩

/-- Bring an entry to the front, and hand back the one that it displaces. -/
def push
    (capacity : Nat)
    (entries : List Entry)
    (e : Entry) :
    Result :=
  match peek entries e.key with
  | some former => ⟨some former, e :: others entries e.key⟩
  | none =>
      if entries.length < capacity then
        ⟨none, e :: entries⟩
      else
        ⟨entries.getLast?, e :: entries.dropLast⟩

section Laws

variable {entries : List Entry}
variable {key : Key}
variable {e : Entry}

theorem peek_eq_none_iff :
    peek entries key = none ↔ ∀ e ∈ entries, e.key ≠ key := by
  simp [peek]

/-- The entry found for a key is held and has that key. -/
theorem mem_of_peek_eq_some
    (h : peek entries key = some e) :
    e ∈ entries ∧ e.key = key := by
  refine ⟨List.mem_of_find?_eq_some h, ?_⟩
  simpa using List.find?_some h

/-- An entry at the front is the one found for its key. -/
theorem peek_cons
    (h : e.key = key) :
    peek (e :: entries) key = some e := by
  simp [peek, h]

@[simp] theorem mem_others_iff :
    e ∈ others entries key ↔ e ∈ entries ∧ e.key ≠ key := by
  simp [others]

/-- Without an entry of the key all entries are of other keys. -/
theorem others_of_peek_eq_none
    (h : peek entries key = none) :
    others entries key = entries := by
  rw [others, List.filter_eq_self]
  intro e he
  simpa using peek_eq_none_iff.1 h e he

/-- Getting finds nothing for a key without an entry, and changes nothing. -/
theorem get_of_absent
    (h : peek entries key = none) :
    get entries key = ⟨none, entries⟩ := by
  rw [get, h]

/-- Getting an entry makes it the most recently used. -/
theorem get_promotes
    (h : peek entries key = some e) :
    get entries key = ⟨some e, e :: others entries key⟩ := by
  rw [get, h]

/-- Popping takes out an entry that was brought to the front just before. -/
theorem pop_of_promoted
    (h : e.key = key) :
    pop (e :: others entries key) key = ⟨some e, others entries key⟩ := by
  simp [pop, peek_cons h, others, h]

/-- Pushing replaces the entry of the same key and hands the former one back. -/
theorem push_replaces
    (capacity : Nat)
    {former : Entry}
    (h : peek entries e.key = some former) :
    push capacity entries e = ⟨some former, e :: others entries e.key⟩ := by
  rw [push, h]

/-- Where there is room, pushing an entry of a new key hands nothing back. -/
theorem push_finds_room
    {capacity : Nat}
    (h : peek entries e.key = none)
    (hroom : entries.length < capacity) :
    push capacity entries e = ⟨none, e :: entries⟩ := by
  rw [push, h]
  exact if_pos hroom

/-- Where there is no room, pushing an entry of a new key drives out the last one. -/
theorem push_evicts_last
    {capacity : Nat}
    {newer : List Entry}
    {last : Entry}
    (h : peek (newer ++ [last]) e.key = none)
    (hfull : capacity ≤ (newer ++ [last]).length) :
    push capacity (newer ++ [last]) e = ⟨some last, e :: newer⟩ := by
  have hroom : ¬ (newer ++ [last]).length < capacity := Nat.not_lt.2 hfull
  simp only [push, h, if_neg hroom, List.getLast?_append, List.getLast?_singleton,
    Option.some_or, List.dropLast_concat]

end Laws

end Recency
end LedgerEntity
