import LedgerEntity.Cache.Basic
import Mathlib.Data.Finset.Card
import Mathlib.Data.List.Nodup
import Mathlib.Tactic

/-!
# What the operations do to the entries

Each operation of the cache is described once, by all the outcomes it can have.
A look-up misses, drops an entry past its time, or uses an entry in time.  An
insertion takes the place of an entry of its own key, finds room, or drives out
the last entry.

The main invariant says that the keys of the entries are distinct and that
there are no more entries than the capacity allows.
-/

namespace LedgerEntity
namespace Cache

section Entries

variable (c : Cache)
variable (key : Key)
variable (id : EntityId)
variable (now : Int)

/-- The keys of the entries, the most recently used first. -/
def keys : List Key :=
  c.entries.map Entry.key

theorem mem_keys_iff :
    key ∈ c.keys ↔ ∃ e ∈ c.entries, e.key = key := by
  simp [keys]

theorem length_keys :
    c.keys.length = c.entries.length := by
  simp [keys]

/-- No entry is found exactly for the keys that are not held. -/
theorem entry?_eq_none_iff :
    c.entry? key = none ↔ key ∉ c.keys := by
  rw [mem_keys_iff]
  exact Recency.peek_eq_none_iff.trans (by simp)

/-- The entry found for a key is held and has that key. -/
theorem mem_of_entry?_eq_some
    {e : Entry}
    (h : c.entry? key = some e) :
    e ∈ c.entries ∧ e.key = key :=
  Recency.mem_of_peek_eq_some h

theorem mem_others_iff
    (e : Entry) :
    e ∈ c.others key ↔ e ∈ c.entries ∧ e.key ≠ key :=
  Recency.mem_others_iff

/-- The keys of the other entries are the other keys. -/
theorem map_key_others :
    (c.others key).map Entry.key = c.keys.filter (· ≠ key) := by
  have hne : (fun e : Entry => e.key != key) = fun e => decide (e.key ≠ key) := by
    funext e
    by_cases h : e.key = key <;> simp [h]
  rw [others, Recency.others, hne, keys, List.filter_map]
  rfl

theorem others_of_not_mem
    {c : Cache}
    {key : Key}
    (h : key ∉ c.keys) :
    c.others key = c.entries :=
  Recency.others_of_peek_eq_none ((c.entry?_eq_none_iff key).2 h)

/-- A look-up misses, drops an entry past its time, or uses an entry in time. -/
theorem get_cases :
    (key ∉ c.keys ∧
      c.get key now =
        { found := none
          cache :=
            { c with
              counters := { c.counters with misses := c.counters.misses + 1 } }
          events := [] })
      ∨
    (∃ e ∈ c.entries, e.key = key ∧
      c.ttl.nanoseconds ≤ (e.age now).nanoseconds ∧
      c.get key now =
        { found := none
          cache :=
            { c with
              entries := c.others key
              counters :=
                { c.counters with
                  expirations := c.counters.expirations + 1
                  misses := c.counters.misses + 1 } }
          events := [.expired key] })
      ∨
    (∃ e ∈ c.entries, e.key = key ∧
      (e.age now).nanoseconds < c.ttl.nanoseconds ∧
      c.get key now =
        { found := some e.id
          cache :=
            { c with
              entries := e :: c.others key
              counters := { c.counters with hits := c.counters.hits + 1 } }
          events := [.hit key] }) := by
  cases hentry : c.entry? key with
  | none =>
      left
      refine ⟨(c.entry?_eq_none_iff key).1 hentry, ?_⟩
      simp only [get, Recency.get_of_absent hentry]
  | some e =>
      obtain ⟨hmem, hkey⟩ := c.mem_of_entry?_eq_some key hentry
      right
      by_cases hage : c.ttl.nanoseconds ≤ (e.age now).nanoseconds
      · left
        refine ⟨e, hmem, hkey, hage, ?_⟩
        simp only [get, Recency.get_promotes hentry, hage, if_true,
          Recency.pop_of_promoted hkey, others]
      · right
        refine ⟨e, hmem, hkey, by omega, ?_⟩
        simp only [get, Recency.get_promotes hentry, hage, if_false, others]

/-- A full cache without the key has a last entry, which an entry of the key drives out. -/
theorem exists_push_evicts
    {e : Entry}
    (habsent : e.key ∉ c.keys)
    (hfull : c.capacity ≤ c.entries.length) :
    ∃ newer last,
      c.entries = newer ++ [last] ∧
      last.key ≠ e.key ∧
      Recency.push c.capacity c.entries e = ⟨some last, e :: newer⟩ := by
  have hne : c.entries ≠ [] := by
    have hpos := c.capacity_pos
    intro hnil
    simp [hnil] at hfull
    omega
  have hsplit := List.dropLast_append_getLast hne
  generalize c.entries.dropLast = newer, c.entries.getLast hne = last at hsplit
  have hlast : last ∈ c.entries := by
    rw [← hsplit]
    exact List.mem_append_right _ (List.mem_singleton_self _)
  have hnone : Recency.peek (newer ++ [last]) e.key = none := by
    rw [hsplit]
    exact (c.entry?_eq_none_iff e.key).2 habsent
  refine ⟨newer, last, hsplit.symm, ?_, ?_⟩
  · exact fun hkey => habsent ((c.mem_keys_iff e.key).2 ⟨last, hlast, hkey⟩)
  · rw [← hsplit] at hfull ⊢
    exact Recency.push_evicts_last hnone hfull

/--
An insertion takes the place of an entry of its own key or finds room, or else
drives out the last entry.
-/
theorem insert_cases :
    ((key ∈ c.keys ∨ c.entries.length < c.capacity) ∧
      c.insert key id now =
        { found := ()
          cache := { c with entries := ⟨key, id, now⟩ :: c.others key }
          events := [] })
      ∨
    (∃ newer last, key ∉ c.keys ∧ c.capacity ≤ c.entries.length ∧
      c.entries = newer ++ [last] ∧
      c.insert key id now =
        { found := ()
          cache :=
            { c with
              entries := ⟨key, id, now⟩ :: newer
              counters :=
                { c.counters with evictions := c.counters.evictions + 1 } }
          events := [.evicted last.key] }) := by
  let e : Entry := ⟨key, id, now⟩
  cases hentry : c.entry? key with
  | some former =>
      -- The entry that is handed back has the key itself, so nothing was driven out.
      obtain ⟨hmem, hkey⟩ := c.mem_of_entry?_eq_some key hentry
      have hreplaced :
          Recency.push c.capacity c.entries e = ⟨some former, e :: c.others key⟩ :=
        Recency.push_replaces c.capacity hentry
      left
      refine ⟨Or.inl ((c.mem_keys_iff key).2 ⟨former, hmem, hkey⟩), ?_⟩
      simp [insert, e, hreplaced, hkey]
  | none =>
      have habsent := (c.entry?_eq_none_iff key).1 hentry
      by_cases hroom : c.entries.length < c.capacity
      · have hpushed : Recency.push c.capacity c.entries e = ⟨none, e :: c.entries⟩ :=
          Recency.push_finds_room hentry hroom
        left
        refine ⟨Or.inr hroom, ?_⟩
        simp [insert, e, hpushed, others_of_not_mem habsent]
      · obtain ⟨newer, last, hsplit, hother, hpushed⟩ :=
          c.exists_push_evicts (e := e) habsent (Nat.not_lt.1 hroom)
        right
        refine ⟨newer, last, habsent, Nat.not_lt.1 hroom, hsplit, ?_⟩
        simp [insert, e, hpushed, hother]

/-- A look-up brings in no entry. -/
theorem mem_of_mem_entries_get
    {e : Entry}
    (h : e ∈ (c.get key now).cache.entries) :
    e ∈ c.entries := by
  rcases c.get_cases key now with ⟨-, hget⟩ | ⟨e', -, -, -, hget⟩ | ⟨e', he', -, -, hget⟩
  · simpa [hget] using h
  · rw [hget] at h
    exact ((c.mem_others_iff key e).1 h).1
  · rw [hget] at h
    rcases List.mem_cons.1 h with rfl | h
    · exact he'
    · exact ((c.mem_others_iff key e).1 h).1

/-- What a look-up finds is the ID of an entry of that very key, in time. -/
theorem exists_entry_of_found_get
    {id : EntityId}
    (h : (c.get key now).found = some id) :
    ∃ e ∈ c.entries, e.key = key ∧ e.id = id ∧
      (e.age now).nanoseconds < c.ttl.nanoseconds := by
  rcases c.get_cases key now with
    ⟨-, hget⟩ | ⟨e, -, -, -, hget⟩ | ⟨e, he, hkey, hage, hget⟩
  · simp [hget] at h
  · simp [hget] at h
  · simp only [hget, Option.some.injEq] at h
    exact ⟨e, he, hkey, h, hage⟩

/-- An insertion brings in its own entry and no other. -/
theorem mem_of_mem_entries_insert
    {e : Entry}
    (h : e ∈ (c.insert key id now).cache.entries) :
    e = ⟨key, id, now⟩ ∨ e ∈ c.entries := by
  rcases c.insert_cases key id now with ⟨-, hinsert⟩ | ⟨newer, last, -, -, hsplit, hinsert⟩
  · rw [hinsert] at h
    rcases List.mem_cons.1 h with rfl | h
    · exact Or.inl rfl
    · exact Or.inr ((c.mem_others_iff key e).1 h).1
  · rw [hinsert] at h
    rcases List.mem_cons.1 h with rfl | h
    · exact Or.inl rfl
    · right
      rw [hsplit]
      exact List.mem_append_left _ h

end Entries

end Cache
end LedgerEntity
