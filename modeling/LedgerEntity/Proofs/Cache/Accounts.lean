import LedgerEntity.Proofs.Cache.Residency

/-!
# The accounts of the cache

What the counters and the events of a run say about the run.

Every look-up is a hit or a miss.  An entry comes in when a key is put in that is
not held, and it goes out by being driven out, dropped or cleared away, so the
entries that came in are the entries that are there and those that went out.
Each hit, each dropped entry and each entry driven out is reported once.

The accounts are kept relative to the cache in which a run starts, whatever it
holds and has counted.  Then the accounts of one step are all that has to be
looked at, since accounts of successive runs add up.
-/

namespace LedgerEntity

/-- No counter exceeds a number; the same holds of all look-ups and of all lost entries. -/
structure Counters.AtMost
    (counters : Counters)
    (n : Nat) : Prop where
  lookUps_le : counters.hits + counters.misses ≤ n
  losses_le : counters.evictions + counters.expirations ≤ n

theorem Counters.AtMost.mono
    {counters : Counters}
    {m n : Nat}
    (h : counters.AtMost m)
    (hle : m ≤ n) :
    counters.AtMost n :=
  ⟨h.lookUps_le.trans hle, h.losses_le.trans hle⟩

namespace Cache

section Definitions

/-- Whether a step looks a key up. -/
def Step.isLookUp
    (s : Step) :
    Bool :=
  match s.operation with
  | .get _ => true
  | _ => false

variable (c : Cache)

/-- The events that a step reports. -/
def stepEvents
    (s : Step) :
    List Event :=
  match s.operation with
  | .insert key id => (c.insert key id s.now).events
  | .get key => (c.get key s.now).events
  | _ => []

/-- One for a step that puts in a key that is not held. -/
def stepNewEntries
    (s : Step) :
    Nat :=
  match s.operation with
  | .insert key _ => if key ∈ c.keys then 0 else 1
  | _ => 0

/-- The number of entries that a step clears away. -/
def stepDiscarded
    (s : Step) :
    Nat :=
  match s.operation with
  | .clear => c.size
  | _ => 0

end Definitions

/-- The events that a run reports, in order. -/
def runEvents
    (c : Cache) :
    List Step → List Event
  | [] => []
  | s :: later => c.stepEvents s ++ (c.step s).runEvents later

/-- How many steps of a run put in a key that is not held at that moment. -/
def newEntries
    (c : Cache) :
    List Step → Nat
  | [] => 0
  | s :: later => c.stepNewEntries s + (c.step s).newEntries later

/-- How many entries the steps of a run clear away. -/
def discarded
    (c : Cache) :
    List Step → Nat
  | [] => 0
  | s :: later => c.stepDiscarded s + (c.step s).discarded later

/-- What a run adds to the counters, in terms of its steps and of its events. -/
structure Accounts
    (c : Cache)
    (steps : List Step) : Prop where
  lookUps :
    (c.after steps).counters.hits + (c.after steps).counters.misses =
      c.counters.hits + c.counters.misses + steps.countP Step.isLookUp
  expirations_le :
    (c.after steps).counters.expirations + c.counters.misses ≤
      c.counters.expirations + (c.after steps).counters.misses
  entries :
    (c.after steps).size + (c.after steps).counters.evictions +
        (c.after steps).counters.expirations + c.discarded steps =
      c.size + c.counters.evictions + c.counters.expirations + c.newEntries steps
  hitEvents :
    (c.after steps).counters.hits =
      c.counters.hits + ((c.runEvents steps).map Event.message).count "Entity ID cache hit"
  expiredEvents :
    (c.after steps).counters.expirations =
      c.counters.expirations +
        ((c.runEvents steps).map Event.message).count "Entity ID cache entry expired"
  evictedEvents :
    (c.after steps).counters.evictions =
      c.counters.evictions +
        ((c.runEvents steps).map Event.message).count "Evicted entity ID cache entry"

section Runs

@[simp] theorem counters_empty
    (capacity : Nat)
    (ttl : TimeSpan)
    (hcapacity : 0 < capacity) :
    (empty capacity ttl hcapacity).counters = {} :=
  rfl

@[simp] theorem size_empty
    (capacity : Nat)
    (ttl : TimeSpan)
    (hcapacity : 0 < capacity) :
    (empty capacity ttl hcapacity).size = 0 :=
  rfl

variable (c : Cache)

theorem runEvents_append
    (steps later : List Step) :
    c.runEvents (steps ++ later) =
      c.runEvents steps ++ (c.after steps).runEvents later := by
  induction steps generalizing c with
  | nil =>
      rfl
  | cons s steps ih =>
      simp [runEvents, ih]

theorem newEntries_append
    (steps later : List Step) :
    c.newEntries (steps ++ later) =
      c.newEntries steps + (c.after steps).newEntries later := by
  induction steps generalizing c with
  | nil =>
      simp [newEntries]
  | cons s steps ih =>
      simp [newEntries, ih, Nat.add_assoc]

theorem discarded_append
    (steps later : List Step) :
    c.discarded (steps ++ later) =
      c.discarded steps + (c.after steps).discarded later := by
  induction steps generalizing c with
  | nil =>
      simp [discarded]
  | cons s steps ih =>
      simp [discarded, ih, Nat.add_assoc]

@[simp] theorem runEvents_singleton
    (s : Step) :
    c.runEvents [s] = c.stepEvents s := by
  simp [runEvents]

@[simp] theorem newEntries_singleton
    (s : Step) :
    c.newEntries [s] = c.stepNewEntries s := by
  simp [newEntries]

@[simp] theorem discarded_singleton
    (s : Step) :
    c.discarded [s] = c.stepDiscarded s := by
  simp [discarded]

theorem newEntries_le_length
    (steps : List Step) :
    c.newEntries steps ≤ steps.length := by
  induction steps generalizing c with
  | nil =>
      exact le_refl 0
  | cons s later ih =>
      have hlater := ih (c.step s)
      have hfirst : c.stepNewEntries s ≤ 1 := by
        unfold stepNewEntries
        split
        · split <;> omega
        · omega
      rw [newEntries, List.length_cons]
      omega

variable {c}

theorem accounts_nil :
    c.Accounts [] := by
  constructor <;> simp [runEvents, newEntries, discarded, Nat.add_comm]

/-- The accounts of successive runs add up. -/
theorem Accounts.append
    {steps later : List Step}
    (h : c.Accounts steps)
    (hlater : (c.after steps).Accounts later) :
    c.Accounts (steps ++ later) := by
  obtain ⟨h₁, h₂, h₃, h₄, h₅, h₆⟩ := h
  obtain ⟨l₁, l₂, l₃, l₄, l₅, l₆⟩ := hlater
  constructor
  · rw [after_append, List.countP_append]
    omega
  · rw [after_append]
    omega
  · rw [after_append, discarded_append, newEntries_append]
    omega
  · rw [after_append, runEvents_append, List.map_append, List.count_append]
    omega
  · rw [after_append, runEvents_append, List.map_append, List.count_append]
    omega
  · rw [after_append, runEvents_append, List.map_append, List.count_append]
    omega

end Runs

section OneStep

variable {c : Cache}
variable {key : Key}

/-- Without the entry of a held key there is one entry less. -/
theorem length_others_of_mem
    (hnodup : c.keys.Nodup)
    (hmem : key ∈ c.keys) :
    (c.others key).length + 1 = c.entries.length := by
  have hfilter : c.keys.filter (· ≠ key) = c.keys.erase key := by
    rw [hnodup.erase_eq_filter]
    exact List.filter_congr fun k _ => by by_cases hk : k = key <;> simp [hk]
  have hpos : 0 < c.keys.length := List.length_pos_of_mem hmem
  have hlength := List.length_erase_of_mem hmem
  rw [← hfilter, ← c.map_key_others key, List.length_map] at hlength
  rw [← c.length_keys]
  omega

theorem accounts_get
    (hnodup : c.keys.Nodup)
    (key : Key)
    (now : Int) :
    c.Accounts [⟨now, .get key⟩] := by
  rcases c.get_cases key now with
    ⟨-, hget⟩ | ⟨e, he, hkey, -, hget⟩ | ⟨e, he, hkey, -, hget⟩
  · constructor <;>
      simp [step, hget, stepEvents, stepNewEntries, stepDiscarded, size, Step.isLookUp,
        Nat.add_assoc]
  · have hlength := length_others_of_mem hnodup ((c.mem_keys_iff key).2 ⟨e, he, hkey⟩)
    constructor <;>
      simp [step, hget, stepEvents, stepNewEntries, stepDiscarded, size, Step.isLookUp,
        Event.message] <;>
      omega
  · have hlength := length_others_of_mem hnodup ((c.mem_keys_iff key).2 ⟨e, he, hkey⟩)
    constructor <;>
      simp [step, hget, stepEvents, stepNewEntries, stepDiscarded, size, Step.isLookUp,
        Event.message] <;>
      omega

theorem accounts_insert
    (hnodup : c.keys.Nodup)
    (key : Key)
    (id : EntityId)
    (now : Int) :
    c.Accounts [⟨now, .insert key id⟩] := by
  rcases c.insert_cases key id now with
    ⟨-, hinsert⟩ | ⟨newer, last, habsent, -, hsplit, hinsert⟩
  · by_cases hmem : key ∈ c.keys
    · have hlength := length_others_of_mem hnodup hmem
      constructor <;>
        simp [step, hinsert, stepEvents, stepNewEntries, stepDiscarded, size,
          Step.isLookUp, hmem]
      case entries => omega
    · have hothers := others_of_not_mem hmem
      constructor <;>
        simp [step, hinsert, stepEvents, stepNewEntries, stepDiscarded, size,
          Step.isLookUp, hmem, hothers]
      case entries => omega
  · constructor <;>
      simp [step, hinsert, stepEvents, stepNewEntries, stepDiscarded, size,
        Step.isLookUp, habsent, hsplit, Event.message]
    case entries => omega

theorem accounts_step
    (h : c.Bounded)
    (s : Step) :
    c.Accounts [s] := by
  obtain ⟨now, operation⟩ := s
  cases operation with
  | insert key id =>
      exact accounts_insert h.nodup key id now
  | get key =>
      exact accounts_get h.nodup key now
  | contains key =>
      constructor <;>
        simp [step, stepEvents, stepNewEntries, stepDiscarded, Step.isLookUp,
          Nat.add_comm]
  | clear =>
      constructor <;>
        simp [step, stepEvents, stepNewEntries, stepDiscarded, size, Step.isLookUp]
      case entries => omega

/-- The accounts of a run are those of its steps. -/
theorem accounts_of_bounded
    (h : c.Bounded)
    (steps : List Step) :
    c.Accounts steps := by
  induction steps generalizing c with
  | nil =>
      exact accounts_nil
  | cons s later ih =>
      have hlater : (c.after [s]).Accounts later := ih (h.step s)
      exact (accounts_step h s).append hlater

/--
From an empty cache on, no counter exceeds the number of steps.

So counters in words of a fixed width agree with these for as many steps as such
a word can count.
-/
theorem counters_after_empty_atMost
    (capacity : Nat)
    (ttl : TimeSpan)
    (hcapacity : 0 < capacity)
    (steps : List Step) :
    ((empty capacity ttl hcapacity).after steps).counters.AtMost steps.length := by
  have haccounts := accounts_of_bounded (bounded_empty capacity ttl hcapacity) steps
  have hlookUps := haccounts.lookUps
  have hentries := haccounts.entries
  have hcount := List.countP_le_length (p := Step.isLookUp) (l := steps)
  have hnew := (empty capacity ttl hcapacity).newEntries_le_length steps
  simp only [counters_empty, size_empty] at hlookUps hentries
  constructor <;> omega

/-- The only entry that is reported as driven out is one that was there and is gone. -/
theorem evicted_of_mem_stepEvents
    (h : c.Bounded)
    {s : Step}
    (hevent : .evicted key ∈ c.stepEvents s) :
    key ∈ c.keys ∧ key ∉ (c.step s).keys := by
  obtain ⟨now, operation⟩ := s
  cases operation with
  | insert new id =>
      rcases c.insert_cases new id now with
        ⟨-, hinsert⟩ | ⟨newer, last, habsent, -, hsplit, hinsert⟩
      · simp [stepEvents, hinsert] at hevent
      · obtain rfl : key = last.key := by simpa [stepEvents, hinsert] using hevent
        have hkeys : c.keys = newer.map Entry.key ++ [last.key] := by
          simp [keys, hsplit]
        have hnodup := h.nodup
        rw [hkeys, List.nodup_append] at hnodup
        rw [hkeys, List.mem_append, not_or, List.mem_singleton] at habsent
        refine ⟨by simp [hkeys], ?_⟩
        simp only [step, hinsert, keys, List.map_cons, List.mem_cons, not_or]
        refine ⟨fun heq => habsent.2 heq.symm, fun hmem => ?_⟩
        exact hnodup.2.2 _ hmem _ (List.mem_singleton_self _) rfl
  | get key' =>
      rcases c.get_cases key' now with
        ⟨-, hget⟩ | ⟨e, -, -, -, hget⟩ | ⟨e, -, -, -, hget⟩ <;>
        simp [stepEvents, hget] at hevent
  | contains key' =>
      simp [stepEvents] at hevent
  | clear =>
      simp [stepEvents] at hevent

end OneStep

section Hits

variable (c : Cache)
variable (key : Key)
variable (id : EntityId)
variable (now : Int)

theorem hit_mem_events_get :
    .hit key ∈ (c.get key now).events ↔ (c.get key now).found.isSome := by
  rcases c.get_cases key now with ⟨-, hget⟩ | ⟨e, -, -, -, hget⟩ | ⟨e, -, -, -, hget⟩ <;>
    simp [hget]

theorem hit_not_mem_events_insert :
    .hit key ∉ (c.insert key id now).events := by
  rcases c.insert_cases key id now with ⟨-, hinsert⟩ | ⟨newer, last, -, -, -, hinsert⟩ <;>
    simp [hinsert]

theorem hits_get :
    (c.get key now).cache.counters.hits =
      c.counters.hits + if (c.get key now).found.isSome then 1 else 0 := by
  rcases c.get_cases key now with ⟨-, hget⟩ | ⟨e, -, -, -, hget⟩ | ⟨e, -, -, -, hget⟩ <;>
    simp [hget]

theorem hits_insert :
    (c.insert key id now).cache.counters.hits = c.counters.hits := by
  rcases c.insert_cases key id now with ⟨-, hinsert⟩ | ⟨newer, last, -, -, -, hinsert⟩ <;>
    simp [hinsert]

end Hits

end Cache
end LedgerEntity
