import LedgerEntity.Proofs.Cache.Entries

/-!
# Runs of cache operations

A run carries out operations one after the other, each at its own time.  Times
need not be in order.

A step touches the key it puts in, or the key it looks up and finds.  A look-up
of a held key that finds nothing drops the entry, which is past its time.  The
history of a run is the list of touched keys, the list of dropped keys, and for
each key the number of the step that touched it last.

The main facts describe one step by what it does to the list of keys, and say
how the history grows when a step is added at the end.
-/

namespace LedgerEntity
namespace Cache

/-- An operation on a cache. -/
inductive Operation where
  | insert (key : Key) (id : EntityId)
  | get (key : Key)
  | contains (key : Key)
  | clear
  deriving DecidableEq, Repr

/-- An operation at its time in nanoseconds. -/
structure Step where
  now : Int
  operation : Operation
  deriving DecidableEq, Repr

section Definitions

variable (c : Cache)

/-- The cache after one step. -/
def step
    (s : Step) :
    Cache :=
  match s.operation with
  | .insert key id => (c.insert key id s.now).cache
  | .get key => (c.get key s.now).cache
  | .contains _ => c
  | .clear => c.clear

/-- The cache after a run. -/
def after
    (steps : List Step) :
    Cache :=
  steps.foldl step c

/-- The key that a step touches: the one put in, or the one looked up and found. -/
def touched?
    (s : Step) :
    Option Key :=
  match s.operation with
  | .insert key _ => some key
  | .get key => if (c.get key s.now).found.isSome then some key else none
  | .contains _ => none
  | .clear => none

/-- The key whose entry a step finds past its time and drops. -/
def dropped?
    (s : Step) :
    Option Key :=
  match s.operation with
  | .get key =>
      if key ∈ c.keys ∧ (c.get key s.now).found = none then some key else none
  | _ => none

end Definitions

/-- The keys that a run touches, in order. -/
def touches
    (c : Cache) :
    List Step → List Key
  | [] => []
  | s :: later => (c.touched? s).toList ++ (c.step s).touches later

/-- The keys that a run drops, in order. -/
def drops
    (c : Cache) :
    List Step → List Key
  | [] => []
  | s :: later => (c.dropped? s).toList ++ (c.step s).drops later

/-- The number of the last step of a run that touches a key; steps count from zero. -/
def lastTouch?
    (c : Cache)
    (key : Key) :
    List Step → Option Nat
  | [] => none
  | s :: later =>
      match (c.step s).lastTouch? key later with
      | some i => some (i + 1)
      | none => if c.touched? s = some key then some 0 else none

section History

variable (c : Cache)
variable (steps : List Step)
variable (s : Step)

@[simp] theorem after_nil :
    c.after [] = c :=
  rfl

@[simp] theorem after_cons :
    c.after (s :: steps) = (c.step s).after steps :=
  rfl

theorem after_append
    (later : List Step) :
    c.after (steps ++ later) = (c.after steps).after later := by
  simp [after]

@[simp] theorem after_concat :
    c.after (steps ++ [s]) = (c.after steps).step s := by
  simp [after]

theorem touches_append
    (later : List Step) :
    c.touches (steps ++ later) = c.touches steps ++ (c.after steps).touches later := by
  induction steps generalizing c with
  | nil =>
      rfl
  | cons first steps ih =>
      simp [touches, ih]

theorem drops_append
    (later : List Step) :
    c.drops (steps ++ later) = c.drops steps ++ (c.after steps).drops later := by
  induction steps generalizing c with
  | nil =>
      rfl
  | cons first steps ih =>
      simp [drops, ih]

theorem touches_concat :
    c.touches (steps ++ [s]) =
      c.touches steps ++ ((c.after steps).touched? s).toList := by
  simp [touches_append, touches]

theorem drops_concat :
    c.drops (steps ++ [s]) =
      c.drops steps ++ ((c.after steps).dropped? s).toList := by
  simp [drops_append, drops]

/-- A step at the end is the last touch of its key and of no other. -/
theorem lastTouch?_concat
    (key : Key) :
    c.lastTouch? key (steps ++ [s]) =
      if (c.after steps).touched? s = some key then
        some steps.length
      else
        c.lastTouch? key steps := by
  induction steps generalizing c with
  | nil =>
      by_cases htouched : c.touched? s = some key <;>
        simp [lastTouch?, htouched]
  | cons first later ih =>
      simp only [List.cons_append, lastTouch?, ih, after_cons, List.length_cons]
      by_cases htouched : ((c.step first).after later).touched? s = some key <;>
        simp [htouched]

/-- The last touch is a step of the run. -/
theorem lastTouch?_lt
    {key : Key}
    {i : Nat}
    (h : c.lastTouch? key steps = some i) :
    i < steps.length := by
  induction steps generalizing c i with
  | nil =>
      simp [lastTouch?] at h
  | cons first later ih =>
      simp only [lastTouch?] at h
      cases hlater : (c.step first).lastTouch? key later with
      | none =>
          rw [hlater] at h
          simp only [Option.ite_none_right_eq_some, Option.some.injEq] at h
          simp [← h.2]
      | some j =>
          rw [hlater] at h
          obtain rfl : j + 1 = i := by simpa using h
          have := ih _ hlater
          simp only [List.length_cons]
          omega

/-- The key is not touched in a run in which it has no last touch. -/
theorem not_mem_touches_of_lastTouch?_eq_none
    {key : Key}
    (h : c.lastTouch? key steps = none) :
    key ∉ c.touches steps := by
  induction steps generalizing c with
  | nil =>
      simp [touches]
  | cons first later ih =>
      simp only [lastTouch?] at h
      cases hlater : (c.step first).lastTouch? key later with
      | some j =>
          simp [hlater] at h
      | none =>
          have hfirst : c.touched? first ≠ some key := by
            simpa [hlater] using h
          simp [touches, ih _ hlater, hfirst]

/-- Around its last touch a run falls into the steps before and the steps since. -/
theorem exists_split_of_lastTouch?
    {key : Key}
    {i : Nat}
    (h : c.lastTouch? key steps = some i) :
    ∃ before s since,
      steps = before ++ s :: since ∧
      before.length = i ∧
      (c.after before).touched? s = some key ∧
      key ∉ ((c.after before).step s).touches since := by
  induction steps generalizing c i with
  | nil =>
      simp [lastTouch?] at h
  | cons first later ih =>
      simp only [lastTouch?] at h
      cases hlater : (c.step first).lastTouch? key later with
      | none =>
          rw [hlater] at h
          simp only [Option.ite_none_right_eq_some, Option.some.injEq] at h
          exact
            ⟨[], first, later, rfl, h.2, h.1,
              (c.step first).not_mem_touches_of_lastTouch?_eq_none later hlater⟩
      | some j =>
          rw [hlater] at h
          obtain rfl : j + 1 = i := by simpa using h
          obtain ⟨before, s, since, rfl, rfl, htouched, hsince⟩ := ih _ hlater
          exact ⟨first :: before, s, since, rfl, rfl, htouched, hsince⟩

/-- A key with a last touch is touched. -/
theorem mem_touches_of_lastTouch?_eq_some
    {key : Key}
    {i : Nat}
    (h : c.lastTouch? key steps = some i) :
    key ∈ c.touches steps := by
  obtain ⟨before, s, since, rfl, -, htouched, -⟩ := c.exists_split_of_lastTouch? steps h
  simp [touches_append, touches, htouched]

end History

section OneStep

variable (c : Cache)
variable (s : Step)

/-- The capacity never changes. -/
@[simp] theorem capacity_step :
    (c.step s).capacity = c.capacity := by
  obtain ⟨now, operation⟩ := s
  cases operation with
  | insert key id =>
      rcases c.insert_cases key id now with ⟨-, h⟩ | ⟨newer, last, -, -, -, h⟩ <;>
        simp [step, h]
  | get key =>
      rcases c.get_cases key now with ⟨-, h⟩ | ⟨e, -, -, -, h⟩ | ⟨e, -, -, -, h⟩ <;>
        simp [step, h]
  | contains key =>
      rfl
  | clear =>
      rfl

/-- The step neither touches nor drops a key, and all keys stay. -/
def Idles : Prop :=
  c.touched? s = none ∧ c.dropped? s = none ∧ (c.step s).keys = c.keys

/-- The step is a look-up that drops the entry of a key. -/
def Drops
    (key : Key) :
    Prop :=
  c.touched? s = none ∧ c.dropped? s = some key ∧
    (c.step s).keys = c.keys.filter (· ≠ key)

/-- The step brings a key to the front and drives out no other. -/
def Renews
    (key : Key) :
    Prop :=
  c.touched? s = some key ∧ c.dropped? s = none ∧
    (key ∈ c.keys ∨ c.keys.length < c.capacity) ∧
    (c.step s).keys = key :: c.keys.filter (· ≠ key)

/-- The step puts a new key in front of a full cache and drives out the last key. -/
def Replaces
    (key : Key) :
    Prop :=
  c.touched? s = some key ∧ c.dropped? s = none ∧ key ∉ c.keys ∧
    c.capacity ≤ c.keys.length ∧
    ∃ newer last, c.keys = newer ++ [last] ∧ (c.step s).keys = key :: newer

/-- What a step can do to the keys. -/
theorem step_cases :
    c.Idles s
      ∨
    (s.operation = .clear ∧ c.touched? s = none ∧ (c.step s).keys = [])
      ∨
    (∃ key, c.Drops s key)
      ∨
    (∃ key, c.Renews s key)
      ∨
    (∃ key, c.Replaces s key) := by
  obtain ⟨now, operation⟩ := s
  cases operation with
  | contains key =>
      exact Or.inl ⟨rfl, rfl, rfl⟩
  | clear =>
      exact Or.inr (Or.inl ⟨rfl, rfl, rfl⟩)
  | get key =>
      rcases c.get_cases key now with
        ⟨habsent, h⟩ | ⟨e, he, hkey, -, h⟩ | ⟨e, he, hkey, -, h⟩
      · refine Or.inl ⟨?_, ?_, ?_⟩
        · simp [touched?, h]
        · simp [dropped?, habsent]
        · simp [step, h, keys]
      · have hmem : key ∈ c.keys := (c.mem_keys_iff key).2 ⟨e, he, hkey⟩
        refine Or.inr (Or.inr (Or.inl ⟨key, ?_, ?_, ?_⟩))
        · simp [touched?, h]
        · simp [dropped?, h, hmem]
        · rw [← c.map_key_others key]
          simp [step, h, keys]
      · have hmem : key ∈ c.keys := (c.mem_keys_iff key).2 ⟨e, he, hkey⟩
        refine Or.inr (Or.inr (Or.inr (Or.inl ⟨key, ?_, ?_, Or.inl hmem, ?_⟩)))
        · simp [touched?, h]
        · simp [dropped?, h]
        · rw [← c.map_key_others key]
          simp [step, h, keys, hkey]
  | insert key id =>
      rcases c.insert_cases key id now with
        ⟨hroom, h⟩ | ⟨newer, last, habsent, hfull, hsplit, h⟩
      · rw [← c.length_keys] at hroom
        refine Or.inr (Or.inr (Or.inr (Or.inl ⟨key, rfl, rfl, hroom, ?_⟩)))
        rw [← c.map_key_others key]
        simp [step, h, keys]
      · rw [← c.length_keys] at hfull
        refine
          Or.inr (Or.inr (Or.inr (Or.inr
            ⟨key, rfl, rfl, habsent, hfull, newer.map Entry.key, last.key, ?_, ?_⟩)))
        · simp [keys, hsplit]
        · simp [step, h, keys]

end OneStep

end Cache
end LedgerEntity
