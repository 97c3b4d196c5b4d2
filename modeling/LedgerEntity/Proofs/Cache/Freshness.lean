import LedgerEntity.Proofs.Cache.Residency

/-!
# What the cache serves

An entry is followed back to the step that put it in.

A step brings in at most its own insertion, and every other entry it leaves was
there before, under a key that the step neither puts in nor drops nor clears
away.  So every entry of a run stems from the latest insertion of its key, and
what a look-up finds is the ID of that insertion, as long as its age counted
from that insertion stays below the time to live.

A use moves an entry but does not renew it.  Hence, while the clock does not go
backwards, an entry once past its time is never served again.
-/

namespace LedgerEntity

/-- The step that puts an entry in. -/
def Entry.insertion
    (e : Entry) :
    Cache.Step :=
  ⟨e.insertedAt, .insert e.key e.id⟩

namespace Cache

/-- The step puts in a key, under whatever ID. -/
def Step.Inserts
    (s : Step)
    (key : Key) :
    Prop :=
  ∃ id, s.operation = .insert key id

/-- The key is held, and its entry is past its time. -/
def Stale
    (c : Cache)
    (key : Key)
    (now : Int) :
    Prop :=
  ∃ e ∈ c.entries, e.key = key ∧ c.ttl.nanoseconds ≤ (e.age now).nanoseconds

/--
The entry was put in by a step of the run, since which its key was not put in
again, nor dropped, nor cleared away.
-/
def Stems
    (start : Cache)
    (steps : List Step)
    (e : Entry) :
    Prop :=
  ∃ before since,
    steps = before ++ e.insertion :: since ∧
    (∀ s ∈ since, ¬ s.Inserts e.key) ∧
    (∀ s ∈ since, s.operation ≠ .clear) ∧
    e.key ∉ (start.after (before ++ [e.insertion])).drops since

section OneStep

theorem age_mono
    (e : Entry)
    {earlier later : Int}
    (h : earlier ≤ later) :
    (e.age earlier).nanoseconds ≤ (e.age later).nanoseconds := by
  simp only [Entry.age]
  omega

variable {c : Cache}
variable {key : Key}
variable {now : Int}

@[simp] theorem ttl_step
    (c : Cache)
    (s : Step) :
    (c.step s).ttl = c.ttl := by
  obtain ⟨now, operation⟩ := s
  cases operation with
  | insert key id =>
      rcases c.insert_cases key id now with ⟨-, h⟩ | ⟨newer, last, -, -, -, h⟩ <;>
        simp [step, h]
  | get key =>
      rcases c.get_cases key now with ⟨-, h⟩ | ⟨e, -, -, -, h⟩ | ⟨e, -, -, -, h⟩ <;>
        simp [step, h]
  | contains key =>
      rfl
  | clear =>
      rfl

/--
An entry after a step is the one that the step puts in, or was there before
under a key that the step leaves alone.
-/
theorem mem_entries_step
    {s : Step}
    {e : Entry}
    (h : e ∈ (c.step s).entries) :
    s = e.insertion
      ∨
    (e ∈ c.entries ∧ ¬ s.Inserts e.key ∧ s.operation ≠ .clear ∧
      c.dropped? s ≠ some e.key) := by
  obtain ⟨now, operation⟩ := s
  cases operation with
  | insert key id =>
      rcases c.insert_cases key id now with
        ⟨-, hinsert⟩ | ⟨newer, last, habsent, -, hsplit, hinsert⟩
      · simp only [step, hinsert] at h
        rcases List.mem_cons.1 h with rfl | hother
        · exact Or.inl rfl
        · obtain ⟨he, hne⟩ := (c.mem_others_iff key e).1 hother
          exact Or.inr ⟨he, by simp [Step.Inserts, hne.symm], by simp, by simp [dropped?]⟩
      · simp only [step, hinsert] at h
        rcases List.mem_cons.1 h with rfl | hnewer
        · exact Or.inl rfl
        · have he : e ∈ c.entries := by
            rw [hsplit]
            exact List.mem_append_left _ hnewer
          have hne : key ≠ e.key := by
            rintro rfl
            exact habsent ((c.mem_keys_iff _).2 ⟨e, he, rfl⟩)
          exact Or.inr ⟨he, by simp [Step.Inserts, hne], by simp, by simp [dropped?]⟩
  | get key =>
      have he := c.mem_of_mem_entries_get key now h
      refine Or.inr ⟨he, by simp [Step.Inserts], by simp, ?_⟩
      rcases c.get_cases key now with
        ⟨habsent, -⟩ | ⟨e', -, -, -, hget⟩ | ⟨e', -, -, -, hget⟩
      · simp [dropped?, habsent]
      · simp only [step, hget] at h
        have hne := ((c.mem_others_iff key e).1 h).2
        simp [dropped?, hne.symm]
      · simp [dropped?, hget]
  | contains key =>
      exact Or.inr ⟨h, by simp [Step.Inserts], by simp, by simp [dropped?]⟩
  | clear =>
      simp [step] at h

/-- Looking a key up and testing for it agree. -/
theorem contains_eq_isSome_found :
    c.contains key now = (c.get key now).found.isSome := by
  cases hentry : Recency.peek c.entries key with
  | none =>
      simp [contains, get, hentry, Recency.get_of_absent hentry]
  | some e =>
      by_cases hage : c.ttl.nanoseconds ≤ (e.age now).nanoseconds
      · simp [contains, get, hentry, Recency.get_promotes hentry, hage]
      · simp [contains, get, hentry, Recency.get_promotes hentry, hage,
          Nat.lt_of_not_le hage]

/-- A key all of whose entries are past their time is not found. -/
theorem not_found_of_forall_late
    (h : ∀ e ∈ c.entries, e.key = key → c.ttl.nanoseconds ≤ (e.age now).nanoseconds) :
    (c.get key now).found = none ∧ c.contains key now = false := by
  have hfound : (c.get key now).found = none := by
    cases hfound : (c.get key now).found with
    | none =>
        rfl
    | some id =>
        obtain ⟨e, he, hkey, -, hage⟩ := c.exists_entry_of_found_get _ _ hfound
        exact absurd (h e he hkey) (Nat.not_le.2 hage)
  exact ⟨hfound, by simp [contains_eq_isSome_found, hfound]⟩

/-- A use leaves the entry of its key as it is. -/
theorem entry?_get_of_found
    {id : EntityId}
    (h : (c.get key now).found = some id) :
    entry? (c.get key now).cache key = entry? c key := by
  cases hentry : c.entry? key with
  | none =>
      simp [get, Recency.get_of_absent hentry] at h
  | some e =>
      have hkey := (c.mem_of_entry?_eq_some key hentry).2
      by_cases hage : c.ttl.nanoseconds ≤ (e.age now).nanoseconds
      · simp [get, Recency.get_promotes hentry, hage] at h
      · simp only [get, Recency.get_promotes hentry, if_neg hage]
        exact Recency.peek_cons hkey

/-- An insertion renews the entry of its key. -/
theorem entry?_insert
    (id : EntityId) :
    entry? (c.insert key id now).cache key = some ⟨key, id, now⟩ := by
  rcases c.insert_cases key id now with ⟨-, h⟩ | ⟨newer, last, -, -, -, h⟩ <;>
    simp [h, entry?, Recency.peek_cons]

/-- Entries of one key are one entry. -/
theorem Bounded.eq_of_key_eq
    (h : c.Bounded)
    {e e' : Entry}
    (he : e ∈ c.entries)
    (he' : e' ∈ c.entries)
    (hkey : e.key = e'.key) :
    e = e' :=
  List.inj_on_of_nodup_map h.nodup he he' hkey

end OneStep

section Runs

variable {start : Cache}
variable {c : Cache}
variable {e : Entry}

@[simp] theorem ttl_after
    (c : Cache)
    (steps : List Step) :
    (c.after steps).ttl = c.ttl := by
  induction steps generalizing c with
  | nil =>
      rfl
  | cons s later ih =>
      rw [after_cons, ih, ttl_step]

theorem stems_concat_insertion
    (steps : List Step) :
    start.Stems (steps ++ [e.insertion]) e :=
  ⟨steps, [], rfl, by simp, by simp, by simp [drops]⟩

theorem Stems.concat
    {steps : List Step}
    {s : Step}
    (h : start.Stems steps e)
    (hinserts : ¬ s.Inserts e.key)
    (hclear : s.operation ≠ .clear)
    (hdropped : (start.after steps).dropped? s ≠ some e.key) :
    start.Stems (steps ++ [s]) e := by
  obtain ⟨before, since, rfl, hsince, hclears, hdrops⟩ := h
  refine ⟨before, since ++ [s], by simp, ?_, ?_, ?_⟩
  · exact List.forall_mem_append.2 ⟨hsince, by simpa using hinserts⟩
  · exact List.forall_mem_append.2 ⟨hclears, by simpa using hclear⟩
  · rw [drops_concat, List.mem_append, not_or]
    refine ⟨hdrops, ?_⟩
    rw [← after_append, List.append_assoc, List.singleton_append]
    simpa using hdropped

/-- Every entry stems from the latest insertion of its key. -/
theorem stems_of_mem_entries
    (hempty : start.entries = [])
    (steps : List Step)
    (he : e ∈ (start.after steps).entries) :
    start.Stems steps e := by
  -- The steps since the insertion grow at the end, so the induction takes off the last step.
  induction steps using List.reverseRecOn with
  | nil =>
      simp [hempty] at he
  | append_singleton steps s ih =>
      rw [after_concat] at he
      rcases mem_entries_step he with rfl | ⟨he, hinserts, hclear, hdropped⟩
      · exact stems_concat_insertion steps
      · exact (ih he).concat hinserts hclear hdropped

/-- As long as a key is not put in, it has no entry that was not there before. -/
theorem mem_entries_of_not_inserts
    {later : List Step}
    (hlater : ∀ s ∈ later, ¬ s.Inserts e.key)
    (he : e ∈ (c.after later).entries) :
    e ∈ c.entries := by
  induction later generalizing c with
  | nil =>
      exact he
  | cons s later ih =>
      rw [List.forall_mem_cons] at hlater
      rcases mem_entries_step (ih hlater.2 he) with rfl | ⟨he, -⟩
      · exact absurd ⟨e.id, rfl⟩ hlater.1
      · exact he

/-- What is stale stays stale or goes, at no earlier time, until it is put in again. -/
theorem not_found_after_stale
    (hbounded : c.Bounded)
    {key : Key}
    {earlier now : Int}
    (hstale : c.Stale key earlier)
    {later : List Step}
    (hlater : ∀ s ∈ later, ¬ s.Inserts key)
    (hnow : earlier ≤ now) :
    ((c.after later).get key now).found = none ∧
      (c.after later).contains key now = false := by
  obtain ⟨old, hold, rfl, hage⟩ := hstale
  refine not_found_of_forall_late fun e he hkey => ?_
  rw [← hkey] at hlater
  obtain rfl := hbounded.eq_of_key_eq (mem_entries_of_not_inserts hlater he) hold hkey
  rw [ttl_after]
  exact hage.trans (age_mono e hnow)

/-- The steps that drop a key are the look-ups that find it stale. -/
theorem dropped?_eq_some_iff
    (hbounded : c.Bounded)
    {key : Key}
    (s : Step) :
    c.dropped? s = some key ↔ s.operation = .get key ∧ c.Stale key s.now := by
  obtain ⟨now, operation⟩ := s
  constructor
  · intro h
    cases operation with
    | get other =>
        rcases c.get_cases other now with
          ⟨habsent, -⟩ | ⟨e, he, hkey, hage, -⟩ | ⟨e, -, -, -, hget⟩
        · simp [dropped?, habsent] at h
        · obtain ⟨-, rfl⟩ : _ ∧ other = key := by simpa [dropped?] using h
          exact ⟨rfl, e, he, hkey, hage⟩
        · simp [dropped?, hget] at h
    | insert other id => simp [dropped?] at h
    | contains other => simp [dropped?] at h
    | clear => simp [dropped?] at h
  · rintro ⟨hget, hstale⟩
    obtain rfl : operation = .get key := hget
    have hnone : ∀ s' ∈ ([] : List Step), ¬ s'.Inserts key := by
      simp
    have hfound : (c.get key now).found = none :=
      (not_found_after_stale hbounded hstale hnone le_rfl).1
    obtain ⟨e, he, hkey, -⟩ := hstale
    have hheld : key ∈ c.keys := (c.mem_keys_iff key).2 ⟨e, he, hkey⟩
    simp [dropped?, hheld, hfound]

/--
What the cache serves, after any run from an empty cache: a look-up finds the ID
of the latest insertion of its key, at an age below the time to live, and since
then the key was neither dropped, as it is by a look-up that finds it stale, nor
cleared away.  A use leaves the entry as it is and an insertion renews it.  Once a
look-up or a test meets a stale key, no look-up and no test at that time or later
finds it until it is put in again; and with no time to live nothing is ever found.
-/
theorem served_since_latest_insertion
    (capacity : Nat)
    (ttl : TimeSpan)
    (hcapacity : 0 < capacity)
    (steps : List Step)
    (key : Key) :
    let start := empty capacity ttl hcapacity
    let c := start.after steps
    (∀ now id, (c.get key now).found = some id →
        ∃ insertedAt before since,
          steps = before ++ ⟨insertedAt, .insert key id⟩ :: since ∧
          (∀ s ∈ since, ¬ s.Inserts key) ∧
          (∀ s ∈ since, s.operation ≠ .clear) ∧
          key ∉ (start.after (before ++ [⟨insertedAt, .insert key id⟩])).drops since ∧
          max 0 (now - insertedAt) < ttl.nanoseconds)
      ∧
    (∀ s, c.dropped? s = some key ↔ s.operation = .get key ∧ c.Stale key s.now)
      ∧
    (∀ now id, (c.get key now).found = some id →
        entry? (c.get key now).cache key = entry? c key)
      ∧
    (∀ now id, entry? (c.insert key id now).cache key = some ⟨key, id, now⟩)
      ∧
    (∀ s later now,
        s.operation = .get key ∨ s.operation = .contains key →
        c.Stale key s.now →
        (∀ s' ∈ later, ¬ s'.Inserts key) →
        s.now ≤ now →
          (((c.step s).after later).get key now).found = none ∧
            ((c.step s).after later).contains key now = false)
      ∧
    (ttl.nanoseconds = 0 → ∀ now,
        (c.get key now).found = none ∧ c.contains key now = false) := by
  intro start c
  have hbounded : c.Bounded := (bounded_empty capacity ttl hcapacity).after steps
  have httl : c.ttl = ttl := ttl_after start steps
  refine
    ⟨?_, dropped?_eq_some_iff hbounded, fun now id => entry?_get_of_found,
      fun now id => entry?_insert id, ?_, ?_⟩
  · intro now id hfound
    obtain ⟨e, he, rfl, rfl, hage⟩ := c.exists_entry_of_found_get _ _ hfound
    obtain ⟨before, since, hsteps, hinserts, hclears, hdrops⟩ :=
      stems_of_mem_entries rfl steps he
    refine ⟨e.insertedAt, before, since, hsteps, hinserts, hclears, hdrops, ?_⟩
    simp only [httl, Entry.age] at hage
    omega
  · intro s later now hs hstale hlater hnow
    have hall : ∀ s' ∈ s :: later, ¬ s'.Inserts key := by
      refine List.forall_mem_cons.2 ⟨?_, hlater⟩
      rcases hs with hget | hcontains
      · simp [Step.Inserts, hget]
      · simp [Step.Inserts, hcontains]
    exact not_found_after_stale hbounded hstale hall hnow
  · intro hzero now
    refine not_found_of_forall_late fun e _ _ => ?_
    rw [httl, hzero]
    exact Nat.zero_le _

/-- A key put in twice is served at the age of the second insertion, and not past it. -/
theorem served_since_latest_insertion_twice :
    let key : Key := ⟨"0.0.1", .any⟩
    let other : Key := ⟨"0.0.1", .noShardRealm⟩
    let start := empty 2 ⟨10⟩ (by decide)
    let steps : List Step :=
      [ ⟨0, .insert key (.present ⟨0, 0, 1, by decide⟩)⟩, ⟨5, .insert key .null⟩,
        ⟨12, .get key⟩, ⟨3, .get other⟩ ]
    let c := start.after steps
    let later : List Step := [⟨16, .insert other .null⟩]
    0 < 2 ∧
    (c.get key 14).found = some .null ∧
    (∃ insertedAt before since,
      steps = before ++ ⟨insertedAt, .insert key .null⟩ :: since ∧
      (∀ s ∈ since, ¬ s.Inserts key) ∧
      max 0 (14 - insertedAt) < 10) ∧
    c.Stale key 15 ∧
    (((c.step ⟨15, .contains key⟩).after later).get key 20).found = none ∧
    ((empty 2 ⟨0⟩ (by decide)).after steps).contains key 4 = false := by
  intro key other start steps c later
  have hfound : (c.get key 14).found = some .null := by decide
  have hstale : c.Stale key 15 := ⟨⟨key, .null, 5⟩, by decide, rfl, by decide⟩
  obtain ⟨hserved, -, -, -, hlate, -⟩ :=
    served_since_latest_insertion 2 ⟨10⟩ (by decide) steps key
  obtain ⟨-, -, -, -, -, hnever⟩ :=
    served_since_latest_insertion 2 ⟨0⟩ (by decide) steps key
  obtain ⟨insertedAt, before, since, hsteps, hsince, -, -, hage⟩ := hserved 14 .null hfound
  refine
    ⟨by decide, hfound, ⟨insertedAt, before, since, hsteps, hsince, by simpa using hage⟩,
      hstale, ?_, (hnever rfl 4).2⟩
  have hlater : ∀ s ∈ later, ¬ s.Inserts key := by
    simp [later, Step.Inserts, key, other]
  exact (hlate ⟨15, .contains key⟩ later 20 (Or.inr rfl) hstale hlater (by decide)).1

end Runs

end Cache
end LedgerEntity
