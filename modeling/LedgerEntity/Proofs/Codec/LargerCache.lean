import LedgerEntity.Proofs.Cache.Freshness
import LedgerEntity.Proofs.Codec.CacheSteps

/-!
# A larger cache never loses hits

Which calls are answered from the cache, told without the cache.

While all calls fall into a window shorter than the time to live, no entry gets
past its time.  Then a call whose text is accepted touches its key, by a hit or
by putting it in, and a call whose text is rejected touches nothing.  So a run of
calls touches the accepted keys in the order of the calls, whatever the capacity,
and the least-recently-used law decides which of them are held: a key read before
is held exactly while fewer other accepted keys were read since than there is
room for.  More room can only help.
-/

namespace LedgerEntity

/-- A call that reads a present text, at its time in nanoseconds. -/
structure Call where
  now : Int
  raw : String
  options : ParseOptions

namespace Call

/-- What the call is looked up by. -/
def key
    (call : Call) :
    Key :=
  ⟨call.raw, call.options.flavor⟩

/-- The call as a request at its time. -/
def request
    (call : Call) :
    Int × Request :=
  (call.now, .parse (some call.raw) call.options)

end Call

/-- Whether the raw text of a key is accepted under its flavor. -/
def Key.isAccepted
    (systemShard : UInt16)
    (key : Key) :
    Bool :=
  (decode key.raw key.flavor systemShard).isOk

theorem Key.isAccepted_iff
    {systemShard : UInt16}
    {key : Key} :
    key.isAccepted systemShard = true ↔
      ∃ id, decode key.raw key.flavor systemShard = .ok id := by
  unfold Key.isAccepted
  cases decode key.raw key.flavor systemShard <;>
    simp [Except.isOk, Except.toBool]

namespace Cache

/-- The run touches these keys in this order, and drops and clears away nothing. -/
structure OnlyTouches
    (c : Cache)
    (steps : List Step)
    (keys : List Key) : Prop where
  touches_eq : c.touches steps = keys
  drops_eq : c.drops steps = []
  not_clear : ∀ s ∈ steps, s.operation ≠ .clear

section OnlyTouches

variable {c : Cache}
variable {steps : List Step}
variable {keys : List Key}
variable {key : Key}

theorem OnlyTouches.append
    (h : c.OnlyTouches steps keys)
    {later : List Step}
    {more : List Key}
    (hlater : (c.after steps).OnlyTouches later more) :
    c.OnlyTouches (steps ++ later) (keys ++ more) where
  touches_eq := by
    rw [touches_append, h.touches_eq, hlater.touches_eq]
  drops_eq := by
    rw [drops_append, h.drops_eq, hlater.drops_eq, List.nil_append]
  not_clear :=
    List.forall_mem_append.2 ⟨h.not_clear, hlater.not_clear⟩

/-- A key at the front stays exactly while there is room for the keys touched since. -/
theorem OnlyTouches.mem_keys_iff
    (h : c.OnlyTouches steps keys)
    (hbounded : c.Bounded)
    {rest : List Key}
    (hfront : c.keys = key :: rest)
    (habsent : key ∉ keys) :
    key ∈ (c.after steps).keys ↔ keys.toFinset.card < c.capacity := by
  have hlast : key ∉ c.touches steps := by
    rwa [h.touches_eq]
  have hdrops : key ∉ c.drops steps := by
    simp [h.drops_eq]
  have hrivals : c.rivals key steps = keys.toFinset := by
    rw [rivals, h.touches_eq]
    exact Finset.erase_eq_of_notMem (by simpa using habsent)
  rw [← hrivals]
  exact
    ⟨card_rivals_lt_of_mem_keys_after hbounded hfront steps h.not_clear h.drops_eq hlast,
      mem_keys_after_of_card_rivals_lt hbounded hfront steps h.not_clear hdrops hlast⟩

/-- From an empty cache on, a held key was touched. -/
theorem OnlyTouches.mem_of_mem_keys
    (h : c.OnlyTouches steps keys)
    (hempty : c.keys = [])
    (hkey : key ∈ (c.after steps).keys) :
    key ∈ keys := by
  obtain ⟨i, hi⟩ := (byRecency_of_keys_eq_nil hempty steps).touched key hkey
  rw [← h.touches_eq]
  exact c.mem_touches_of_lastTouch?_eq_some steps hi

end OnlyTouches

end Cache

namespace Codec

/-- The call is answered from the cache. -/
def Hits
    (codec : Codec)
    (call : Call) :
    Prop :=
  .hit call.key ∈ (codec.parse (some call.raw) call.options call.now).events

/-- The codec after a run of calls. -/
def afterCalls
    (codec : Codec)
    (calls : List Call) :
    Codec :=
  codec.after (calls.map Call.request)

/--
The text of a call is accepted, its key was read before, and fewer distinct
accepted keys than the capacity were read since it was read last.
-/
def Recalls
    (systemShard : UInt16)
    (capacity : Nat)
    (before : List Call)
    (call : Call) :
    Prop :=
  call.key.isAccepted systemShard = true ∧
  ∃ earlier previous since,
    before = earlier ++ previous :: since ∧
    previous.key = call.key ∧
    (∀ other ∈ since, other.key ≠ call.key) ∧
    ((since.map Call.key).filter (Key.isAccepted systemShard)).toFinset.card < capacity

/-- The cache steps of a run of calls. -/
def callSteps
    (systemShard : UInt16)
    (c : Cache)
    (calls : List Call) :
    List Cache.Step :=
  runSteps ⟨systemShard, some c⟩ (calls.map Call.request)

/--
The cache holds only true readings, and neither what it holds nor what the calls
put in gets past its time before the last of the calls.
-/
structure Timely
    (systemShard : UInt16)
    (c : Cache)
    (calls : List Call) : Prop where
  bounded : c.Bounded
  truthful : c.Truthful systemShard
  inTime :
    ∀ e ∈ c.entries, ∀ call ∈ calls, (e.age call.now).nanoseconds < c.ttl.nanoseconds
  window :
    ∀ a ∈ calls, ∀ b ∈ calls, a.now - b.now < c.ttl.nanoseconds

section Steps

variable (systemShard : UInt16)
variable (c : Cache)

theorem callSteps_cons
    (call : Call)
    (later : List Call) :
    callSteps systemShard c (call :: later) =
      readingSteps ⟨systemShard, some c⟩ call.now call.key ++
        callSteps systemShard
          (c.after (readingSteps ⟨systemShard, some c⟩ call.now call.key)) later := by
  have hnext := (perform_takes systemShard c call.now call.request.2).codec_eq
  rw [callSteps, List.map_cons, Call.request, runSteps]
  exact congrArg _ (congrArg (runSteps · (later.map Call.request)) hnext)

theorem callSteps_append
    (calls later : List Call) :
    callSteps systemShard c (calls ++ later) =
      callSteps systemShard c calls ++
        callSteps systemShard (c.after (callSteps systemShard c calls)) later := by
  induction calls generalizing c with
  | nil =>
      rfl
  | cons call calls ih =>
      rw [List.cons_append, callSteps_cons, callSteps_cons, ih, Cache.after_append,
        List.append_assoc]

theorem afterCalls_eq
    (calls : List Call) :
    afterCalls ⟨systemShard, some c⟩ calls =
      ⟨systemShard, some (c.after (callSteps systemShard c calls))⟩ :=
  after_eq systemShard c (calls.map Call.request)

/-- A call is answered from the cache exactly if its look-up finds something. -/
theorem hits_iff_found
    (call : Call) :
    Hits ⟨systemShard, some c⟩ call ↔ (c.get call.key call.now).found.isSome := by
  have hevents :=
    (readingSteps_takes systemShard c call.now call.raw call.options).events_eq
  have hmem : Hits ⟨systemShard, some c⟩ call ↔
      .hit call.key ∈
        c.runEvents (readingSteps ⟨systemShard, some c⟩ call.now call.key) := by
    rw [Call.key, ← hevents, List.mem_filter]
    exact (and_iff_left rfl).symm
  rw [hmem]
  rcases readingSteps_cases ⟨systemShard, some c⟩ call.now call.key with
    hsteps | ⟨id, -, hsteps⟩
  · rw [hsteps, Cache.runEvents_singleton]
    exact c.hit_mem_events_get call.key call.now
  · have hinsert :=
      (c.get call.key call.now).cache.hit_not_mem_events_insert call.key id call.now
    rw [hsteps, Cache.runEvents, List.mem_append, Cache.runEvents_singleton]
    exact (or_iff_left hinsert).trans (c.hit_mem_events_get call.key call.now)

theorem hits_after_reading
    (call : Call) :
    (c.after (readingSteps ⟨systemShard, some c⟩ call.now call.key)).counters.hits =
      c.counters.hits + if (c.get call.key call.now).found.isSome then 1 else 0 := by
  have hget := c.hits_get call.key call.now
  rcases readingSteps_cases ⟨systemShard, some c⟩ call.now call.key with
    hsteps | ⟨id, -, hsteps⟩
  · rw [hsteps]
    exact hget
  · rw [hsteps]
    exact ((c.get call.key call.now).cache.hits_insert call.key id call.now).trans hget

theorem hits_after_concat
    (calls : List Call)
    (last : Call) :
    (c.after (callSteps systemShard c (calls ++ [last]))).counters.hits =
      (c.after (callSteps systemShard c calls)).counters.hits +
        if ((c.after (callSteps systemShard c calls)).get last.key last.now).found.isSome
          then 1 else 0 := by
  have hlast : ∀ c' : Cache,
      callSteps systemShard c' [last] =
        readingSteps ⟨systemShard, some c'⟩ last.now last.key := by
    intro c'
    rw [callSteps_cons]
    exact List.append_nil _
  rw [callSteps_append, Cache.after_append, hlast, hits_after_reading]

end Steps

section OneCall

variable {systemShard : UInt16}
variable {c : Cache}
variable {call : Call}
variable {later : List Call}

/-- A timely cache finds exactly the keys it holds, and only accepted ones. -/
theorem Timely.outcomes
    (h : Timely systemShard c (call :: later)) :
    (call.key ∈ c.keys ∧ (c.get call.key call.now).found.isSome ∧
      call.key.isAccepted systemShard = true ∧
      readingSteps ⟨systemShard, some c⟩ call.now call.key = [⟨call.now, .get call.key⟩])
      ∨
    (∃ id, call.key ∉ c.keys ∧ (c.get call.key call.now).found = none ∧
      decode call.key.raw call.key.flavor systemShard = .ok id ∧
      readingSteps ⟨systemShard, some c⟩ call.now call.key =
        [⟨call.now, .get call.key⟩, ⟨call.now, .insert call.key id⟩])
      ∨
    (call.key ∉ c.keys ∧ (c.get call.key call.now).found = none ∧
      call.key.isAccepted systemShard = false ∧
      readingSteps ⟨systemShard, some c⟩ call.now call.key =
        [⟨call.now, .get call.key⟩]) := by
  rcases c.get_cases call.key call.now with
    ⟨habsent, hget⟩ | ⟨e, he, -, hage, -⟩ | ⟨e, he, hkey, -, hget⟩
  · right
    cases hdecode : decode call.key.raw call.key.flavor systemShard with
    | ok id =>
        left
        refine ⟨id, habsent, by rw [hget], rfl, ?_⟩
        simp [readingSteps, lookUp, hget, hdecode]
    | error rejection =>
        right
        have hrejected : call.key.isAccepted systemShard = false := by
          rw [Bool.eq_false_iff, ne_eq, Key.isAccepted_iff]
          simp [hdecode]
        refine ⟨habsent, by rw [hget], hrejected, ?_⟩
        simp [readingSteps, lookUp, hget, hdecode]
  · exact absurd (h.inTime e he call List.mem_cons_self) (Nat.not_lt.2 hage)
  · left
    have hdecode := h.truthful e he
    rw [hkey] at hdecode
    refine
      ⟨(c.mem_keys_iff _).2 ⟨e, he, hkey⟩, by simp [hget],
        Key.isAccepted_iff.2 ⟨_, hdecode⟩, ?_⟩
    simp [readingSteps, lookUp, hget]

theorem Timely.tail
    (h : Timely systemShard c (call :: later)) :
    Timely systemShard c later where
  bounded := h.bounded
  truthful := h.truthful
  inTime e he call' hcall := h.inTime e he call' (List.mem_cons_of_mem _ hcall)
  window a ha b hb := h.window a (List.mem_cons_of_mem _ ha) b (List.mem_cons_of_mem _ hb)

/-- A step at the time of a call keeps the cache timely if it puts in a true reading. -/
theorem Timely.step
    (h : Timely systemShard c (call :: later))
    {operation : Cache.Operation}
    (hoperation :
      ∀ key id, operation = .insert key id →
        decode key.raw key.flavor systemShard = .ok id) :
    Timely systemShard (c.step ⟨call.now, operation⟩) (call :: later) where
  bounded := h.bounded.step _
  truthful e he := by
    rcases Cache.mem_entries_step he with hnew | ⟨hold, -⟩
    · exact hoperation e.key e.id (congrArg Cache.Step.operation hnew)
    · exact h.truthful e hold
  inTime e he call' hcall := by
    rw [Cache.ttl_step]
    rcases Cache.mem_entries_step he with hnew | ⟨hold, -⟩
    · -- The clock may go backwards, and then the age is zero: the bound has to be positive.
      have hnow : call.now = e.insertedAt := congrArg Cache.Step.now hnew
      have hpositive := h.window call List.mem_cons_self call List.mem_cons_self
      have hlast := h.window call' hcall call List.mem_cons_self
      simp only [Entry.age, ← hnow]
      omega
    · exact h.inTime e hold call' hcall
  window a ha b hb := by
    rw [Cache.ttl_step]
    exact h.window a ha b hb

/-- A call leaves a timely cache timely for the calls after it. -/
theorem Timely.after_reading
    (h : Timely systemShard c (call :: later)) :
    Timely systemShard
      (c.after (readingSteps ⟨systemShard, some c⟩ call.now call.key)) later := by
  have hlookUp : Timely systemShard (c.step ⟨call.now, .get call.key⟩) (call :: later) :=
    h.step (by simp)
  rcases readingSteps_cases ⟨systemShard, some c⟩ call.now call.key with
    hsteps | ⟨id, hdecode, hsteps⟩
  · rw [hsteps]
    exact hlookUp.tail
  · have hinsert :
        ∀ key id', Cache.Operation.insert call.key id = .insert key id' →
          decode key.raw key.flavor systemShard = .ok id' := by
      rintro key id' heq
      obtain ⟨rfl, rfl⟩ := Cache.Operation.insert.inj heq
      exact hdecode
    rw [hsteps]
    exact (hlookUp.step hinsert).tail

/-- A call touches its key if its text is accepted, and nothing otherwise. -/
theorem Timely.onlyTouches_reading
    (h : Timely systemShard c (call :: later)) :
    c.OnlyTouches (readingSteps ⟨systemShard, some c⟩ call.now call.key)
      ([call.key].filter (Key.isAccepted systemShard)) := by
  rcases h.outcomes with
    ⟨-, hfound, haccepted, hsteps⟩ | ⟨id, habsent, hfound, hdecode, hsteps⟩ |
      ⟨habsent, hfound, hrejected, hsteps⟩
  · have hsome : (c.get call.key call.now).found ≠ none := by
      rwa [← Option.isSome_iff_ne_none]
    rw [hsteps]
    constructor <;>
      simp [Cache.touches, Cache.drops, Cache.touched?, Cache.dropped?, hfound, hsome,
        haccepted]
  · have haccepted := Key.isAccepted_iff.2 ⟨id, hdecode⟩
    rw [hsteps]
    constructor <;>
      simp [Cache.touches, Cache.drops, Cache.touched?, Cache.dropped?, hfound, habsent,
        haccepted]
  · rw [hsteps]
    constructor <;>
      simp [Cache.touches, Cache.drops, Cache.touched?, Cache.dropped?, hfound, habsent,
        hrejected]

/-- After a call whose text is accepted its key is at the front. -/
theorem Timely.exists_keys_after_reading
    (h : Timely systemShard c (call :: later))
    (haccepted : call.key.isAccepted systemShard = true) :
    ∃ rest,
      (c.after (readingSteps ⟨systemShard, some c⟩ call.now call.key)).keys =
        call.key :: rest := by
  rcases h.outcomes with
    ⟨-, hfound, -, hsteps⟩ | ⟨id, -, -, -, hsteps⟩ | ⟨-, -, hrejected, -⟩
  · rw [hsteps]
    exact Cache.exists_keys_step_eq_cons (s := ⟨call.now, .get call.key⟩)
      (by simp [Cache.touched?, hfound])
  · rw [hsteps]
    exact Cache.exists_keys_step_eq_cons (s := ⟨call.now, .insert call.key id⟩) rfl
  · exact absurd haccepted (by simp [hrejected])

end OneCall

section Calls

variable {systemShard : UInt16}
variable {c : Cache}
variable {call : Call}
variable {calls later : List Call}

/-- Timely calls touch their accepted keys in order, and leave the cache timely. -/
theorem Timely.run
    (h : Timely systemShard c (calls ++ later)) :
    c.OnlyTouches (callSteps systemShard c calls)
        ((calls.map Call.key).filter (Key.isAccepted systemShard))
      ∧
    Timely systemShard (c.after (callSteps systemShard c calls)) later := by
  induction calls generalizing c with
  | nil =>
      exact ⟨⟨rfl, rfl, by simp [callSteps, runSteps]⟩, h⟩
  | cons first calls ih =>
      obtain ⟨htouches, htimely⟩ := ih h.after_reading
      rw [callSteps_cons, Cache.after_append]
      refine ⟨?_, htimely⟩
      have happend := h.onlyTouches_reading.append htouches
      rwa [← List.filter_append] at happend

/--
Before a key was read again it is held exactly if there was room since it was read
last.
-/
theorem Timely.mem_keys_iff_of_split
    {earlier since : List Call}
    {previous : Call}
    (h : Timely systemShard c ((earlier ++ previous :: since) ++ later))
    (haccepted : previous.key.isAccepted systemShard = true)
    (hsince : ∀ other ∈ since, other.key ≠ previous.key) :
    previous.key ∈ (c.after (callSteps systemShard c (earlier ++ previous :: since))).keys ↔
      ((since.map Call.key).filter (Key.isAccepted systemShard)).toFinset.card <
        c.capacity := by
  -- The calls before leave the cache timely, the previous call brings its key to the front,
  -- and the calls since touch the rivals of that key.
  rw [List.append_assoc] at h
  have hprevious := h.run.2
  have hlater := hprevious.after_reading
  obtain ⟨rest, hfront⟩ := hprevious.exists_keys_after_reading haccepted
  have habsent :
      previous.key ∉ (since.map Call.key).filter (Key.isAccepted systemShard) := by
    intro hmem
    obtain ⟨other, hother, hkey⟩ := List.mem_map.1 (List.mem_of_mem_filter hmem)
    exact hsince other hother hkey
  rw [callSteps_append, callSteps_cons, Cache.after_append, Cache.after_append]
  have hiff := hlater.run.1.mem_keys_iff hlater.bounded hfront habsent
  rwa [Cache.capacity_after, Cache.capacity_after] at hiff

/-- A call that reads a key read before has a last one before it. -/
theorem exists_previous
    {key : Key}
    (h : ∃ other ∈ calls, other.key = key) :
    ∃ earlier previous since,
      calls = earlier ++ previous :: since ∧
      previous.key = key ∧
      ∀ other ∈ since, other.key ≠ key := by
  induction calls with
  | nil =>
      simp at h
  | cons first calls ih =>
      by_cases hlater : ∃ other ∈ calls, other.key = key
      · obtain ⟨earlier, previous, since, rfl, hprevious, hsince⟩ := ih hlater
        exact ⟨first :: earlier, previous, since, rfl, hprevious, hsince⟩
      · have hsince : ∀ other ∈ calls, other.key ≠ key := by
          simpa using hlater
        have hfirst : first.key = key := by
          obtain ⟨other, hother, hkey⟩ := h
          rcases List.mem_cons.1 hother with rfl | hother
          · exact hkey
          · exact absurd hkey (hsince other hother)
        exact ⟨[], first, calls, rfl, hfirst, hsince⟩

/-- From an empty cache on, exactly the keys that a call would recall are held. -/
theorem Timely.mem_keys_iff_recalls
    (h : Timely systemShard c (calls ++ later))
    (hempty : c.keys = []) :
    call.key ∈ (c.after (callSteps systemShard c calls)).keys ↔
      Recalls systemShard c.capacity calls call := by
  constructor
  · intro hheld
    have htouched := h.run.1.mem_of_mem_keys hempty hheld
    rw [List.mem_filter, List.mem_map] at htouched
    obtain ⟨hread, haccepted⟩ := htouched
    obtain ⟨earlier, previous, since, rfl, hprevious, hsince⟩ := exists_previous hread
    rw [← hprevious] at hheld haccepted hsince
    have hcard := (h.mem_keys_iff_of_split haccepted hsince).1 hheld
    exact
      ⟨hprevious ▸ haccepted, earlier, previous, since, rfl, hprevious,
        hprevious ▸ hsince, hcard⟩
  · rintro ⟨haccepted, earlier, previous, since, rfl, hprevious, hsince, hcard⟩
    rw [← hprevious] at haccepted hsince ⊢
    exact (h.mem_keys_iff_of_split haccepted hsince).2 hcard

/-- A call is answered from the cache exactly if it recalls its key. -/
theorem Timely.hits_iff_recalls
    (h : Timely systemShard c (calls ++ call :: later))
    (hempty : c.keys = []) :
    (afterCalls ⟨systemShard, some c⟩ calls).Hits call ↔
      Recalls systemShard c.capacity calls call := by
  rw [afterCalls_eq, hits_iff_found, ← h.mem_keys_iff_recalls hempty]
  rcases h.run.2.outcomes with
    ⟨hheld, hfound, -, -⟩ | ⟨id, habsent, hfound, -, -⟩ | ⟨habsent, hfound, -, -⟩
  · exact iff_of_true hfound hheld
  · exact iff_of_false (by simp [hfound]) habsent
  · exact iff_of_false (by simp [hfound]) habsent

/-- What is recalled in little room is recalled in more. -/
theorem Recalls.mono
    {capacity larger : Nat}
    (h : Recalls systemShard capacity calls call)
    (hlarger : capacity ≤ larger) :
    Recalls systemShard larger calls call := by
  obtain ⟨haccepted, earlier, previous, since, hsplit, hprevious, hsince, hcard⟩ := h
  exact
    ⟨haccepted, earlier, previous, since, hsplit, hprevious, hsince,
      hcard.trans_le hlarger⟩

/-- A codec that answers from its cache whenever another does counts no fewer hits. -/
theorem hits_le_of_hits_imp
    {c' : Cache}
    (hstart : c.counters.hits ≤ c'.counters.hits)
    (himp :
      ∀ before call later, calls = before ++ call :: later →
        (afterCalls ⟨systemShard, some c⟩ before).Hits call →
        (afterCalls ⟨systemShard, some c'⟩ before).Hits call) :
    (c.after (callSteps systemShard c calls)).counters.hits ≤
      (c'.after (callSteps systemShard c' calls)).counters.hits := by
  induction calls using List.reverseRecOn with
  | nil =>
      exact hstart
  | append_singleton calls last ih =>
      have hcalls := ih fun before call later hsplit =>
        himp before call (later ++ [last]) (by simp [hsplit])
      have hlast := himp calls last [] rfl
      rw [afterCalls_eq, hits_iff_found, afterCalls_eq, hits_iff_found] at hlast
      rw [hits_after_concat, hits_after_concat]
      by_cases hhit :
          ((c.after (callSteps systemShard c calls)).get last.key last.now).found.isSome
      · rw [if_pos hhit, if_pos (hlast hhit)]
        omega
      · rw [if_neg hhit]
        omega

/-- From an empty cache on, calls in a window shorter than the time to live are timely. -/
theorem timely_empty
    (systemShard : UInt16)
    (capacity : Nat)
    (ttl : TimeSpan)
    (hcapacity : 0 < capacity)
    (hwindow : ∀ a ∈ calls, ∀ b ∈ calls, a.now - b.now < ttl.nanoseconds) :
    Timely systemShard (Cache.empty capacity ttl hcapacity) calls where
  bounded := Cache.bounded_empty capacity ttl hcapacity
  truthful := Cache.truthful_empty capacity ttl hcapacity
  inTime := by simp
  window := hwindow

/--
Of two codecs that differ in the capacity of their caches, and start with empty
ones, the larger one answers from its cache whenever the smaller one does.

The calls may be accepted or rejected, under any flavors and parameters, and
their times may come in any order, within a window shorter than the time to live.
Then a call is answered from the cache exactly if its text is accepted, its key
was read before, and fewer distinct other accepted keys than the capacity were
read since it was read last.  No counter exceeds twice the number of calls.
-/
theorem hits_of_smaller_capacity
    (systemShard : UInt16)
    (ttl : TimeSpan)
    (capacity larger : Nat)
    (hcapacity : 0 < capacity)
    (hlarger : capacity ≤ larger)
    (calls : List Call)
    (hwindow : ∀ a ∈ calls, ∀ b ∈ calls, a.now - b.now < ttl.nanoseconds) :
    let small : Codec := ⟨systemShard, some (Cache.empty capacity ttl hcapacity)⟩
    let large : Codec :=
      ⟨systemShard, some (Cache.empty larger ttl (hcapacity.trans_le hlarger))⟩
    (∀ before call later, calls = before ++ call :: later →
        ((small.afterCalls before).Hits call ↔ Recalls systemShard capacity before call) ∧
        ((large.afterCalls before).Hits call ↔ Recalls systemShard larger before call) ∧
        ((small.afterCalls before).Hits call → (large.afterCalls before).Hits call))
      ∧
    (∃ c c',
        (small.afterCalls calls).cache = some c ∧
        (large.afterCalls calls).cache = some c' ∧
        c.counters.hits ≤ c'.counters.hits ∧
        c.counters.AtMost (2 * calls.length) ∧
        c'.counters.AtMost (2 * calls.length)) := by
  intro small large
  have hroom : 0 < larger := hcapacity.trans_le hlarger
  have hhits : ∀ before call later, calls = before ++ call :: later →
      ((small.afterCalls before).Hits call ↔ Recalls systemShard capacity before call) ∧
      ((large.afterCalls before).Hits call ↔ Recalls systemShard larger before call) ∧
      ((small.afterCalls before).Hits call → (large.afterCalls before).Hits call) := by
    rintro before call later rfl
    have hsmall :=
      (timely_empty systemShard capacity ttl hcapacity hwindow).hits_iff_recalls rfl
    have hlarge :=
      (timely_empty systemShard larger ttl hroom hwindow).hits_iff_recalls rfl
    exact ⟨hsmall, hlarge, fun hhit => hlarge.2 ((hsmall.1 hhit).mono hlarger)⟩
  have hsmall := afterCalls_eq systemShard (Cache.empty capacity ttl hcapacity) calls
  have hlarge := afterCalls_eq systemShard (Cache.empty larger ttl hroom) calls
  have hatMost : ∀ (room : Nat) (hpos : 0 < room) (c : Cache),
      (afterCalls ⟨systemShard, some (Cache.empty room ttl hpos)⟩ calls).cache = some c →
      c.counters.AtMost (2 * calls.length) := by
    intro room hpos c hc
    have h := counters_after_atMost systemShard room ttl hpos hc
    rwa [List.length_map] at h
  refine
    ⟨hhits, _, _, congrArg Codec.cache hsmall, congrArg Codec.cache hlarge, ?_,
      hatMost capacity hcapacity _ (congrArg Codec.cache hsmall),
      hatMost larger hroom _ (congrArg Codec.cache hlarge)⟩
  exact hits_le_of_hits_imp le_rfl fun before call later hsplit =>
    (hhits before call later hsplit).2.2

/-- A rejected text disturbs neither cache, and another accepted one not the larger. -/
theorem hits_of_smaller_capacity_two :
    let first : Call := ⟨0, "0.0.1", {}⟩
    let rejected : Call := ⟨7, "x", {}⟩
    let again : Call := ⟨3, "0.0.1", {}⟩
    let other : Call := ⟨5, "7", {}⟩
    let last : Call := ⟨2, "0.0.1", {}⟩
    let calls := [first, rejected, again, other, last]
    let small : Codec := ⟨0, some (Cache.empty 1 ⟨10⟩ (by decide))⟩
    let large : Codec := ⟨0, some (Cache.empty 2 ⟨10⟩ (by decide))⟩
    0 < 1 ∧
    1 ≤ 2 ∧
    (∀ a ∈ calls, ∀ b ∈ calls, a.now - b.now < 10) ∧
    (small.afterCalls [first, rejected]).Hits again ∧
    (large.afterCalls [first, rejected]).Hits again ∧
    (large.afterCalls [first, rejected, again, other]).Hits last := by
  intro first rejected again other last calls small large
  have hwindow : ∀ a ∈ calls, ∀ b ∈ calls, a.now - b.now < 10 := by
    simp [calls, first, rejected, again, other, last]
  have haccepted : again.key.isAccepted 0 = true := by
    simp only [again, Call.key]
    cbv
  have hrejected : rejected.key.isAccepted 0 = false := by
    simp only [rejected, Call.key]
    cbv
  have hother : other.key.isAccepted 0 = true := by
    simp only [other, Call.key]
    cbv
  have hagain : Recalls 0 1 [first, rejected] again :=
    ⟨haccepted, [], first, [rejected], rfl, rfl, by decide, by simp [hrejected]⟩
  have hlast : Recalls 0 2 [first, rejected, again, other] last :=
    ⟨haccepted, [first, rejected], again, [other], rfl, rfl, by decide, by simp [hother]⟩
  obtain ⟨hhits, -⟩ :=
    hits_of_smaller_capacity 0 ⟨10⟩ 1 2 (by decide) (by decide) calls hwindow
  obtain ⟨hsmall, -, hboth⟩ := hhits [first, rejected] again [other, last] rfl
  obtain ⟨-, hlarge, -⟩ := hhits [first, rejected, again, other] last [] rfl
  have hhit := hsmall.2 hagain
  exact ⟨by decide, by decide, hwindow, hhit, hboth hhit, hlarge.2 hlast⟩

end Calls

end Codec
end LedgerEntity
