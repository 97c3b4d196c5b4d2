import LedgerEntity.Proofs.Cache.Accounts
import LedgerEntity.Proofs.Codec.Transparency

/-!
# What requests do to the cache

A codec works on its cache only by steps of the cache.

A direct request is one step.  Reading a present text is a look-up, and then an
insertion if the look-up finds nothing and the text is accepted.  An absent value
and a description take no step at all.  Hence the cache after a run of requests
is the cache after the steps of the run, the events of the run are the events of
the steps and the rejections, and whatever holds for runs of cache steps holds
for runs of requests.

The main statement carries the accounts of the cache over to runs of requests.
-/

namespace LedgerEntity

/-- Whether the message of an event tells what happened in the cache. -/
def Event.isOfCache
    (event : Event) :
    Bool :=
  decide (event.message ∈
    [ "Entity ID cache hit", "Entity ID cache entry expired",
      "Evicted entity ID cache entry" ])

/-- Whether a request looks a key up: directly, or to read a value that is present. -/
def Request.looksUp : Request → Bool
  | get _ => true
  | parse raw _ => raw.isSome
  | parsePacked packed _ => packed.isSome
  | _ => false

namespace Codec

section Definitions

variable (codec : Codec)
variable (now : Int)

/-- The cache steps of reading a present text. -/
def readingSteps
    (key : Key) :
    List Cache.Step :=
  match (codec.lookUp key now).value, decode key.raw key.flavor codec.systemShard with
  | none, .ok id => [⟨now, .get key⟩, ⟨now, .insert key id⟩]
  | _, _ => [⟨now, .get key⟩]

/-- The cache steps of reading a text that may be absent. -/
def valueSteps
    (raw : Option String)
    (options : ParseOptions) :
    List Cache.Step :=
  match raw with
  | none => []
  | some text => codec.readingSteps now ⟨text, options.flavor⟩

/-- The cache steps of a request. -/
def cacheSteps :
    Request → List Cache.Step
  | .parse raw options => codec.valueSteps now raw options
  | .parsePacked packed options => codec.valueSteps now (packed.map Decimal.intText) options
  | .get key => [⟨now, .get key⟩]
  | .insert key id => [⟨now, .insert key id⟩]
  | .contains key => [⟨now, .contains key⟩]
  | .clear => [⟨now, .clear⟩]
  | .describe => []

/-- The codec after a run of requests. -/
def after
    (requests : List (Int × Request)) :
    Codec :=
  requests.foldl (fun codec r => (codec.perform r.1 r.2).codec) codec

end Definitions

/-- The cache steps of a run of requests. -/
def runSteps
    (codec : Codec) :
    List (Int × Request) → List Cache.Step
  | [] => []
  | (now, request) :: later =>
      codec.cacheSteps now request ++ (codec.perform now request).codec.runSteps later

theorem after_concat
    (codec : Codec)
    (requests : List (Int × Request))
    (last : Int × Request) :
    codec.after (requests ++ [last]) =
      ((codec.after requests).perform last.1 last.2).codec := by
  simp [after]

/-- An answer leaves the cache after some steps, and reports the events of these steps. -/
structure Answer.Takes
    {α : Type}
    (answer : Answer α)
    (systemShard : UInt16)
    (c : Cache)
    (steps : List Cache.Step) : Prop where
  codec_eq :
    answer.codec = ⟨systemShard, some (c.after steps)⟩
  events_eq :
    answer.events.filter Event.isOfCache = c.runEvents steps

/-- A reading looks its key up, and may put in what the key denotes. -/
theorem readingSteps_cases
    (codec : Codec)
    (now : Int)
    (key : Key) :
    codec.readingSteps now key = [⟨now, .get key⟩]
      ∨
    (∃ id, decode key.raw key.flavor codec.systemShard = .ok id ∧
      codec.readingSteps now key = [⟨now, .get key⟩, ⟨now, .insert key id⟩]) := by
  simp only [readingSteps]
  split
  case h_1 id _ hdecode =>
    exact Or.inr ⟨id, hdecode, rfl⟩
  case h_2 =>
    exact Or.inl rfl

section OneRequest

variable (systemShard : UInt16)
variable (c : Cache)
variable (now : Int)

theorem isOfCache_of_mem_stepEvents
    {s : Cache.Step}
    {event : Event}
    (h : event ∈ c.stepEvents s) :
    event.isOfCache = true := by
  obtain ⟨now, operation⟩ := s
  cases operation with
  | insert key id =>
      rcases c.insert_cases key id now with
        ⟨-, hinsert⟩ | ⟨newer, last, -, -, -, hinsert⟩
      · simp [Cache.stepEvents, hinsert] at h
      · obtain rfl : event = .evicted last.key := by
          simpa [Cache.stepEvents, hinsert] using h
        rfl
  | get key =>
      rcases c.get_cases key now with ⟨-, hget⟩ | ⟨e, -, -, -, hget⟩ | ⟨e, -, -, -, hget⟩
      · simp [Cache.stepEvents, hget] at h
      · obtain rfl : event = .expired key := by
          simpa [Cache.stepEvents, hget] using h
        rfl
      · obtain rfl : event = .hit key := by
          simpa [Cache.stepEvents, hget] using h
        rfl
  | contains key =>
      simp [Cache.stepEvents] at h
  | clear =>
      simp [Cache.stepEvents] at h

theorem filter_isOfCache_stepEvents
    (s : Cache.Step) :
    (c.stepEvents s).filter Event.isOfCache = c.stepEvents s :=
  List.filter_eq_self.2 fun _ h => isOfCache_of_mem_stepEvents c h

theorem readingSteps_takes
    (raw : String)
    (options : ParseOptions) :
    (parsePresent ⟨systemShard, some c⟩ raw options now).Takes systemShard c
      (readingSteps ⟨systemShard, some c⟩ now ⟨raw, options.flavor⟩) := by
  let key : Key := ⟨raw, options.flavor⟩
  have hget := filter_isOfCache_stepEvents c ⟨now, .get key⟩
  simp only [Cache.stepEvents] at hget
  -- The cases are those of a reading: what the look-up finds, then what the text denotes.
  cases hfound : (c.get key now).found with
  | some id =>
      constructor <;>
        simp [parsePresent, lookUp, readingSteps, hfound, key, Cache.stepEvents,
          Cache.step, hget]
  | none =>
      cases hdecode : decode raw options.flavor systemShard with
      | error rejection =>
          constructor <;>
            simp [parsePresent, lookUp, readingSteps, hfound, hdecode, key,
              Cache.stepEvents, Cache.step, hget, Event.isOfCache, Event.message]
      | ok id =>
          have hinsert :=
            filter_isOfCache_stepEvents (c.get key now).cache ⟨now, .insert key id⟩
          simp only [Cache.stepEvents] at hinsert
          constructor <;>
            simp [parsePresent, lookUp, remember, readingSteps, hfound, hdecode, key,
              Cache.runEvents, Cache.stepEvents, Cache.step, hget, hinsert]

theorem valueSteps_takes
    (raw : Option String)
    (options : ParseOptions) :
    (parse ⟨systemShard, some c⟩ raw options now).Takes systemShard c
      (valueSteps ⟨systemShard, some c⟩ now raw options) := by
  cases raw with
  | none =>
      cases hnullable : options.nullable <;>
        constructor <;>
        simp [parse, valueSteps, hnullable, Cache.runEvents]
  | some text =>
      exact readingSteps_takes systemShard c now text options

/-- A request does to the cache what its steps do. -/
theorem perform_takes
    (request : Request) :
    (perform ⟨systemShard, some c⟩ now request).Takes systemShard c
      (cacheSteps ⟨systemShard, some c⟩ now request) := by
  cases request with
  | parse raw options =>
      have h := valueSteps_takes systemShard c now raw options
      exact ⟨h.codec_eq, h.events_eq⟩
  | parsePacked packed options =>
      have h := valueSteps_takes systemShard c now (packed.map Decimal.intText) options
      exact ⟨h.codec_eq, h.events_eq⟩
  | get key =>
      refine ⟨rfl, ?_⟩
      rw [cacheSteps, Cache.runEvents_singleton]
      exact filter_isOfCache_stepEvents c ⟨now, .get key⟩
  | insert key id =>
      refine ⟨rfl, ?_⟩
      rw [cacheSteps, Cache.runEvents_singleton]
      exact filter_isOfCache_stepEvents c ⟨now, .insert key id⟩
  | contains key =>
      exact ⟨rfl, rfl⟩
  | clear =>
      exact ⟨rfl, rfl⟩
  | describe =>
      exact ⟨rfl, rfl⟩

theorem countP_isLookUp_valueSteps
    (codec : Codec)
    (raw : Option String)
    (options : ParseOptions) :
    (codec.valueSteps now raw options).countP Cache.Step.isLookUp =
      if raw.isSome then 1 else 0 := by
  cases raw with
  | none =>
      rfl
  | some text =>
      rcases codec.readingSteps_cases now ⟨text, options.flavor⟩ with
        hsteps | ⟨id, -, hsteps⟩
      · rw [valueSteps, hsteps]
        rfl
      · rw [valueSteps, hsteps]
        rfl

theorem countP_isLookUp_cacheSteps
    (codec : Codec)
    (request : Request) :
    (codec.cacheSteps now request).countP Cache.Step.isLookUp =
      if request.looksUp then 1 else 0 := by
  cases request with
  | parse raw options =>
      exact countP_isLookUp_valueSteps now codec raw options
  | parsePacked packed options =>
      have h := countP_isLookUp_valueSteps now codec (packed.map Decimal.intText) options
      rw [Option.isSome_map] at h
      exact h
  | get key => rfl
  | insert key id => rfl
  | contains key => rfl
  | clear => rfl
  | describe => rfl

theorem length_valueSteps_le
    (codec : Codec)
    (raw : Option String)
    (options : ParseOptions) :
    (codec.valueSteps now raw options).length ≤ 2 := by
  cases raw with
  | none =>
      exact Nat.zero_le 2
  | some text =>
      rcases codec.readingSteps_cases now ⟨text, options.flavor⟩ with
        hsteps | ⟨id, -, hsteps⟩ <;>
        simp [valueSteps, hsteps]

theorem length_cacheSteps_le
    (codec : Codec)
    (request : Request) :
    (codec.cacheSteps now request).length ≤ 2 := by
  cases request with
  | parse raw options => exact length_valueSteps_le now codec raw options
  | parsePacked packed options =>
      exact length_valueSteps_le now codec (packed.map Decimal.intText) options
  | get key => exact one_le_two
  | insert key id => exact one_le_two
  | contains key => exact one_le_two
  | clear => exact one_le_two
  | describe => exact Nat.zero_le 2

end OneRequest

section Runs

variable (systemShard : UInt16)
variable (c : Cache)

/-- The codec after a run has the cache after the steps of the run. -/
theorem after_eq
    (requests : List (Int × Request)) :
    after ⟨systemShard, some c⟩ requests =
      ⟨systemShard, some (c.after (runSteps ⟨systemShard, some c⟩ requests))⟩ := by
  induction requests generalizing c with
  | nil =>
      rfl
  | cons r later ih =>
      obtain ⟨now, request⟩ := r
      have hnext := (perform_takes systemShard c now request).codec_eq
      simp only [after, List.foldl_cons] at ih ⊢
      rw [runSteps, hnext, Cache.after_append, ih]

/-- The events of a run, rejections apart, are those of its steps. -/
theorem filter_isOfCache_run
    (requests : List (Int × Request)) :
    ((run ⟨systemShard, some c⟩ requests).flatMap Answer.events).filter Event.isOfCache =
      c.runEvents (runSteps ⟨systemShard, some c⟩ requests) := by
  induction requests generalizing c with
  | nil =>
      rfl
  | cons r later ih =>
      obtain ⟨now, request⟩ := r
      have hnext := perform_takes systemShard c now request
      rw [run, runSteps, List.flatMap_cons, List.filter_append, hnext.events_eq,
        Cache.runEvents_append, hnext.codec_eq, ih]

theorem countP_isLookUp_runSteps
    (codec : Codec)
    (requests : List (Int × Request)) :
    (codec.runSteps requests).countP Cache.Step.isLookUp =
      requests.countP fun r => r.2.looksUp := by
  induction requests generalizing codec with
  | nil =>
      rfl
  | cons r later ih =>
      obtain ⟨now, request⟩ := r
      rw [runSteps, List.countP_append, countP_isLookUp_cacheSteps, ih, List.countP_cons,
        Nat.add_comm]

/-- A request takes at most two steps. -/
theorem length_runSteps_le
    (codec : Codec)
    (requests : List (Int × Request)) :
    (codec.runSteps requests).length ≤ 2 * requests.length := by
  induction requests generalizing codec with
  | nil =>
      exact le_refl 0
  | cons r later ih =>
      obtain ⟨now, request⟩ := r
      have hfirst := length_cacheSteps_le now codec request
      have hlater := ih (codec.perform now request).codec
      rw [runSteps, List.length_append, List.length_cons]
      omega

/-- From an empty cache on, no counter exceeds twice the number of requests. -/
theorem counters_after_atMost
    (capacity : Nat)
    (ttl : TimeSpan)
    (hcapacity : 0 < capacity)
    {requests : List (Int × Request)}
    {c : Cache}
    (h : (after ⟨systemShard, some (Cache.empty capacity ttl hcapacity)⟩ requests).cache =
      some c) :
    c.counters.AtMost (2 * requests.length) := by
  rw [after_eq, Option.some.injEq] at h
  rw [← h]
  exact (Cache.counters_after_empty_atMost capacity ttl hcapacity _).mono
    (length_runSteps_le _ requests)

end Runs

section Accounts

/--
The counters account for every run of requests from an empty cache.

The codec works on the cache by steps, of which as many are look-ups as requests
that look a key up, and apart from rejections it reports the events of the steps.
After each of the steps the look-ups are hits or misses, expirations are misses,
and the entries that came in are those that are there, were driven out, were
dropped or were cleared away; clearing itself counts nothing.  The counters are
the numbers of the events, an entry that is reported as driven out was there
before the step and is gone after it, and no counter exceeds the number of steps.
-/
theorem counters_account_for_run
    (systemShard : UInt16)
    (capacity : Nat)
    (ttl : TimeSpan)
    (hcapacity : 0 < capacity)
    (requests : List (Int × Request)) :
    let start := Cache.empty capacity ttl hcapacity
    let codec : Codec := ⟨systemShard, some start⟩
    let steps := codec.runSteps requests
    ((codec.after requests).cache = some (start.after steps) ∧
      ((codec.run requests).flatMap Answer.events).filter Event.isOfCache =
        start.runEvents steps ∧
      steps.countP Cache.Step.isLookUp = requests.countP fun r => r.2.looksUp)
      ∧
    ∀ taken, taken <+: steps →
      let c := start.after taken
      let messages := (start.runEvents taken).map Event.message
      c.counters.hits + c.counters.misses = taken.countP Cache.Step.isLookUp ∧
      c.counters.expirations ≤ c.counters.misses ∧
      c.size + c.counters.evictions + c.counters.expirations + start.discarded taken =
        start.newEntries taken ∧
      c.clear.counters = c.counters ∧
      messages.count "Entity ID cache hit" = c.counters.hits ∧
      messages.count "Entity ID cache entry expired" = c.counters.expirations ∧
      messages.count "Evicted entity ID cache entry" = c.counters.evictions ∧
      (∀ s key, .evicted key ∈ c.stepEvents s → key ∈ c.keys ∧ key ∉ (c.step s).keys) ∧
      c.counters.hits + c.counters.misses ≤ taken.length ∧
      c.counters.evictions + c.counters.expirations ≤ taken.length := by
  intro start codec steps
  have hstart : start.Bounded := Cache.bounded_empty capacity ttl hcapacity
  refine
    ⟨⟨?_, filter_isOfCache_run systemShard start requests,
      countP_isLookUp_runSteps codec requests⟩, ?_⟩
  · rw [after_eq systemShard start requests]
  · intro taken _ c messages
    have haccounts := Cache.accounts_of_bounded hstart taken
    have hlookUps : c.counters.hits + c.counters.misses =
        taken.countP Cache.Step.isLookUp := by
      simpa [c, start] using haccounts.lookUps
    have hentries : c.size + c.counters.evictions + c.counters.expirations +
        start.discarded taken = start.newEntries taken := by
      simpa [c, start] using haccounts.entries
    have hatMost := Cache.counters_after_empty_atMost capacity ttl hcapacity taken
    refine
      ⟨hlookUps, ?_, hentries, rfl, ?_, ?_, ?_, ?_, hatMost.lookUps_le, hatMost.losses_le⟩
    · simpa [c, start] using haccounts.expirations_le
    · simpa [c, messages, start] using haccounts.hitEvents.symm
    · simpa [c, messages, start] using haccounts.expiredEvents.symm
    · simpa [c, messages, start] using haccounts.evictedEvents.symm
    · intro s key hevent
      exact Cache.evicted_of_mem_stepEvents (hstart.after taken) hevent

/-- In room for one a key is hit, outlives its time, and is driven out by another. -/
theorem counters_account_for_run_in_room_for_one :
    let text := "0.0.1"
    let start := Cache.empty 1 ⟨10⟩ (by decide)
    let codec : Codec := ⟨0, some start⟩
    let requests : List (Int × Request) :=
      [ (0, .parse (some text) {}), (3, .parse (some text) {}), (20, .parse (some text) {}),
        (21, .parsePacked (some 7) {}), (15, .parse none {}), (22, .get ⟨text, .any⟩),
        (23, .clear), (24, .parse (some "x") {}) ]
    let c := start.after (codec.runSteps requests)
    0 < 1 ∧
    codec.runSteps requests <+: codec.runSteps requests ∧
    c.counters.hits = 1 ∧
    c.counters.misses = 5 ∧
    c.size + c.counters.evictions + c.counters.expirations +
      start.discarded (codec.runSteps requests) = 3 := by
  intro text start codec requests c
  obtain ⟨⟨-, -, hlookUps⟩, haccounts⟩ :=
    counters_account_for_run 0 1 ⟨10⟩ (by decide) requests
  obtain ⟨hsum, -, hentries, -⟩ := haccounts _ (List.prefix_refl _)
  have hhits : c.counters.hits = 1 := by
    simp only [c, codec, start, requests, text]
    cbv
  have hpresent : requests.countP (fun r => r.2.looksUp) = 6 := by decide
  have hnew : start.newEntries (codec.runSteps requests) = 3 := by
    simp only [codec, start, requests, text]
    cbv
  refine ⟨by decide, List.prefix_refl _, hhits, ?_, ?_⟩
  · have hmisses := hsum.trans (hlookUps.trans hpresent)
    change c.counters.hits + c.counters.misses = 6 at hmisses
    omega
  · exact hentries.trans hnew

end Accounts

end Codec
end LedgerEntity
