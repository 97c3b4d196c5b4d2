import LedgerEntity.Codec.Request
import LedgerEntity.Proofs.Cache.Entries
import LedgerEntity.Proofs.Decode.Reference

/-!
# A cache never changes a reading

A codec with a cache reads every value as the same codec without a cache does.

The invariant is about each entry by itself: it holds the ID that its own raw
text denotes under its own flavor.  Look-ups, insertions of true readings,
expiry, eviction and clearing keep it, at whatever time they take place, since
none of them makes an entry other than the one put in.

The main statement follows a run of any requests from an empty cache, in which
direct insertions are limited to true readings.
-/

namespace LedgerEntity

/-- Every entry holds the ID that its raw text denotes under its flavor. -/
def Cache.Truthful
    (c : Cache)
    (systemShard : UInt16) :
    Prop :=
  ∀ e ∈ c.entries, decode e.key.raw e.key.flavor systemShard = .ok e.id

/-- A direct insertion puts in a true reading; other requests are free. -/
def Request.Faithful
    (systemShard : UInt16) :
    Request → Prop
  | .insert key id => decode key.raw key.flavor systemShard = .ok id
  | _ => True

/-- The raw text that a request reads, if it is a reading, and the options. -/
def Request.reading? :
    Request → Option (Option String × ParseOptions)
  | .parse raw options => some (raw, options)
  | .parsePacked packed options =>
      some (packed.map Decimal.intText, options)
  | _ => none

/-- A raw text that is present never denotes the null ID. -/
theorem decode_ne_ok_null
    (raw : String)
    (flavor : Flavor)
    (systemShard : UInt16) :
    decode raw flavor systemShard ≠ .ok .null := by
  intro h
  obtain ⟨place, hplace, -⟩ := decode_eq_ok_iff.1 h
  cases hplace

namespace Cache

section Truthful

variable {c : Cache}
variable {systemShard : UInt16}

theorem truthful_empty
    (capacity : Nat)
    (ttl : TimeSpan)
    (hcapacity : 0 < capacity) :
    (empty capacity ttl hcapacity).Truthful systemShard := by
  intro e he
  simp at he

theorem truthful_clear :
    c.clear.Truthful systemShard := by
  intro e he
  simp at he

theorem Truthful.get
    (h : c.Truthful systemShard)
    (key : Key)
    (now : Int) :
    (c.get key now).cache.Truthful systemShard :=
  fun e he => h e (c.mem_of_mem_entries_get key now he)

theorem Truthful.insert
    (h : c.Truthful systemShard)
    {key : Key}
    {id : EntityId}
    (hid : decode key.raw key.flavor systemShard = .ok id)
    (now : Int) :
    (c.insert key id now).cache.Truthful systemShard := by
  intro e he
  rcases c.mem_of_mem_entries_insert key id now he with rfl | he
  · exact hid
  · exact h e he

/-- A look-up in a truthful cache finds only what the key denotes. -/
theorem Truthful.decode_of_found
    (h : c.Truthful systemShard)
    {key : Key}
    {now : Int}
    {id : EntityId}
    (hfound : (c.get key now).found = some id) :
    decode key.raw key.flavor systemShard = .ok id := by
  obtain ⟨e, he, rfl, rfl, -⟩ := c.exists_entry_of_found_get key now hfound
  exact h e he

end Truthful

end Cache

namespace Codec

/-- The same codec without its cache. -/
def withoutCache
    (codec : Codec) :
    Codec :=
  { codec with cache := none }

/-- The cache of the codec, if there is one, is truthful. -/
def Truthful
    (codec : Codec) :
    Prop :=
  ∀ c, codec.cache = some c → c.Truthful codec.systemShard

section Reading

variable (codec : Codec)
variable (raw : String)
variable (options : ParseOptions)
variable (now : Int)

/--
Without a cache a present text is decoded, and a rejection becomes an error of this
call.
-/
theorem value_parsePresent_withoutCache :
    (codec.withoutCache.parsePresent raw options now).value =
      match decode raw options.flavor codec.systemShard with
      | .ok id => .ok id
      | .error rejection => .error (rejection.toError raw options.parameter) := by
  simp only [parsePresent, withoutCache, lookUp]
  cases decode raw options.flavor codec.systemShard <;> rfl

/-- A look-up of a truthful codec finds only what the key denotes. -/
theorem Truthful.decode_of_found
    {codec : Codec}
    (h : codec.Truthful)
    {key : Key}
    {now : Int}
    {id : EntityId}
    (hfound : (codec.lookUp key now).value = some id) :
    decode key.raw key.flavor codec.systemShard = .ok id := by
  cases hcache : codec.cache with
  | none =>
      simp [lookUp, hcache] at hfound
  | some c =>
      simp only [lookUp, hcache] at hfound
      exact (h c hcache).decode_of_found hfound

/-- A truthful codec reads a present text as it would without its cache. -/
theorem Truthful.value_parsePresent
    {codec : Codec}
    (h : codec.Truthful) :
    (codec.parsePresent raw options now).value =
      (codec.withoutCache.parsePresent raw options now).value := by
  rw [value_parsePresent_withoutCache]
  cases hfound : (codec.lookUp ⟨raw, options.flavor⟩ now).value with
  | some id =>
      have hdecode := h.decode_of_found hfound
      simp only at hdecode
      simp [parsePresent, hfound, hdecode]
  | none =>
      cases hdecode : decode raw options.flavor codec.systemShard <;>
        simp [parsePresent, hfound, hdecode]

/-- A truthful codec reads every value as it would without its cache. -/
theorem Truthful.value_parse
    {codec : Codec}
    (h : codec.Truthful)
    (raw : Option String) :
    (codec.parse raw options now).value =
      (codec.withoutCache.parse raw options now).value := by
  cases raw with
  | none =>
      by_cases hnullable : options.nullable <;>
        simp [parse, hnullable]
  | some text =>
      exact h.value_parsePresent text options now

/-- A reading request reads its value. -/
theorem perform_of_reading?
    {codec : Codec}
    {now : Int}
    {request : Request}
    {raw : Option String}
    {options : ParseOptions}
    (h : request.reading? = some (raw, options)) :
    codec.perform now request =
      ⟨.parsed (codec.parse raw options now).value, (codec.parse raw options now).codec,
        (codec.parse raw options now).events⟩ := by
  cases request with
  | parse raw' options' =>
      cases h
      rfl
  | parsePacked packed options' =>
      cases h
      rfl
  | get key => cases h
  | insert key id => cases h
  | contains key => cases h
  | clear => cases h
  | describe => cases h

/-- A truthful codec answers a reading as it would without its cache. -/
theorem Truthful.value_perform
    {codec : Codec}
    (h : codec.Truthful)
    {request : Request}
    {raw : Option String}
    {options : ParseOptions}
    (hreading : request.reading? = some (raw, options)) :
    (codec.perform now request).value =
        .parsed (codec.withoutCache.parse raw options now).value
      ∧
    (codec.withoutCache.perform now request).value =
        .parsed (codec.withoutCache.parse raw options now).value := by
  rw [perform_of_reading? hreading, perform_of_reading? hreading, h.value_parse]
  exact ⟨rfl, rfl⟩

end Reading

section Preservation

variable {codec : Codec}

/-- A codec with another truthful cache for the same shard is truthful. -/
theorem truthful_mk
    {systemShard : UInt16}
    {c : Cache}
    (h : c.Truthful systemShard) :
    (⟨systemShard, some c⟩ : Codec).Truthful := by
  intro c' hc'
  obtain rfl : c = c' := by simpa using hc'
  exact h

@[simp] theorem systemShard_lookUp
    (key : Key)
    (now : Int) :
    (codec.lookUp key now).codec.systemShard = codec.systemShard := by
  cases hcache : codec.cache <;> simp [lookUp, hcache]

@[simp] theorem systemShard_remember
    (key : Key)
    (id : EntityId)
    (now : Int) :
    (codec.remember key id now).codec.systemShard = codec.systemShard := by
  cases hcache : codec.cache <;> simp [remember, hcache]

theorem Truthful.lookUp
    (h : codec.Truthful)
    (key : Key)
    (now : Int) :
    (codec.lookUp key now).codec.Truthful := by
  cases hcache : codec.cache with
  | none =>
      simpa [Codec.lookUp, hcache] using h
  | some c =>
      simp only [Codec.lookUp, hcache]
      exact truthful_mk ((h c hcache).get key now)

theorem Truthful.remember
    (h : codec.Truthful)
    (key : Key)
    {id : EntityId}
    (hid : decode key.raw key.flavor codec.systemShard = .ok id)
    (now : Int) :
    (codec.remember key id now).codec.Truthful := by
  cases hcache : codec.cache with
  | none =>
      simpa [Codec.remember, hcache] using h
  | some c =>
      simp only [Codec.remember, hcache]
      exact truthful_mk ((h c hcache).insert hid now)

/-- Reading a present text keeps the shard and the truth of the cache. -/
theorem Truthful.parsePresent
    (h : codec.Truthful)
    (raw : String)
    (options : ParseOptions)
    (now : Int) :
    (codec.parsePresent raw options now).codec.Truthful
      ∧
    (codec.parsePresent raw options now).codec.systemShard = codec.systemShard := by
  have hlookUp := h.lookUp ⟨raw, options.flavor⟩ now
  cases hfound : (codec.lookUp ⟨raw, options.flavor⟩ now).value with
  | some id =>
      simp [Codec.parsePresent, hfound, hlookUp]
  | none =>
      cases hdecode : decode raw options.flavor codec.systemShard with
      | error rejection =>
          simp [Codec.parsePresent, hfound, hdecode, hlookUp]
      | ok id =>
          have hid :
              decode raw options.flavor
                (codec.lookUp ⟨raw, options.flavor⟩ now).codec.systemShard = .ok id := by
            simpa using hdecode
          have hremember :
              ((codec.lookUp ⟨raw, options.flavor⟩ now).codec.remember
                ⟨raw, options.flavor⟩ id now).codec.Truthful :=
            hlookUp.remember ⟨raw, options.flavor⟩ hid now
          simp [Codec.parsePresent, hfound, hdecode, hremember]

theorem Truthful.parse
    (h : codec.Truthful)
    (raw : Option String)
    (options : ParseOptions)
    (now : Int) :
    (codec.parse raw options now).codec.Truthful
      ∧
    (codec.parse raw options now).codec.systemShard = codec.systemShard := by
  cases raw with
  | none =>
      by_cases hnullable : options.nullable <;>
        simp [Codec.parse, hnullable, h]
  | some text =>
      exact h.parsePresent text options now

theorem Truthful.withCache
    (h : codec.Truthful)
    {act : Cache → Cache.Answer Reply}
    (hact :
      ∀ c : Cache, c.Truthful codec.systemShard →
        (act c).cache.Truthful codec.systemShard) :
    (codec.withCache act).codec.Truthful
      ∧
    (codec.withCache act).codec.systemShard = codec.systemShard := by
  cases hcache : codec.cache with
  | none =>
      simpa [Codec.withCache, hcache] using h
  | some c =>
      simp only [Codec.withCache, hcache]
      exact ⟨truthful_mk (hact c (h c hcache)), trivial⟩

/-- One faithful request keeps the shard and the truth of the cache. -/
theorem Truthful.perform
    (h : codec.Truthful)
    {request : Request}
    (hfaithful : request.Faithful codec.systemShard)
    (now : Int) :
    (codec.perform now request).codec.Truthful
      ∧
    (codec.perform now request).codec.systemShard = codec.systemShard := by
  cases request with
  | parse raw options =>
      exact h.parse raw options now
  | parsePacked packed options =>
      exact h.parse (packed.map Decimal.intText) options now
  | get key =>
      exact h.withCache fun c hc => hc.get key now
  | insert key id =>
      exact h.withCache fun c hc => hc.insert hfaithful now
  | contains key =>
      exact h.withCache fun c hc => hc
  | clear =>
      exact h.withCache fun c hc => Cache.truthful_clear
  | describe =>
      exact h.withCache fun c hc => hc

/--
Along a run of faithful requests every reading is answered as the same codec
without its cache answers it.
-/
theorem Truthful.run
    (h : codec.Truthful)
    {requests : List (Int × Request)}
    (hfaithful : ∀ r ∈ requests, r.2.Faithful codec.systemShard)
    {i : Nat}
    {now : Int}
    {request : Request}
    {raw : Option String}
    {options : ParseOptions}
    (hrequest : requests[i]? = some (now, request))
    (hreading : request.reading? = some (raw, options)) :
    ∃ answer,
      (codec.run requests)[i]? = some answer ∧
      answer.value = .parsed (codec.withoutCache.parse raw options now).value := by
  induction requests generalizing codec i with
  | nil =>
      simp at hrequest
  | cons first later ih =>
      obtain ⟨hfirst, hlater⟩ := List.forall_mem_cons.1 hfaithful
      cases i with
      | zero =>
          obtain rfl : first = (now, request) := by simpa using hrequest
          exact ⟨_, rfl, (h.value_perform now hreading).1⟩
      | succ i =>
          -- The later requests are answered by the codec that the first one leaves.
          obtain ⟨hnext, hshard⟩ := h.perform hfirst first.1
          rw [← hshard] at hlater
          obtain ⟨answer, hanswer, hvalue⟩ :=
            ih hnext hlater (by simpa using hrequest)
          refine ⟨answer, by simpa [Codec.run] using hanswer, ?_⟩
          simpa [withoutCache, hshard] using hvalue

end Preservation

end Codec
end LedgerEntity
