import LedgerEntity.Proofs.Cache.Freshness
import LedgerEntity.Proofs.Codec.CacheSteps

/-!
# Rejected readings and the cache

What a reading that ends in an error leaves in the cache.

An absent value never reaches the cache.  A present text is looked up before it
is decoded, so a rejection comes after a look-up that found nothing.  Such a
look-up keeps the entries of all other keys in their order.  It can only drop
the entry of its own key, which is then past its time.  Nothing is put in after a
rejection.

A rejected text denotes no ID, so there is no entry of it unless a direct
insertion put in something that the text does not denote.
-/

namespace LedgerEntity
namespace Cache

/--
A look-up that finds nothing spares the cache: it counts as a miss, brings in no entry,
and drops at most one, of its own key, which is past its time.
-/
structure Spares
    (before after : Cache)
    (key : Key)
    (now : Int) : Prop where
  entries_eq : after.entries = before.others key
  absent : key ∉ after.keys
  late :
    ∀ e ∈ before.entries, e.key = key → before.ttl.nanoseconds ≤ (e.age now).nanoseconds
  length_eq :
    before.entries.length = after.entries.length + if key ∈ before.keys then 1 else 0
  capacity_eq : after.capacity = before.capacity
  ttl_eq : after.ttl = before.ttl
  hits_eq : after.counters.hits = before.counters.hits
  misses_eq : after.counters.misses = before.counters.misses + 1
  evictions_eq : after.counters.evictions = before.counters.evictions
  expirations_eq :
    after.counters.expirations =
      before.counters.expirations + if key ∈ before.keys then 1 else 0

variable {c : Cache}
variable {key : Key}
variable {now : Int}

/-- A look-up that finds nothing spares the cache, and tells what it drops. -/
theorem Bounded.spares_get
    (hbounded : c.Bounded)
    (h : (c.get key now).found = none) :
    c.Spares (c.get key now).cache key now ∧
      (c.get key now).events = if key ∈ c.keys then [.expired key] else [] := by
  rcases c.get_cases key now with
    ⟨habsent, hget⟩ | ⟨e, he, hkey, hlate, hget⟩ | ⟨e, -, -, -, hget⟩
  · rw [hget, if_neg habsent]
    refine ⟨?_, rfl⟩
    exact
      { entries_eq := (others_of_not_mem habsent).symm
        absent := habsent
        late := fun e he hkey => absurd ((c.mem_keys_iff key).2 ⟨e, he, hkey⟩) habsent
        length_eq := by simp [habsent]
        capacity_eq := rfl
        ttl_eq := rfl
        hits_eq := rfl
        misses_eq := rfl
        evictions_eq := rfl
        expirations_eq := by simp [habsent] }
  · have hmem : key ∈ c.keys := (c.mem_keys_iff key).2 ⟨e, he, hkey⟩
    have hlength := length_others_of_mem hbounded.nodup hmem
    have hlate_all :
        ∀ e' ∈ c.entries, e'.key = key → c.ttl.nanoseconds ≤ (e'.age now).nanoseconds := by
      intro e' he' hkey'
      rwa [hbounded.eq_of_key_eq he' he (hkey'.trans hkey.symm)]
    rw [hget, if_pos hmem]
    refine ⟨?_, rfl⟩
    exact
      { entries_eq := rfl
        absent := by simp [mem_keys_iff, mem_others_iff]
        late := hlate_all
        length_eq := by simp [hmem, hlength]
        capacity_eq := rfl
        ttl_eq := rfl
        hits_eq := rfl
        misses_eq := rfl
        evictions_eq := rfl
        expirations_eq := by simp [hmem] }
  · rw [hget] at h
    cases h

end Cache

namespace Codec

variable {codec : Codec}
variable {now : Int}

/-- An absent value that is refused leaves the codec alone. -/
theorem parse_none_of_error
    {options : ParseOptions}
    {e : IdError}
    (h : (codec.parse none options now).value = .error e) :
    e = .nullNotAllowed options.parameter ∧
      (codec.parse none options now).codec = codec ∧
      (codec.parse none options now).events = [] := by
  by_cases hnullable : options.nullable
  · simp [parse, hnullable] at h
  · have he : IdError.nullNotAllowed options.parameter = e := by
      simpa [parse, hnullable] using h
    refine ⟨he.symm, ?_, ?_⟩ <;> simp [parse, hnullable]

/--
A present text is refused after a look-up that finds nothing, and then nothing is put
in.
-/
theorem parsePresent_of_error
    {raw : String}
    {options : ParseOptions}
    {e : IdError}
    (h : (codec.parsePresent raw options now).value = .error e) :
    let found := codec.lookUp ⟨raw, options.flavor⟩ now
    found.value = none ∧
      ∃ rejection,
        decode raw options.flavor codec.systemShard = .error rejection ∧
        e = rejection.toError raw options.parameter ∧
        (codec.parsePresent raw options now).codec = found.codec ∧
        (codec.parsePresent raw options now).events =
          found.events ++ [.rejected ⟨raw, options.flavor⟩ options.parameter rejection] := by
  intro found
  cases hfound : found.value with
  | some id =>
      simp [parsePresent, found, hfound] at h
  | none =>
      cases hdecode : decode raw options.flavor codec.systemShard with
      | ok id =>
          simp [parsePresent, found, hfound, hdecode] at h
      | error rejection =>
          have he : rejection.toError raw options.parameter = e := by
            simpa [parsePresent, found, hfound, hdecode] using h
          refine ⟨rfl, rejection, rfl, he.symm, ?_, ?_⟩ <;>
            simp [parsePresent, found, hfound, hdecode]

/-- A run of faithful requests keeps the shard and the truth of the cache. -/
theorem Truthful.after
    (h : codec.Truthful)
    {requests : List (Int × Request)}
    (hfaithful : ∀ r ∈ requests, r.2.Faithful codec.systemShard) :
    (codec.after requests).Truthful := by
  induction requests generalizing codec with
  | nil =>
      exact h
  | cons r later ih =>
      obtain ⟨hfirst, hlater⟩ := List.forall_mem_cons.1 hfaithful
      obtain ⟨hnext, hshard⟩ := h.perform hfirst r.1
      rw [← hshard] at hlater
      exact ih hnext hlater

end Codec

/-- A truthful cache holds no entry of a text that denotes no ID. -/
theorem Cache.Truthful.not_mem_keys
    {c : Cache}
    {systemShard : UInt16}
    (h : c.Truthful systemShard)
    {raw : String}
    {flavor : Flavor}
    {rejection : Rejection}
    (hdecode : decode raw flavor systemShard = .error rejection) :
    (⟨raw, flavor⟩ : Key) ∉ c.keys := by
  intro hmem
  obtain ⟨e, he, hkey⟩ := (c.mem_keys_iff _).1 hmem
  have hid := h e he
  rw [hkey] at hid
  cases hdecode.symm.trans hid

namespace Codec

/-- A present text that is refused spares the cache, and the events tell what it does. -/
theorem parsePresent_spares
    {systemShard : UInt16}
    {c : Cache}
    (hbounded : c.Bounded)
    {now : Int}
    {text : String}
    {options : ParseOptions}
    {e : IdError}
    (h : (parsePresent ⟨systemShard, some c⟩ text options now).value = .error e) :
    let key : Key := ⟨text, options.flavor⟩
    let answer := parsePresent ⟨systemShard, some c⟩ text options now
    ∃ c' rejection,
      answer.codec = ⟨systemShard, some c'⟩ ∧
      decode text options.flavor systemShard = .error rejection ∧
      e = rejection.toError text options.parameter ∧
      c.Spares c' key now ∧
      answer.events =
        (if key ∈ c.keys then [.expired key] else []) ++
          [.rejected key options.parameter rejection] := by
  intro key answer
  obtain ⟨hfound, rejection, hdecode, he, hcodec, hevents⟩ := parsePresent_of_error h
  obtain ⟨hspares, hdropped⟩ := hbounded.spares_get hfound
  refine ⟨(c.get key now).cache, rejection, hcodec, hdecode, he, hspares, ?_⟩
  rw [← hdropped]
  exact hevents

/--
A reading that ends in an error leaves the cache as it was, a late entry of its
own key apart.

After any run of requests from an empty cache, direct insertions of anything
included: an absent value that is refused changes nothing and reports nothing.  A
present text that is refused spares the cache, and the events tell the entry that
was dropped, if there was one, and the rejection.  If only true readings were ever
put in directly, in particular if nothing was, the entries stay as they are.  No
counter exceeds twice the number of requests.
-/
theorem rejected_reading_spares_cache
    (systemShard : UInt16)
    (capacity : Nat)
    (ttl : TimeSpan)
    (hcapacity : 0 < capacity)
    (requests : List (Int × Request))
    (now : Int)
    (request : Request)
    (raw : Option String)
    (options : ParseOptions)
    (hreading : request.reading? = some (raw, options)) :
    let codec := after ⟨systemShard, some (Cache.empty capacity ttl hcapacity)⟩ requests
    let answer := codec.perform now request
    ∀ e, answer.value = .parsed (.error e) →
      ∃ c c', codec = ⟨systemShard, some c⟩ ∧ answer.codec = ⟨systemShard, some c'⟩ ∧
        c'.counters.AtMost (2 * (requests.length + 1)) ∧
        (raw = none →
          e = .nullNotAllowed options.parameter ∧ c' = c ∧ answer.events = []) ∧
        ∀ text, raw = some text →
          let key : Key := ⟨text, options.flavor⟩
          ∃ rejection,
            e = rejection.toError text options.parameter ∧
            c.Spares c' key now ∧
            answer.events =
              (if key ∈ c.keys then [.expired key] else []) ++
                [.rejected key options.parameter rejection] ∧
            ((∀ r ∈ requests, r.2.Faithful systemShard) → c'.entries = c.entries) := by
  let start := Cache.empty capacity ttl hcapacity
  let c := start.after (runSteps ⟨systemShard, some start⟩ requests)
  have hbounded : c.Bounded := (Cache.bounded_empty capacity ttl hcapacity).after _
  have hafter : after ⟨systemShard, some start⟩ requests = ⟨systemShard, some c⟩ :=
    after_eq systemShard start requests
  intro codec answer e herror
  have hcodec : codec = ⟨systemShard, some c⟩ := hafter
  have hatMost : ∀ c', answer.codec = ⟨systemShard, some c'⟩ →
      c'.counters.AtMost (2 * (requests.length + 1)) := by
    intro c' hc'
    have hlast : (after ⟨systemShard, some start⟩ (requests ++ [(now, request)])).cache =
        some c' := by
      rw [after_concat]
      exact congrArg Codec.cache hc'
    have h := counters_after_atMost systemShard capacity ttl hcapacity hlast
    rwa [List.length_append, List.length_singleton] at h
  simp only [answer, perform_of_reading? hreading, hcodec, Reply.parsed.injEq]
    at herror hatMost ⊢
  cases raw with
  | none =>
      obtain ⟨he, hcodec', hevents⟩ := parse_none_of_error herror
      exact ⟨c, c, rfl, hcodec', hatMost c hcodec', fun _ => ⟨he, rfl, hevents⟩, by simp⟩
  | some text =>
      obtain ⟨c', rejection, hcodec', hdecode, he, hspares, hevents⟩ :=
        parsePresent_spares hbounded herror
      refine ⟨c, c', rfl, hcodec', hatMost c' hcodec', by simp, ?_⟩
      rintro _ ⟨⟩
      refine ⟨rejection, he, hspares, hevents, ?_⟩
      intro hfaithful
      have htruthful : (after ⟨systemShard, some start⟩ requests).Truthful :=
        (truthful_mk (Cache.truthful_empty capacity ttl hcapacity)).after hfaithful
      rw [hafter] at htruthful
      have habsent := (htruthful c rfl).not_mem_keys hdecode
      rw [hspares.entries_eq, Cache.others_of_not_mem habsent]

/-- A text planted with a false ID is refused when its entry, the newest, is late. -/
theorem rejected_reading_spares_cache_planted :
    let id : EntityId := .present ⟨0, 0, 7, by decide⟩
    let options : ParseOptions := { parameter := some "from" }
    let key : Key := ⟨"x", options.flavor⟩
    let other : Key := ⟨"0.0.7", .any⟩
    let request : Request := .parse (some "x") options
    let requests : List (Int × Request) := [(0, .insert other id), (1, .insert key id)]
    let codec := after ⟨0, some (Cache.empty 2 ⟨10⟩ (by decide))⟩ requests
    let answer := codec.perform 20 request
    0 < 2 ∧
    request.reading? = some (some "x", options) ∧
    answer.value = .parsed (.error (.malformed "x" (some "from"))) ∧
    ∃ c c', codec = ⟨0, some c⟩ ∧ answer.codec = ⟨0, some c'⟩ ∧
      c.Spares c' key 20 ∧
      c'.entries = [⟨other, id, 0⟩] ∧
      answer.events = [.expired key, .rejected key (some "from") .malformed] := by
  intro id options key other request requests codec answer
  have hvalue : answer.value = .parsed (.error (.malformed "x" (some "from"))) := by rfl
  have hkeys : codec.cache.map Cache.keys = some [key, other] := by rfl
  have hothers : codec.cache.map (Cache.others · key) = some [⟨other, id, 0⟩] := by rfl
  obtain ⟨c, c', hc, hc', -, -, hpresent⟩ :=
    rejected_reading_spares_cache 0 2 ⟨10⟩ (by decide) requests 20 request (some "x") options
      rfl _ hvalue
  obtain ⟨rejection, he, hspares, hevents, -⟩ := hpresent "x" rfl
  have hcodec : codec = ⟨0, some c⟩ := hc
  rw [hcodec] at hkeys hothers
  have hentries : c'.entries = [⟨other, id, 0⟩] :=
    hspares.entries_eq.trans (Option.some.inj hothers)
  have hheld : key ∈ c.keys := by
    rw [Option.some.inj hkeys]
    exact List.mem_cons_self
  rw [if_pos hheld] at hevents
  cases rejection with
  | malformed =>
      exact ⟨by decide, rfl, hvalue, c, c', hc, hc', hspares, hentries, hevents⟩
  | outOfRange => cases he

end Codec
end LedgerEntity
