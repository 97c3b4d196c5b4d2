import LedgerEntity.Proofs.Cache.Steps

/-!
# Which keys the cache holds

The least-recently-used law of the cache, stated against the history of a run.

The list of entries is ordered by the last touches of their keys, so an
insertion that needs room drives out the key whose last touch is the oldest.
A key is followed from its last touch on: the keys in front of it are keys
touched since, and as long as nothing is dropped they are all of them.  Hence
the key is held as long as fewer other keys than the capacity were touched
since, and, if no entry was dropped since, no longer than that.
-/

namespace LedgerEntity
namespace Cache

section Bounds

/-- The keys are distinct and no more than the capacity allows. -/
structure Bounded
    (c : Cache) : Prop where
  nodup : c.keys.Nodup
  length_le : c.keys.length ≤ c.capacity

variable {c : Cache}

theorem bounded_empty
    (capacity : Nat)
    (ttl : TimeSpan)
    (hcapacity : 0 < capacity) :
    (empty capacity ttl hcapacity).Bounded := by
  constructor <;> simp [keys]

theorem Bounded.step
    (h : c.Bounded)
    (s : Step) :
    (c.step s).Bounded := by
  obtain ⟨hnodup, hlength⟩ := h
  constructor
  · rcases c.step_cases s with
      ⟨-, -, hkeys⟩ | ⟨-, -, hkeys⟩ | ⟨key, -, -, hkeys⟩ | ⟨key, -, -, -, hkeys⟩ |
        ⟨key, -, -, habsent, -, newer, last, hsplit, hkeys⟩
    · rwa [hkeys]
    · simp [hkeys]
    · rw [hkeys]
      exact hnodup.filter _
    · rw [hkeys, List.nodup_cons]
      exact ⟨by simp, hnodup.filter _⟩
    · rw [hsplit] at hnodup habsent
      rw [hkeys, List.nodup_cons]
      exact
        ⟨fun hmem => habsent (List.mem_append_left _ hmem),
          (List.nodup_append.1 hnodup).1⟩
  · rw [capacity_step]
    rcases c.step_cases s with
      ⟨-, -, hkeys⟩ | ⟨-, -, hkeys⟩ | ⟨key, -, -, hkeys⟩ | ⟨key, -, -, hroom, hkeys⟩ |
        ⟨key, -, -, -, -, newer, last, hsplit, hkeys⟩
    · rwa [hkeys]
    · simp [hkeys]
    · rw [hkeys]
      exact (List.length_filter_le _ _).trans hlength
    · have hfilter := List.length_filter_le (fun k => decide (k ≠ key)) c.keys
      rw [hkeys, List.length_cons]
      rcases hroom with hmem | hroom
      · have hlt :
            (c.keys.filter fun k => decide (k ≠ key)).length < c.keys.length :=
          List.length_filter_lt_length_iff_exists.2 ⟨key, hmem, by simp⟩
        omega
      · omega
    · rw [hsplit, List.length_append, List.length_singleton] at hlength
      rwa [hkeys, List.length_cons]

theorem Bounded.after
    (h : c.Bounded)
    (steps : List Step) :
    (c.after steps).Bounded := by
  induction steps generalizing c with
  | nil =>
      exact h
  | cons s later ih =>
      exact ih (h.step s)

@[simp] theorem capacity_after
    (c : Cache)
    (steps : List Step) :
    (c.after steps).capacity = c.capacity := by
  induction steps generalizing c with
  | nil =>
      rfl
  | cons s later ih =>
      rw [after_cons, ih, capacity_step]

end Bounds

section Recency

variable (start : Cache)
variable (steps : List Step)

/-- The last touch of one key comes after the last touch of another. -/
def TouchedLater
    (newer older : Key) :
    Prop :=
  ∃ i j, start.lastTouch? newer steps = some i ∧
    start.lastTouch? older steps = some j ∧ j < i

/-- Every held key was touched, and the keys are ordered by their last touches. -/
structure ByRecency : Prop where
  touched :
    ∀ key ∈ (start.after steps).keys, ∃ i, start.lastTouch? key steps = some i
  ordered :
    (start.after steps).keys.Pairwise (start.TouchedLater steps)

variable {start steps}

theorem ByRecency.concat_of_untouched
    (h : start.ByRecency steps)
    {s : Step}
    (htouched : (start.after steps).touched? s = none)
    (hkeys : ((start.after steps).step s).keys.Sublist (start.after steps).keys) :
    start.ByRecency (steps ++ [s]) := by
  have hlast : ∀ key, start.lastTouch? key (steps ++ [s]) = start.lastTouch? key steps := by
    intro key
    simp [lastTouch?_concat, htouched]
  constructor
  · intro key hkey
    rw [after_concat] at hkey
    rw [hlast]
    exact h.touched key (hkeys.subset hkey)
  · rw [after_concat]
    refine (h.ordered.sublist hkeys).imp ?_
    intro newer older hlater
    simpa only [TouchedLater, hlast] using hlater

theorem ByRecency.concat_of_touched
    (h : start.ByRecency steps)
    {s : Step}
    {key : Key}
    {rest : List Key}
    (htouched : (start.after steps).touched? s = some key)
    (hkeys : ((start.after steps).step s).keys = key :: rest)
    (hrest : rest.Sublist (start.after steps).keys)
    (hkey : key ∉ rest) :
    start.ByRecency (steps ++ [s]) := by
  have hfront : start.lastTouch? key (steps ++ [s]) = some steps.length := by
    simp [lastTouch?_concat, htouched]
  have hlast : ∀ other ∈ rest,
      start.lastTouch? other (steps ++ [s]) = start.lastTouch? other steps := by
    intro other hother
    have hne : key ≠ other := fun heq => hkey (heq ▸ hother)
    simp [lastTouch?_concat, htouched, hne]
  constructor
  · intro other hother
    rw [after_concat, hkeys] at hother
    rcases List.mem_cons.1 hother with rfl | hother
    · exact ⟨_, hfront⟩
    · rw [hlast other hother]
      exact h.touched other (hrest.subset hother)
  · rw [after_concat, hkeys, List.pairwise_cons]
    constructor
    · intro other hother
      obtain ⟨j, hj⟩ := h.touched other (hrest.subset hother)
      refine ⟨_, j, hfront, ?_, start.lastTouch?_lt steps hj⟩
      rw [hlast other hother, hj]
    · refine (h.ordered.sublist hrest).imp_of_mem ?_
      rintro newer older hnewer holder ⟨i, j, hi, hj, hlt⟩
      refine ⟨i, j, ?_, ?_, hlt⟩
      · rw [hlast newer hnewer, hi]
      · rw [hlast older holder, hj]

/-- From an empty cache on, the keys are ordered by their last touches. -/
theorem byRecency_of_keys_eq_nil
    (hstart : start.keys = [])
    (steps : List Step) :
    start.ByRecency steps := by
  -- The history grows at its end, so the induction takes off the last step.
  induction steps using List.reverseRecOn with
  | nil =>
      constructor <;> simp [hstart]
  | append_singleton steps s ih =>
      rcases (start.after steps).step_cases s with
        ⟨htouched, -, hkeys⟩ | ⟨-, htouched, hkeys⟩ | ⟨key, htouched, -, hkeys⟩ |
          ⟨key, htouched, -, -, hkeys⟩ |
          ⟨key, htouched, -, habsent, -, newer, last, hsplit, hkeys⟩
      · exact ih.concat_of_untouched htouched (by rw [hkeys])
      · exact ih.concat_of_untouched htouched (by rw [hkeys]; exact List.nil_sublist _)
      · exact ih.concat_of_untouched htouched (by rw [hkeys]; exact List.filter_sublist)
      · exact ih.concat_of_touched htouched hkeys List.filter_sublist (by simp)
      · refine ih.concat_of_touched htouched hkeys ?_ ?_
        · rw [hsplit]
          exact List.sublist_append_left _ _
        · intro hmem
          rw [hsplit] at habsent
          exact habsent (List.mem_append_left _ hmem)

end Recency

section Competition

variable {c : Cache}
variable {key : Key}

/-- The other keys that a run touches. -/
def rivals
    (c : Cache)
    (key : Key)
    (since : List Step) :
    Finset Key :=
  (c.touches since).toFinset.erase key

theorem rivals_concat_of_untouched
    {since : List Step}
    {s : Step}
    (h : (c.after since).touched? s = none) :
    c.rivals key (since ++ [s]) = c.rivals key since := by
  simp [rivals, touches_concat, h]

theorem rivals_concat_of_touched
    {since : List Step}
    {s : Step}
    {other : Key}
    (h : (c.after since).touched? s = some other)
    (hne : other ≠ key) :
    c.rivals key (since ++ [s]) = Insert.insert other (c.rivals key since) := by
  ext k
  simp only [rivals, touches_concat, h, Option.toList_some, List.toFinset_append,
    Finset.mem_erase, Finset.mem_union, Finset.mem_insert, List.mem_toFinset,
    List.mem_singleton]
  constructor
  · rintro ⟨hk, hmem | rfl⟩
    · exact Or.inr ⟨hk, hmem⟩
    · exact Or.inl rfl
  · rintro (rfl | ⟨hk, hmem⟩)
    · exact ⟨hne, Or.inr rfl⟩
    · exact ⟨hk, Or.inl hmem⟩

/--
When another key is touched, a held key is passed by that key and stays, or it
is the last of a full cache and driven out.
-/
theorem keys_step_of_touched_other
    {s : Step}
    {other : Key}
    {pre post : List Key}
    (htouched : c.Renews s other ∨ c.Replaces s other)
    (hne : other ≠ key)
    (hkeys : c.keys = pre ++ key :: post) :
    (∃ pre' post', (c.step s).keys = pre' ++ key :: post' ∧
        ∀ k, k ∈ pre' ↔ k = other ∨ k ∈ pre)
      ∨
    (c.keys = pre ++ [key] ∧ other ∉ c.keys ∧ c.capacity ≤ c.keys.length ∧
        (c.step s).keys = other :: pre) := by
  rcases htouched with
    ⟨-, -, -, hstep⟩ | ⟨-, -, habsent, hfull, newer, last, hsplit, hstep⟩
  · left
    refine
      ⟨other :: pre.filter (· ≠ other), post.filter (· ≠ other), ?_, ?_⟩
    · rw [hstep, hkeys]
      simp [hne.symm]
    · intro k
      by_cases hk : k = other <;> simp [hk]
  · rcases List.eq_nil_or_concat post with rfl | ⟨post', last', rfl⟩
    · right
      have hparts : newer ++ [last] = pre ++ [key] := by rw [← hsplit, hkeys]
      obtain ⟨rfl, -⟩ := List.append_inj' hparts rfl
      exact ⟨hkeys, habsent, hfull, hstep⟩
    · left
      have hparts : newer ++ [last] = (pre ++ key :: post') ++ [last'] := by
        rw [← hsplit, hkeys]
        simp
      obtain ⟨rfl, -⟩ := List.append_inj' hparts rfl
      refine ⟨other :: pre, post', by simp [hstep], ?_⟩
      intro k
      simp

theorem touched?_cases
    (c : Cache)
    (s : Step) :
    (∃ other, c.touched? s = some other ∧ (c.Renews s other ∨ c.Replaces s other))
      ∨
    (c.touched? s = none ∧
      (c.Idles s ∨ s.operation = .clear ∨ ∃ other, c.Drops s other)) := by
  rcases c.step_cases s with h | ⟨hclear, htouched, -⟩ | ⟨other, h⟩ | ⟨other, h⟩ | ⟨other, h⟩
  · exact Or.inr ⟨h.1, Or.inl h⟩
  · exact Or.inr ⟨htouched, Or.inr (Or.inl hclear)⟩
  · exact Or.inr ⟨h.1, Or.inr (Or.inr ⟨other, h⟩)⟩
  · exact Or.inl ⟨other, h.1, Or.inl h⟩
  · exact Or.inl ⟨other, h.1, Or.inr h⟩

/-- The key is held, and every key in front of it is a rival. -/
def BehindRivals
    (c : Cache)
    (key : Key)
    (rivals : Finset Key) :
    Prop :=
  ∃ pre post, c.keys = pre ++ key :: post ∧ ∀ k ∈ pre, k ∈ rivals

/-- The key is held, and every rival is in front of it. -/
def PassedByRivals
    (c : Cache)
    (key : Key)
    (rivals : Finset Key) :
    Prop :=
  ∃ pre post, c.keys = pre ++ key :: post ∧ ∀ k ∈ rivals, k ∈ pre

/--
A touch of another key adds a rival; it drives the key out only if then there
are as many rivals as the capacity allows keys.
-/
theorem BehindRivals.step_touched
    {rivals : Finset Key}
    (h : c.BehindRivals key rivals)
    (hnodup : c.keys.Nodup)
    {s : Step}
    {other : Key}
    (hne : other ≠ key)
    (hstep : c.Renews s other ∨ c.Replaces s other) :
    (c.step s).BehindRivals key (Insert.insert other rivals)
      ∨
    c.capacity ≤ (Insert.insert other rivals).card := by
  obtain ⟨pre, post, hkeys, hpre⟩ := h
  rcases keys_step_of_touched_other hstep hne hkeys with
    ⟨pre', post', hkeys', hpre'⟩ | ⟨hkeys', habsent, hfull, -⟩
  · left
    refine ⟨pre', post', hkeys', ?_⟩
    intro k hk
    rcases (hpre' k).1 hk with rfl | hk
    · exact Finset.mem_insert_self _ _
    · exact Finset.mem_insert_of_mem (hpre k hk)
  · right
    -- The new key and the keys in front are as many rivals as there were keys.
    rw [hkeys'] at hnodup habsent hfull
    have hdistinct : (other :: pre).Nodup :=
      List.nodup_cons.2
        ⟨fun hmem => habsent (List.mem_append_left _ hmem),
          (List.nodup_append.1 hnodup).1⟩
    have hsubset : (other :: pre).toFinset ⊆ Insert.insert other rivals := by
      intro k hk
      rcases List.mem_cons.1 (List.mem_toFinset.1 hk) with rfl | hk
      · exact Finset.mem_insert_self _ _
      · exact Finset.mem_insert_of_mem (hpre k hk)
    have hcard := Finset.card_le_card hsubset
    rw [List.toFinset_card_of_nodup hdistinct] at hcard
    simp only [List.length_append, List.length_cons, List.length_nil] at hfull hcard
    omega

theorem BehindRivals.step_dropped
    {rivals : Finset Key}
    (h : c.BehindRivals key rivals)
    {s : Step}
    {other : Key}
    (hne : key ≠ other)
    (hstep : c.Drops s other) :
    (c.step s).BehindRivals key rivals := by
  obtain ⟨pre, post, hkeys, hpre⟩ := h
  refine ⟨pre.filter (· ≠ other), post.filter (· ≠ other), ?_, ?_⟩
  · rw [hstep.2.2, hkeys]
    simp [hne]
  · intro k hk
    exact hpre k (List.mem_of_mem_filter hk)

/-- A key that is passed by its rivals or absent remains so when another key is touched. -/
theorem passedByRivals_or_absent_step
    {rivals : Finset Key}
    (h : c.PassedByRivals key rivals ∨ key ∉ c.keys)
    (hnodup : c.keys.Nodup)
    {s : Step}
    {other : Key}
    (hne : other ≠ key)
    (hstep : c.Renews s other ∨ c.Replaces s other) :
    (c.step s).PassedByRivals key (Insert.insert other rivals)
      ∨
    key ∉ (c.step s).keys := by
  rcases h with ⟨pre, post, hkeys, hpre⟩ | habsent
  · rcases keys_step_of_touched_other hstep hne hkeys with
      ⟨pre', post', hkeys', hpre'⟩ | ⟨hkeys', -, -, hstep'⟩
    · left
      refine ⟨pre', post', hkeys', ?_⟩
      intro k hk
      rw [hpre']
      exact (Finset.mem_insert.1 hk).imp_right (hpre k)
    · right
      rw [hkeys', List.nodup_append] at hnodup
      rw [hstep', List.mem_cons, not_or]
      exact
        ⟨hne.symm, fun hmem =>
          hnodup.2.2 key hmem key (List.mem_singleton_self key) rfl⟩
  · right
    rcases hstep with ⟨-, -, -, hstep⟩ | ⟨-, -, -, -, newer, last, hsplit, hstep⟩
    · rw [hstep, List.mem_cons, not_or]
      exact ⟨hne.symm, fun hmem => habsent (List.mem_of_mem_filter hmem)⟩
    · rw [hsplit] at habsent
      rw [hstep, List.mem_cons, not_or]
      exact ⟨hne.symm, fun hmem => habsent (List.mem_append_left _ hmem)⟩

/--
From the front on, a key that is neither dropped nor cleared away stays behind
rivals only, until there are as many rivals as the capacity allows keys.
-/
theorem behindRivals_or_capacity_le
    (hbounded : c.Bounded)
    {rest : List Key}
    (hfront : c.keys = key :: rest)
    (since : List Step)
    (hclear : ∀ s ∈ since, s.operation ≠ .clear)
    (hdrops : key ∉ c.drops since)
    (hlast : key ∉ c.touches since) :
    (c.after since).BehindRivals key (c.rivals key since)
      ∨
    c.capacity ≤ (c.rivals key since).card := by
  induction since using List.reverseRecOn with
  | nil =>
      exact Or.inl ⟨[], rest, hfront, by simp⟩
  | append_singleton since s ih =>
      rw [List.forall_mem_append] at hclear
      rw [drops_concat, List.mem_append, not_or] at hdrops
      rw [touches_concat, List.mem_append, not_or] at hlast
      rw [after_concat]
      have hprevious := ih hclear.1 hdrops.1 hlast.1
      rcases (c.after since).touched?_cases s with
        ⟨other, htouched, hstep⟩ | ⟨htouched, hstep⟩
      · have hne : other ≠ key := by
          rintro rfl
          exact hlast.2 (by simp [htouched])
        rw [rivals_concat_of_touched htouched hne]
        rcases hprevious with hbehind | hcard
        · have hnext := hbehind.step_touched (hbounded.after since).nodup hne hstep
          rwa [capacity_after] at hnext
        · exact Or.inr (hcard.trans (Finset.card_le_card (Finset.subset_insert _ _)))
      · rw [rivals_concat_of_untouched htouched]
        rcases hprevious with hbehind | hcard
        · left
          rcases hstep with hidle | hcleared | ⟨other, hdropped⟩
          · simpa only [BehindRivals, hidle.2.2] using hbehind
          · exact absurd hcleared (hclear.2 s (List.mem_singleton_self s))
          · have hne : key ≠ other := by
              rintro rfl
              exact hdrops.2 (by simp [hdropped.2.1])
            exact hbehind.step_dropped hne hdropped
        · exact Or.inr hcard

/--
From the front on, while nothing is dropped or cleared away, all rivals are in
front of the key as long as it is held.
-/
theorem passedByRivals_or_absent
    (hbounded : c.Bounded)
    {rest : List Key}
    (hfront : c.keys = key :: rest)
    (since : List Step)
    (hclear : ∀ s ∈ since, s.operation ≠ .clear)
    (hdrops : c.drops since = [])
    (hlast : key ∉ c.touches since) :
    (c.after since).PassedByRivals key (c.rivals key since)
      ∨
    key ∉ (c.after since).keys := by
  induction since using List.reverseRecOn with
  | nil =>
      exact Or.inl ⟨[], rest, hfront, by simp [rivals, touches]⟩
  | append_singleton since s ih =>
      rw [List.forall_mem_append] at hclear
      rw [drops_concat, List.append_eq_nil_iff] at hdrops
      rw [touches_concat, List.mem_append, not_or] at hlast
      rw [after_concat]
      have hprevious := ih hclear.1 hdrops.1 hlast.1
      rcases (c.after since).touched?_cases s with
        ⟨other, htouched, hstep⟩ | ⟨htouched, hstep⟩
      · have hne : other ≠ key := by
          rintro rfl
          exact hlast.2 (by simp [htouched])
        rw [rivals_concat_of_touched htouched hne]
        exact
          passedByRivals_or_absent_step hprevious (hbounded.after since).nodup
            hne hstep
      · rw [rivals_concat_of_untouched htouched]
        rcases hstep with hidle | hcleared | ⟨other, hdropped⟩
        · simpa only [PassedByRivals, hidle.2.2] using hprevious
        · exact absurd hcleared (hclear.2 s (List.mem_singleton_self s))
        · simp [hdropped.2.1] at hdrops

/-- Fewer rivals than the capacity allows keys leave the key in the cache. -/
theorem mem_keys_after_of_card_rivals_lt
    (hbounded : c.Bounded)
    {rest : List Key}
    (hfront : c.keys = key :: rest)
    (since : List Step)
    (hclear : ∀ s ∈ since, s.operation ≠ .clear)
    (hdrops : key ∉ c.drops since)
    (hlast : key ∉ c.touches since)
    (hcard : (c.rivals key since).card < c.capacity) :
    key ∈ (c.after since).keys := by
  rcases behindRivals_or_capacity_le hbounded hfront since hclear hdrops hlast with
    ⟨pre, post, hkeys, -⟩ | hle
  · simp [hkeys]
  · omega

/-- While nothing is dropped, a held key has fewer rivals than the capacity allows keys. -/
theorem card_rivals_lt_of_mem_keys_after
    (hbounded : c.Bounded)
    {rest : List Key}
    (hfront : c.keys = key :: rest)
    (since : List Step)
    (hclear : ∀ s ∈ since, s.operation ≠ .clear)
    (hdrops : c.drops since = [])
    (hlast : key ∉ c.touches since)
    (hmem : key ∈ (c.after since).keys) :
    (c.rivals key since).card < c.capacity := by
  rcases passedByRivals_or_absent hbounded hfront since hclear hdrops hlast with
    ⟨pre, post, hkeys, hpre⟩ | habsent
  · have hsubset : c.rivals key since ⊆ pre.toFinset := by
      intro k hk
      exact List.mem_toFinset.2 (hpre k hk)
    have hcard : (c.rivals key since).card ≤ pre.length :=
      (Finset.card_le_card hsubset).trans (List.toFinset_card_le pre)
    have hlength := (hbounded.after since).length_le
    rw [hkeys, capacity_after, List.length_append, List.length_cons] at hlength
    omega
  · exact absurd hmem habsent

end Competition

section Law

variable {start : Cache}
variable {steps : List Step}
variable {key : Key}

/-- An insertion that does not need room leaves all other entries as they are. -/
theorem insert_of_mem_or_room
    (hbounded : start.Bounded)
    (hroom : key ∈ start.keys ∨ start.size ≠ start.capacity)
    (id : EntityId)
    (now : Int) :
    start.insert key id now =
      ⟨(), { start with entries := ⟨key, id, now⟩ :: start.others key }, []⟩ := by
  rcases start.insert_cases key id now with ⟨-, h⟩ | ⟨newer, last, habsent, hfull, -, -⟩
  · exact h
  · have hlength := hbounded.length_le
    rw [length_keys] at hlength
    rcases hroom with hmem | hroom
    · exact absurd hmem habsent
    · exact absurd (le_antisymm hlength hfull) hroom

/-- An insertion that needs room drives out the entry whose last touch is the oldest. -/
theorem insert_of_full
    (hbounded : (start.after steps).Bounded)
    (hrecency : start.ByRecency steps)
    (habsent : key ∉ (start.after steps).keys)
    (hfull : (start.after steps).size = (start.after steps).capacity)
    (id : EntityId)
    (now : Int) :
    ∃ newer victim i,
      (start.after steps).entries = newer ++ [victim] ∧
      ((start.after steps).insert key id now).cache.entries = ⟨key, id, now⟩ :: newer ∧
      victim.key ∉ ((start.after steps).insert key id now).cache.keys ∧
      start.lastTouch? victim.key steps = some i ∧
      ∀ e ∈ newer, ∃ j, start.lastTouch? e.key steps = some j ∧ i < j := by
  rcases (start.after steps).insert_cases key id now with
    ⟨hmem | hroom, -⟩ | ⟨newer, victim, -, -, hsplit, hinsert⟩
  · exact absurd hmem habsent
  · exact absurd hfull hroom.ne
  · have hkeys : (start.after steps).keys = newer.map Entry.key ++ [victim.key] := by
      simp [keys, hsplit]
    have hnodup := hbounded.nodup
    have hordered := hrecency.ordered
    have hvictim : victim.key ∈ (start.after steps).keys := by
      simp [hkeys]
    obtain ⟨i, hi⟩ := hrecency.touched victim.key hvictim
    rw [hkeys, List.nodup_append] at hnodup
    rw [hkeys, List.pairwise_append] at hordered
    refine ⟨newer, victim, i, hsplit, by rw [hinsert], ?_, hi, ?_⟩
    · rw [hinsert]
      simp only [keys, List.map_cons, List.mem_cons, not_or]
      refine ⟨fun heq => habsent (heq ▸ hvictim), fun hmem => ?_⟩
      exact hnodup.2.2 _ hmem _ (List.mem_singleton_self _) rfl
    · intro e he
      obtain ⟨j, i', hj, hi', hlt⟩ :=
        hordered.2.2 e.key (List.mem_map_of_mem he) victim.key
          (List.mem_singleton_self _)
      rw [hi] at hi'
      cases hi'
      exact ⟨j, hj, hlt⟩

/-- A touched key is at the front. -/
theorem exists_keys_step_eq_cons
    {c : Cache}
    {s : Step}
    (h : c.touched? s = some key) :
    ∃ rest, (c.step s).keys = key :: rest := by
  rcases c.touched?_cases s with ⟨other, hother, hstep⟩ | ⟨hnone, -⟩
  · obtain rfl : other = key := by simpa [hother] using h
    rcases hstep with ⟨-, -, -, hkeys⟩ | ⟨-, -, -, -, newer, last, -, hkeys⟩
    · exact ⟨_, hkeys⟩
    · exact ⟨_, hkeys⟩
  · simp [hnone] at h

/--
What a run since the last touch of a key says about its presence: few rivals
keep it, and while nothing is dropped only few rivals do.
-/
theorem residency_since_lastTouch
    (hbounded : start.Bounded)
    {i : Nat}
    (hlast : start.lastTouch? key steps = some i)
    (hclear : ∀ s ∈ steps.drop (i + 1), s.operation ≠ .clear)
    (hdrops : key ∉ (start.after (steps.take (i + 1))).drops (steps.drop (i + 1))) :
    (((start.after (steps.take (i + 1))).rivals key (steps.drop (i + 1))).card <
          start.capacity →
        key ∈ (start.after steps).keys)
      ∧
    ((start.after (steps.take (i + 1))).drops (steps.drop (i + 1)) = [] →
        key ∈ (start.after steps).keys →
        ((start.after (steps.take (i + 1))).rivals key (steps.drop (i + 1))).card <
          start.capacity) := by
  obtain ⟨before, s, since, rfl, rfl, htouched, hsince⟩ :=
    start.exists_split_of_lastTouch? steps hlast
  have htake :
      (before ++ s :: since).take (before.length + 1) = before ++ [s] := by
    simp [List.take_append]
  have hdrop : (before ++ s :: since).drop (before.length + 1) = since := by
    simp [List.drop_append]
  have hafter :
      start.after (before ++ s :: since) = ((start.after before).step s).after since := by
    rw [after_append, after_cons]
  rw [hdrop] at hclear
  rw [htake, hdrop, after_concat] at hdrops
  rw [htake, hdrop, hafter, after_concat]
  obtain ⟨rest, hfront⟩ := exists_keys_step_eq_cons htouched
  have hnext : ((start.after before).step s).Bounded :=
    (hbounded.after before).step s
  have hcapacity : ((start.after before).step s).capacity = start.capacity := by
    simp
  rw [← hcapacity]
  constructor
  · intro hcard
    exact mem_keys_after_of_card_rivals_lt hnext hfront since hclear hdrops hsince hcard
  · intro hnone hmem
    exact card_rivals_lt_of_mem_keys_after hnext hfront since hclear hnone hsince hmem

/--
The least-recently-used law, after any run from an empty cache: the keys are
distinct, within the capacity, and ordered by their last touches; an insertion
takes room from the key with the oldest last touch and only when it has to; a
test for presence is no touch; and a key stays exactly as long as its rivals
since its last touch are fewer than the capacity.
-/
theorem leastRecentlyUsed_residency
    (capacity : Nat)
    (ttl : TimeSpan)
    (hcapacity : 0 < capacity)
    (steps : List Step) :
    let start := empty capacity ttl hcapacity
    let c := start.after steps
    (c.keys.Nodup ∧ c.size ≤ capacity ∧
        c.keys.Pairwise (start.TouchedLater steps))
      ∧
    (∀ key id now, key ∈ c.keys ∨ c.size ≠ capacity →
        c.insert key id now =
          ⟨(), { c with entries := ⟨key, id, now⟩ :: c.others key }, []⟩)
      ∧
    (∀ key id now, key ∉ c.keys → c.size = capacity →
        ∃ newer victim i,
          c.entries = newer ++ [victim] ∧
          (c.insert key id now).cache.entries = ⟨key, id, now⟩ :: newer ∧
          victim.key ∉ (c.insert key id now).cache.keys ∧
          start.lastTouch? victim.key steps = some i ∧
          ∀ e ∈ newer, ∃ j, start.lastTouch? e.key steps = some j ∧ i < j)
      ∧
    (∀ now key, c.step ⟨now, .contains key⟩ = c ∧
        ∀ other, start.lastTouch? other (steps ++ [⟨now, .contains key⟩]) =
          start.lastTouch? other steps)
      ∧
    (∀ key i, start.lastTouch? key steps = some i →
        let touched := start.after (steps.take (i + 1))
        let since := steps.drop (i + 1)
        (∀ s ∈ since, s.operation ≠ .clear) →
        key ∉ touched.drops since →
          ((touched.rivals key since).card < capacity → key ∈ c.keys)
            ∧
          (touched.drops since = [] → key ∈ c.keys →
            (touched.rivals key since).card < capacity)) := by
  intro start c
  have hstart : start.Bounded := bounded_empty capacity ttl hcapacity
  have hbounded : c.Bounded := hstart.after steps
  have hrecency : start.ByRecency steps := byRecency_of_keys_eq_nil rfl steps
  have hcap : c.capacity = capacity := capacity_after start steps
  refine ⟨⟨hbounded.nodup, ?_, hrecency.ordered⟩, ?_, ?_, ?_, ?_⟩
  · rw [size, ← length_keys, ← hcap]
    exact hbounded.length_le
  · intro key id now hroom
    rw [← hcap] at hroom
    exact insert_of_mem_or_room hbounded hroom id now
  · intro key id now habsent hfull
    rw [← hcap] at hfull
    exact insert_of_full hbounded hrecency habsent hfull id now
  · intro now key
    refine ⟨rfl, fun other => ?_⟩
    simp [lastTouch?_concat, touched?]
  · intro key i hlast touched since hclear hdrops
    exact residency_since_lastTouch hstart hlast hclear hdrops

/-- With room for two, a touch saves the first key and the second is driven out. -/
theorem leastRecentlyUsed_residency_two :
    let first : Key := ⟨"0.0.1", .any⟩
    let second : Key := ⟨"0.0.2", .any⟩
    let third : Key := ⟨"0.0.3", .any⟩
    let start := empty 2 ⟨30⟩ (by decide)
    let steps : List Step :=
      [ ⟨0, .insert first .null⟩, ⟨0, .insert second .null⟩, ⟨5, .get first⟩,
        ⟨3, .contains second⟩, ⟨6, .insert third .null⟩ ]
    0 < 2 ∧
    start.lastTouch? first steps = some 2 ∧
    start.lastTouch? second steps = some 1 ∧
    (start.after (steps.take 3)).rivals first (steps.drop 3) = {third} ∧
    (start.after (steps.take 2)).rivals second (steps.drop 2) = {first, third} ∧
    first ∈ (start.after steps).keys ∧
    second ∉ (start.after steps).keys ∧
    ∃ newer victim i,
      (start.after steps).entries = newer ++ [victim] ∧
      ((start.after steps).insert second .null 7).cache.entries =
        ⟨second, .null, 7⟩ :: newer ∧
      start.lastTouch? victim.key steps = some i := by
  intro first second third start steps
  have hfirst : start.lastTouch? first steps = some 2 := by decide
  have hsecond : start.lastTouch? second steps = some 1 := by decide
  have hlaw := leastRecentlyUsed_residency 2 ⟨30⟩ (by decide) steps
  refine ⟨by decide, hfirst, hsecond, by decide, by decide, ?_, ?_, ?_⟩
  · exact (hlaw.2.2.2.2 first 2 hfirst (by decide) (by decide)).1 (by decide)
  · intro hmem
    have hlt :=
      (hlaw.2.2.2.2 second 1 hsecond (by decide) (by decide)).2 (by decide) hmem
    exact absurd hlt (by decide)
  · obtain ⟨newer, victim, i, hsplit, hinsert, -, hi, -⟩ :=
      hlaw.2.2.1 second .null 7 (by decide) (by decide)
    simp only [start]
    exact ⟨newer, victim, i, hsplit, hinsert, hi⟩

end Law

end Cache
end LedgerEntity
