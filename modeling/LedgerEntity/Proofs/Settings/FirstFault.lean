import LedgerEntity.Codec.Basic
import LedgerEntity.Proofs.Lists.FirstFailure
import LedgerEntity.Proofs.Settings.Loading
import LedgerEntity.Proofs.Text.Trimming

/-!
# The first fault of an environment

Loading settings has one outcome for each environment, told here without the
reader of words and without trimming.

A number is written in a text as a word with white space around it.  The
variables are read in a fixed order, and each gives the number written in its
text, or its default if it is not set.  If all of them give a number and the
shard is in range, then these numbers are the settings, and a codec can be made
of them.  Otherwise loading fails with the first fault: the first text in which
no number is written, and only without any such text the shard out of range.
-/

namespace LedgerEntity

section Definitions

/-- A number is written in a text: a word, with white space around it or not. -/
def Writes
    (text : String)
    (n : Nat) :
    Prop :=
  ∃ word, Blank.Trims text.toList word ∧ DecimalWord word n

namespace Environment

/-- The variables in the order in which they are read, each with its default. -/
def defaults : List (String × Nat) :=
  [ ("MIRROR_SHARD", 0),
    ("MIRROR_CACHE_ENTITY_ID_MAX_SIZE", 100000),
    ("MIRROR_CACHE_ENTITY_ID_MAX_AGE", 1800) ]

/-- A variable gives its default if it is not set, or else the number written in its text. -/
def Gives
    (environment : Environment)
    (entry : String × Nat)
    (n : Nat) :
    Prop :=
  (environment entry.1 = none ∧ n = entry.2) ∨
    ∃ text, environment entry.1 = some text ∧ Writes text n

/-- A number is written in the text of every variable that is set. -/
def WellFormed
    (environment : Environment) :
    Prop :=
  ∀ entry ∈ defaults, ∀ text, environment entry.1 = some text → ∃ n, Writes text n

/-- The numbers of the variables, in order. -/
def numbers
    (environment : Environment) :
    Except SettingsError (List Nat) :=
  defaults.mapM fun entry => environment.number entry.1 entry.2

/--
What is wrong first: a text without a number, or with none of these a shard out of
range.
-/
inductive FirstFault
    (environment : Environment) :
    SettingsError → Prop
  | text
      {before after : List (String × Nat)}
      {entry : String × Nat}
      {text : String}
      (horder : defaults = before ++ entry :: after)
      (hbefore : ∀ earlier ∈ before, ∃ n, environment.Gives earlier n)
      (hset : environment entry.1 = some text)
      (hwritten : ∀ n, ¬ Writes text n) :
      FirstFault environment (.invalidValue entry.1 text)
  | shard
      {shard size age : Nat}
      (hnumbers : List.Forall₂ environment.Gives defaults [shard, size, age])
      (hlarge : 32767 < shard) :
      FirstFault environment (.shardOutOfRange shard)

end Environment

/--
A codec has the shard of the settings, and an empty cache of their size and age, if
any.
-/
structure Codec.Serves
    (codec : Codec)
    (s : Settings) :
    Prop where
  systemShard : codec.systemShard.toNat = s.systemShard
  cache_eq_none : s.cacheMaxSize = 0 → codec.cache = none
  exists_cache : s.cacheMaxSize ≠ 0 →
    ∃ cache, codec.cache = some cache ∧
      cache.capacity = s.cacheMaxSize ∧
      cache.ttl.nanoseconds = s.cacheMaxAgeSecs * 1000000000 ∧
      cache.entries = []

end Definitions

theorem writes_iff
    {text : String}
    {n : Nat} :
    Writes text n ↔ DecimalWord (Blank.trim text.toList) n := by
  simp only [Writes, ← Blank.trim_eq_iff]
  exact exists_eq_left'

theorem writes_iff_readWord?
    {text : String}
    {n : Nat} :
    Writes text n ↔ Decimal.readWord? (Blank.trim text.toList) = some n :=
  writes_iff.trans Decimal.readWord?_eq_some_iff.symm

namespace Environment

variable {environment : Environment}
variable {entry : String × Nat}
variable {error : SettingsError}

theorem holds_iff_gives
    {n : Nat} :
    Holds entry.2 (environment entry.1) n ↔ environment.Gives entry n := by
  constructor
  · intro h
    generalize hvalue : environment entry.1 = value at h
    cases h with
    | unset => exact .inl ⟨hvalue, rfl⟩
    | word hword => exact .inr ⟨_, hvalue, writes_iff.2 hword⟩
  · rintro (⟨hvalue, rfl⟩ | ⟨text, hvalue, hwrites⟩)
    · rw [hvalue]
      exact .unset
    · rw [hvalue]
      exact .word (writes_iff.1 hwrites)

theorem number_eq_ok_iff_gives
    {n : Nat} :
    environment.number entry.1 entry.2 = .ok n ↔ environment.Gives entry n :=
  number_eq_ok_iff.trans holds_iff_gives

/-- A variable gives one number at most. -/
theorem Gives.unique
    {n m : Nat}
    (h : environment.Gives entry n)
    (h' : environment.Gives entry m) :
    n = m :=
  Except.ok.inj ((number_eq_ok_iff_gives.2 h).symm.trans (number_eq_ok_iff_gives.2 h'))

/-- Only a text can keep a variable from giving a number. -/
theorem exists_gives_iff :
    (∃ n, environment.Gives entry n) ↔
      ∀ text, environment entry.1 = some text → ∃ n, Writes text n := by
  constructor
  · rintro ⟨n, ⟨hunset, -⟩ | ⟨text, hset, hwrites⟩⟩ text' hset'
    · cases hunset.symm.trans hset'
    · cases hset.symm.trans hset'
      exact ⟨n, hwrites⟩
  · intro h
    cases hvalue : environment entry.1 with
    | none => exact ⟨entry.2, .inl ⟨hvalue, rfl⟩⟩
    | some text => exact (h text hvalue).imp fun n hn => .inr ⟨text, hvalue, hn⟩

/-- Reading a variable fails exactly with a text in which no number is written. -/
theorem number_eq_error_iff :
    environment.number entry.1 entry.2 = .error error ↔
      ∃ text, environment entry.1 = some text ∧ (∀ n, ¬ Writes text n) ∧
        error = .invalidValue entry.1 text := by
  simp only [number, writes_iff_readWord?]
  cases environment entry.1 with
  | none => simp
  | some text =>
      cases hread : Decimal.readWord? (Blank.trim text.toList) with
      | none => simp [hread, eq_comm]
      | some n => simp [hread]

/-- The numbers can be read exactly if each variable gives one. -/
theorem numbers_eq_ok_iff
    {ns : List Nat} :
    environment.numbers = .ok ns ↔ List.Forall₂ environment.Gives defaults ns := by
  simp only [numbers, mapM_eq_ok_iff, number_eq_ok_iff_gives]

theorem wellFormed_iff :
    environment.WellFormed ↔ ∃ ns, environment.numbers = .ok ns := by
  simp only [WellFormed, numbers, exists_mapM_eq_ok_iff, number_eq_ok_iff_gives,
    exists_gives_iff]

/-- Otherwise the first text in which no number is written is to blame. -/
theorem numbers_eq_error_iff :
    environment.numbers = .error error ↔
      ∃ before entry after text, defaults = before ++ entry :: after ∧
        (∀ earlier ∈ before, ∃ n, environment.Gives earlier n) ∧
        environment entry.1 = some text ∧ (∀ n, ¬ Writes text n) ∧
        error = .invalidValue entry.1 text := by
  simp only [numbers, mapM_eq_error_iff, number_eq_ok_iff_gives, number_eq_error_iff]
  constructor
  · rintro ⟨before, entry, after, horder, hbefore, text, hset, hwritten, herror⟩
    exact ⟨before, entry, after, text, horder, hbefore, hset, hwritten, herror⟩
  · rintro ⟨before, entry, after, text, horder, hbefore, hset, hwritten, herror⟩
    exact ⟨before, entry, after, horder, hbefore, text, hset, hwritten, herror⟩

end Environment

namespace Settings

variable {environment : Environment}
variable {s : Settings}
variable {error : SettingsError}

theorem validate_eq_error_iff :
    s.validate = .error error ↔
      32767 < s.systemShard ∧ error = .shardOutOfRange s.systemShard := by
  have hmax : maxShard = 32767 := rfl
  rw [validate, hmax]
  split
  · next hlarge => simp [hlarge, eq_comm]
  · next hsmall => simp [hsmall]

/--
Loading fails with the first text without a number, or goes on to the range of the
shard.
-/
theorem ofEnvironment_cases
    (environment : Environment) :
    (∃ error,
      environment.numbers = .error error ∧ ofEnvironment environment = .error error) ∨
      ∃ shard size age, environment.numbers = .ok [shard, size, age] ∧
        ofEnvironment environment =
          (validate ⟨shard, size, age⟩).map fun _ => ⟨shard, size, age⟩ := by
  have hnumbers :
      environment.numbers =
        (do
          let shard ← environment.number Environment.shardName 0
          let size ← environment.number Environment.cacheMaxSizeName 100000
          let age ← environment.number Environment.cacheMaxAgeName 1800
          .ok [shard, size, age]) := by
    simp only [Environment.numbers, Environment.defaults, List.mapM_cons, List.mapM_nil,
      bind_assoc, pure_bind]
    rfl
  rw [hnumbers, ofEnvironment]
  cases environment.number Environment.shardName 0 with
  | error error => exact .inl ⟨error, rfl, rfl⟩
  | ok shard =>
      cases environment.number Environment.cacheMaxSizeName 100000 with
      | error error => exact .inl ⟨error, rfl, rfl⟩
      | ok size =>
          cases environment.number Environment.cacheMaxAgeName 1800 with
          | error error => exact .inl ⟨error, rfl, rfl⟩
          | ok age =>
              -- Only the range of the shard is left to decide.
              refine .inr ⟨shard, size, age, rfl, ?_⟩
              change (validate ⟨shard, size, age⟩ >>= fun _ => Except.ok _) = _
              cases validate ⟨shard, size, age⟩ <;> rfl

theorem ofEnvironment_of_numbers_eq_error
    (h : environment.numbers = .error error) :
    ofEnvironment environment = .error error := by
  rcases ofEnvironment_cases environment with
    ⟨first, hnumbers, hload⟩ | ⟨shard, size, age, hnumbers, -⟩
  · obtain rfl := Except.error.inj (hnumbers.symm.trans h)
    exact hload
  · cases hnumbers.symm.trans h

theorem ofEnvironment_of_large_shard
    {shard size age : Nat}
    (h : environment.numbers = .ok [shard, size, age])
    (hlarge : 32767 < shard) :
    ofEnvironment environment = .error (.shardOutOfRange shard) := by
  rcases ofEnvironment_cases environment with
    ⟨first, hnumbers, -⟩ | ⟨shard', size', age', hnumbers, hload⟩
  · cases hnumbers.symm.trans h
  · cases hnumbers.symm.trans h
    rw [hload, validate_eq_error_iff.2 ⟨hlarge, rfl⟩]
    rfl

/-- The settings are the numbers of the variables, with a shard in range. -/
theorem ofEnvironment_eq_ok_iff_gives :
    ofEnvironment environment = .ok s ↔
      List.Forall₂ environment.Gives Environment.defaults
          [s.systemShard, s.cacheMaxSize, s.cacheMaxAgeSecs] ∧
        s.systemShard ≤ 32767 := by
  rw [ofEnvironment_eq_ok_iff, Environment.defaults]
  simp only [List.forall₂_cons, List.Forall₂.nil, and_true, and_assoc,
    ← Environment.holds_iff_gives]
  rfl

/-- Every well-formed environment with a shard in range holds settings. -/
theorem exists_ofEnvironment_eq_ok_iff :
    (∃ s, ofEnvironment environment = .ok s) ↔
      environment.WellFormed ∧
        ∃ shard, environment.Gives ("MIRROR_SHARD", 0) shard ∧ shard ≤ 32767 := by
  simp only [Environment.wellFormed_iff, ofEnvironment_eq_ok_iff_gives,
    ← Environment.numbers_eq_ok_iff]
  constructor
  · rintro ⟨s, hnumbers, hrange⟩
    obtain ⟨hshard, -⟩ := List.forall₂_cons.1 (Environment.numbers_eq_ok_iff.1 hnumbers)
    exact ⟨⟨_, hnumbers⟩, _, hshard, hrange⟩
  · rintro ⟨⟨ns, hnumbers⟩, shard, hshard, hrange⟩
    have hgiven := Environment.numbers_eq_ok_iff.1 hnumbers
    obtain ⟨shard', size, age, rfl⟩ := List.length_eq_three.1 hgiven.length_eq.symm
    obtain rfl := hshard.unique (List.forall₂_cons.1 hgiven).1
    exact ⟨⟨shard, size, age⟩, hnumbers, hrange⟩

/-- Loading fails exactly with the first fault. -/
theorem ofEnvironment_eq_error_iff :
    ofEnvironment environment = .error error ↔ environment.FirstFault error := by
  constructor
  · intro h
    rcases ofEnvironment_cases environment with
      ⟨first, hnumbers, hload⟩ | ⟨shard, size, age, hnumbers, hload⟩
    · obtain rfl := Except.error.inj (hload.symm.trans h)
      obtain ⟨before, entry, after, text, horder, hbefore, hset, hwritten, rfl⟩ :=
        Environment.numbers_eq_error_iff.1 hnumbers
      exact .text horder hbefore hset hwritten
    · rw [hload] at h
      cases hvalid : validate ⟨shard, size, age⟩ with
      | ok systemShard =>
          rw [hvalid] at h
          cases h
      | error large =>
          rw [hvalid] at h
          obtain rfl := Except.error.inj h
          obtain ⟨hlarge, rfl⟩ := validate_eq_error_iff.1 hvalid
          exact .shard (Environment.numbers_eq_ok_iff.1 hnumbers) hlarge
  · intro h
    cases h with
    | text horder hbefore hset hwritten =>
        exact
          ofEnvironment_of_numbers_eq_error
            (Environment.numbers_eq_error_iff.2
              ⟨_, _, _, _, horder, hbefore, hset, hwritten, rfl⟩)
    | shard hnumbers hlarge =>
        exact ofEnvironment_of_large_shard (Environment.numbers_eq_ok_iff.2 hnumbers) hlarge

/-- Settings with a shard in range make a codec that serves them. -/
theorem exists_ofSettings_serves
    (h : s.systemShard ≤ 32767) :
    ∃ made, Codec.ofSettings s = .ok made ∧ made.codec.Serves s := by
  have hvalid := validate_eq_ok_iff.2 ⟨h, rfl⟩
  have hword : (UInt16.ofNat s.systemShard).toNat = s.systemShard :=
    UInt16.toNat_ofNat_of_lt (Nat.lt_of_le_of_lt h (by decide))
  refine ⟨_, by rw [Codec.ofSettings, hvalid]; rfl, hword, ?_, ?_⟩
  · intro hsize
    exact dif_neg (Nat.not_lt.2 hsize.le)
  · intro hsize
    exact ⟨_, dif_pos (Nat.pos_of_ne_zero hsize), rfl, rfl, rfl⟩

/--
An environment either holds settings, of which a codec can be made, or has a
first fault.

It holds settings if a number is written in every text and the number of the
shard is at most 32767.  The settings are the numbers that the variables give,
in their order, and a codec with this shard can be made of them, with an empty
cache of their size and age unless the size is zero.

The error is the first text in which no number is written, with the name of its
variable and as it was given, or if there is none the shard that is out of range.
-/
theorem ofEnvironment_settings_or_first_fault
    (environment : Environment) :
    ((∃ s, ofEnvironment environment = .ok s) ↔
      environment.WellFormed ∧
        ∃ shard, environment.Gives ("MIRROR_SHARD", 0) shard ∧ shard ≤ 32767)
      ∧
    (∀ s, ofEnvironment environment = .ok s ↔
      List.Forall₂ environment.Gives Environment.defaults
          [s.systemShard, s.cacheMaxSize, s.cacheMaxAgeSecs] ∧
        s.systemShard ≤ 32767)
      ∧
    (∀ s, ofEnvironment environment = .ok s →
      ∃ made, Codec.ofSettings s = .ok made ∧ made.codec.Serves s)
      ∧
    ∀ error, ofEnvironment environment = .error error ↔ environment.FirstFault error := by
  refine
    ⟨exists_ofEnvironment_eq_ok_iff, fun s => ofEnvironment_eq_ok_iff_gives, ?_,
      fun error => ofEnvironment_eq_error_iff⟩
  intro s h
  exact exists_ofSettings_serves (ofEnvironment_eq_ok_iff_gives.1 h).2

/--
Blanks, a sign and zeros around a number do not matter, and a codec with a cache
can be made of what is loaded.  A text without a number is named before a shard
out of range, although the shard is read first.
-/
theorem ofEnvironment_settings_or_first_fault_padded :
    let padded : Environment :=
      .ofList
        [("MIRROR_SHARD", "\u3000+007\u0085"), ("MIRROR_CACHE_ENTITY_ID_MAX_SIZE", "5")]
    let faulty : Environment :=
      .ofList [("MIRROR_SHARD", "40000"), ("MIRROR_CACHE_ENTITY_ID_MAX_AGE", " -1 ")]
    let large : Environment := .ofList [("MIRROR_SHARD", "40000")]
    ofEnvironment padded = .ok ⟨7, 5, 1800⟩ ∧
    (∃ made, Codec.ofSettings ⟨7, 5, 1800⟩ = .ok made ∧ made.codec.Serves ⟨7, 5, 1800⟩) ∧
    ofEnvironment faulty = .error (.invalidValue "MIRROR_CACHE_ENTITY_ID_MAX_AGE" " -1 ") ∧
    ofEnvironment large = .error (.shardOutOfRange 40000) := by
  intro padded faulty large
  have hseven : Writes "\u3000+007\u0085" 7 := writes_iff_readWord?.2 (by decide)
  have hfive : Writes "5" 5 := writes_iff_readWord?.2 (by decide)
  have hlarge : Writes "40000" 40000 := writes_iff_readWord?.2 (by decide)
  have hminus : ∀ n, ¬ Writes " -1 " n := by
    intro n hn
    have hread : Decimal.readWord? (Blank.trim " -1 ".toList) = none := by decide
    cases hread.symm.trans (writes_iff_readWord?.1 hn)
  obtain ⟨-, hsettings, hcodec, -⟩ := ofEnvironment_settings_or_first_fault padded
  obtain ⟨-, -, -, hfaulty⟩ := ofEnvironment_settings_or_first_fault faulty
  obtain ⟨-, -, -, hrange⟩ := ofEnvironment_settings_or_first_fault large
  have hgiven : List.Forall₂ padded.Gives Environment.defaults [7, 5, 1800] :=
    .cons (.inr ⟨_, rfl, hseven⟩)
      (.cons (.inr ⟨_, rfl, hfive⟩) (.cons (.inl ⟨rfl, rfl⟩) .nil))
  have hloaded : ofEnvironment padded = .ok ⟨7, 5, 1800⟩ :=
    (hsettings ⟨7, 5, 1800⟩).2 ⟨hgiven, by decide⟩
  have horder :
      Environment.defaults =
        [("MIRROR_SHARD", 0), ("MIRROR_CACHE_ENTITY_ID_MAX_SIZE", 100000)] ++
          ("MIRROR_CACHE_ENTITY_ID_MAX_AGE", 1800) :: [] :=
    rfl
  have hbefore :
      ∀ earlier ∈ [("MIRROR_SHARD", 0), ("MIRROR_CACHE_ENTITY_ID_MAX_SIZE", 100000)],
        ∃ n, faulty.Gives earlier n :=
    List.forall_mem_cons.2
      ⟨⟨40000, .inr ⟨_, rfl, hlarge⟩⟩, List.forall_mem_singleton.2 ⟨100000, .inl ⟨rfl, rfl⟩⟩⟩
  have hnumbers : List.Forall₂ large.Gives Environment.defaults [40000, 100000, 1800] :=
    .cons (.inr ⟨_, rfl, hlarge⟩) (.cons (.inl ⟨rfl, rfl⟩) (.cons (.inl ⟨rfl, rfl⟩) .nil))
  exact
    ⟨hloaded, hcodec _ hloaded, (hfaulty _).2 (.text horder hbefore rfl hminus),
      (hrange _).2 (.shard hnumbers (by decide))⟩

end Settings
end LedgerEntity
