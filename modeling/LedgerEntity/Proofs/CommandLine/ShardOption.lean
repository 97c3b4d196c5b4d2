import LedgerEntity.Proofs.CommandLine.Lists
import LedgerEntity.Proofs.CommandLine.Reading
import LedgerEntity.Proofs.Settings.Loading

/-!
# The shard on the command line

How far a shard among the arguments makes up for the variable of the shard.

Arguments that carry the option, wherever they carry it, are read to an
invocation with a shard.  This shard replaces the configured one, so the number
in the variable does not matter.  The settings are loaded before, though, and the
variable is read and checked with them.  A value that holds no usable shard ends
the run, as it does without the option.

So two values of the variable lead to the same run if both hold a usable shard
or neither does, and otherwise only if the rest of the environment holds no
settings either.
-/

namespace LedgerEntity
namespace CommandLine

section Definitions

/-- Settings can be loaded from the environment. -/
def Loads
    (environment : Environment) :
    Prop :=
  ∃ configured, Settings.ofEnvironment environment = .ok configured

/-- A value of the shard variable from which a shard in range is read. -/
def HoldsShard
    (value : Option String) :
    Prop :=
  ∃ n, Environment.Holds 0 value n ∧ n ≤ 32767

end Definitions

section Arguments

variable {arguments : List String}
variable {invocation : Invocation}

theorem shard_of_setFormat
    {name : String}
    {o o' : GlobalOptions}
    (h : o.setFormat name = some o') :
    o'.shard = o.shard := by
  rw [GlobalOptions.setFormat] at h
  split at h
  · cases h
  · obtain rfl := Option.some.inj h
    rfl

theorem isSome_shard_of_setShard
    {value : String}
    {o o' : GlobalOptions}
    (h : o.setShard value = some o') :
    o'.shard.isSome := by
  rw [GlobalOptions.setShard] at h
  split at h
  · cases h
  · obtain ⟨n, -, rfl⟩ := Option.map_eq_some_iff.1 h
    rfl

theorem leadingGrammar_latches :
    leadingGrammar.Latches "shard" fun o => o.shard.isSome where
  establishes hrule hchanges := by
    obtain rfl := Option.some.inj hrule
    cases hchanges with
    | value hset => exact isSome_shard_of_setShard hset
  keeps {other _ _ _} hrule hchanges hfact := by
    simp only [leadingGrammar] at hrule
    split at hrule <;> cases hrule <;> cases hchanges
    · next hset => rwa [shard_of_setFormat hset]
    · next hset => exact isSome_shard_of_setShard hset
  keeps_plain hplain := by
    cases hplain

/-- Options of which the shard is set where it is accepted, and kept by all others. -/
def SetsShard
    (option? : String → Option (OptionRule SubcommandArguments)) :
    Prop :=
  ∀ {name rule a b}, option? name = some rule → rule.Changes a b →
    (name = "shard" ∨ a.globals.shard.isSome) → b.globals.shard.isSome

theorem globals_of_setGlobals
    {globals : Option GlobalOptions}
    {a b : SubcommandArguments}
    (h : a.setGlobals globals = some b) :
    globals = some b.globals := by
  obtain ⟨o, hglobals, rfl⟩ := Option.map_eq_some_iff.1 h
  exact hglobals

theorem setsShard_sharedOption? : SetsShard (sharedOption? true) := by
  intro name rule a b hrule hchanges h
  simp only [sharedOption?] at hrule
  split at hrule <;> cases hrule <;> cases hchanges
  · next hset =>
      rw [shard_of_setFormat (globals_of_setGlobals hset)]
      exact h.resolve_left (by decide)
  · next hset => exact isSome_shard_of_setShard (globals_of_setGlobals hset)

theorem globals_of_setFlavor
    {name : String}
    {a b : SubcommandArguments}
    (h : a.setFlavor name = some b) :
    b.globals = a.globals := by
  rw [SubcommandArguments.setFlavor] at h
  split at h
  · cases h
  · obtain ⟨flavor, -, rfl⟩ := Option.map_eq_some_iff.1 h
    rfl

theorem globals_of_setParameter
    {name : String}
    {a b : SubcommandArguments}
    (h : a.setParameter name = some b) :
    b.globals = a.globals := by
  rw [SubcommandArguments.setParameter] at h
  split at h
  · cases h
  · obtain rfl := Option.some.inj h
    rfl

theorem globals_of_setNullable
    {a b : SubcommandArguments}
    (h : a.setNullable = some b) :
    b.globals = a.globals := by
  rw [SubcommandArguments.setNullable] at h
  split at h
  · cases h
  · obtain rfl := Option.some.inj h
    rfl

theorem setsShard_parseOption? : SetsShard parseOption? := by
  intro name rule a b hrule hchanges h
  rw [parseOption?.eq_def] at hrule
  split at hrule
  · cases hrule
    cases hchanges with
    | value hset =>
        rw [globals_of_setFlavor hset]
        exact h.resolve_left (by decide)
  · cases hrule
    cases hchanges with
    | value hset =>
        rw [globals_of_setParameter hset]
        exact h.resolve_left (by decide)
  · cases hrule
    cases hchanges with
    | flag hset =>
        rw [globals_of_setNullable hset]
        exact h.resolve_left (by decide)
  · exact setsShard_sharedOption? hrule hchanges h

theorem SetsShard.latches
    {option? : String → Option (OptionRule SubcommandArguments)}
    (h : SetsShard option?)
    (admits : List String → String → Bool) :
    (subcommandGrammar option? admits).Latches "shard" fun a => a.globals.shard.isSome where
  establishes hrule hchanges := h hrule hchanges (.inl rfl)
  keeps hrule hchanges hfact := h hrule hchanges (.inr hfact)
  keeps_plain hplain htake hfact := by
    obtain rfl := Option.some.inj hplain
    rw [SubcommandArguments.addPlain] at htake
    split at htake
    · obtain rfl := Option.some.inj htake
      exact hfact
    · cases htake

theorem isSome_merge
    {before later : GlobalOptions}
    (h : before.shard.isSome ∨ later.shard.isSome) :
    (before.merge later).shard.isSome := by
  rw [GlobalOptions.merge]
  cases hlater : later.shard with
  | some n => rfl
  | none => simpa [hlater] using h

/--
With the shard before or after a subcommand there is one in what both places say
together.
-/
theorem SetsShard.merge
    {option? : String → Option (OptionRule SubcommandArguments)}
    (h : SetsShard option?)
    {admits : List String → String → Bool}
    {before : GlobalOptions}
    {result : SubcommandArguments × List String}
    (hread : (subcommandGrammar option? admits).read arguments {} = .ok result)
    (hshard : before.shard.isSome ∨ Carries "shard" arguments) :
    (before.merge result.1.globals).shard.isSome := by
  have hreads := Grammar.read_eq_ok_iff.1 hread
  rcases hshard with hbefore | hcarries
  · exact isSome_merge (.inl hbefore)
  · rcases hreads.latched (h.latches admits) (.inr hcarries) with hafter | hleft
    · exact isSome_merge (.inr hafter)
    · rw [hreads.left_eq_nil rfl] at hleft
      cases hleft

theorem isSome_shard_of_readSubcommand
    {before : GlobalOptions}
    {name : String}
    {later : List String}
    (hread : readSubcommand before name later = .ok invocation)
    (hshard : before.shard.isSome ∨ Carries "shard" (name :: later)) :
    invocation.shard.isSome := by
  have hlater :
      Word.ofArgument name = .plain → before.shard.isSome ∨ Carries "shard" later :=
    fun hlook => hshard.imp_right (Grammar.carries_of_plain hlook)
  rw [readSubcommand.eq_def] at hread
  split at hread
  · -- parse
    obtain ⟨result, hresult, hinvocation⟩ := bind_eq_ok_iff.1 hread
    obtain rfl := Except.ok.inj hinvocation
    exact setsShard_parseOption?.merge hresult (hlater (by decide))
  · -- of
    obtain ⟨result, -, hinvocation⟩ := bind_eq_ok_iff.1 hread
    dsimp only at hinvocation
    split at hinvocation
    · obtain rfl := Except.ok.inj hinvocation
      rfl
    · cases hinvocation
  · -- contract
    obtain ⟨result, hresult, hinvocation⟩ := bind_eq_ok_iff.1 hread
    dsimp only at hinvocation
    split at hinvocation
    · cases hinvocation
    · obtain rfl := Except.ok.inj hinvocation
      exact setsShard_sharedOption?.merge hresult (hlater (by decide))
  · -- version
    obtain ⟨result, hresult, hinvocation⟩ := bind_eq_ok_iff.1 hread
    obtain rfl := Except.ok.inj hinvocation
    exact setsShard_sharedOption?.merge hresult (hlater (by decide))
  · -- help
    split at hread <;> cases hread
  · cases hread

/-- Arguments that carry the option are read to an invocation with a shard. -/
theorem isSome_shard_of_carries
    (hread : readArguments arguments = .ok invocation)
    (hcarries : Carries "shard" arguments) :
    invocation.shard.isSome := by
  obtain ⟨⟨before, rest⟩, hleading, hrest⟩ := bind_eq_ok_iff.1 hread
  have hreads := Grammar.read_eq_ok_iff.1 hleading
  have hlatched := hreads.latched leadingGrammar_latches (.inr hcarries)
  cases rest with
  | nil => cases hrest
  | cons name later => exact isSome_shard_of_readSubcommand hrest hlatched

end Arguments

section Loading

theorem holdsShard_some_iff
    {text : String} :
    HoldsShard (some text) ↔
      (Decimal.readWord? (Blank.trim text.toList)).any (fun n => decide (n ≤ 32767)) =
        true := by
  rw [Option.any_eq_true]
  constructor
  · rintro ⟨n, hholds, hrange⟩
    cases hholds with
    | word hword => exact ⟨n, Decimal.readWord?_eq_some_iff.2 hword, decide_eq_true hrange⟩
  · rintro ⟨n, hread, hrange⟩
    exact ⟨n, .word (Decimal.readWord?_eq_some_iff.1 hread), of_decide_eq_true hrange⟩

/-- The variable of the shard takes part in the loading by itself. -/
theorem loads_iff
    (environment : Environment) :
    Loads environment ↔
      HoldsShard (environment Environment.shardName) ∧
        Loads (environment.without Environment.shardName) := by
  have hself := environment.without_self Environment.shardName
  have hsize_eq :
      environment.without Environment.shardName Environment.cacheMaxSizeName =
        environment Environment.cacheMaxSizeName :=
    Environment.without_of_ne (by decide)
  have hage_eq :
      environment.without Environment.shardName Environment.cacheMaxAgeName =
        environment Environment.cacheMaxAgeName :=
    Environment.without_of_ne (by decide)
  constructor
  · rintro ⟨s, hs⟩
    obtain ⟨hshard, hsize, hage, hrange⟩ := Settings.ofEnvironment_eq_ok_iff.1 hs
    refine ⟨⟨_, hshard, hrange⟩, ⟨0, s.cacheMaxSize, s.cacheMaxAgeSecs⟩, ?_⟩
    rw [Settings.ofEnvironment_eq_ok_iff, hself, hsize_eq, hage_eq]
    exact ⟨.unset, hsize, hage, Nat.zero_le _⟩
  · rintro ⟨⟨n, hshard, hrange⟩, s, hs⟩
    obtain ⟨-, hsize, hage, -⟩ := Settings.ofEnvironment_eq_ok_iff.1 hs
    rw [hsize_eq] at hsize
    rw [hage_eq] at hage
    exact
      ⟨⟨n, s.cacheMaxSize, s.cacheMaxAgeSecs⟩,
        Settings.ofEnvironment_eq_ok_iff.2 ⟨hshard, hsize, hage, hrange⟩⟩

/-- Where environments differ in the shard only, the other variables decide for both. -/
theorem loads_iff_loads
    {environment environment' : Environment}
    (hagree : ∀ name, name ≠ Environment.shardName → environment name = environment' name) :
    (Loads environment ↔ Loads environment') ↔
      (HoldsShard (environment Environment.shardName) ↔
          HoldsShard (environment' Environment.shardName)) ∨
        ¬ Loads (environment.without Environment.shardName) := by
  rw [loads_iff environment, loads_iff environment', ← Environment.without_congr hagree]
  tauto

end Loading

section Runs

variable {invocation : Invocation}
variable {environment environment' : Environment}

theorem head?_append_of_head?
    {s : String}
    {c : Char}
    (h : s.toList.head? = some c)
    (t : String) :
    (s ++ t).toList.head? = some c := by
  rw [String.toList_append, List.head?_append, h]
  rfl

theorem head?_invalidMessage
    (input : String)
    (parameter : Option String) :
    (IdError.invalidMessage input parameter).toList.head? = some 'I' := by
  cases parameter with
  | none => exact head?_append_of_head? (head?_append_of_head? (by decide) input) "\""
  | some name => exact head?_append_of_head? (by decide) name

/-- The message of a failure to load the settings starts like no other message. -/
theorem head?_message
    {failure : Failure}
    (hfailure : ∀ error, failure ≠ .loading error) :
    failure.message.toList.head? = some 'I' ∨ failure.message.toList.head? = some 'N' := by
  cases failure with
  | loading error => exact absurd rfl (hfailure error)
  | unusable error => exact .inl (by simp only [Failure.message]; decide)
  | input error =>
      cases error with
      | nullNotAllowed parameter =>
          exact .inr (by simp only [Failure.message, IdError.message]; decide)
      | malformed input parameter => exact .inl (head?_invalidMessage input parameter)
      | outOfRange input parameter => exact .inl (head?_invalidMessage input parameter)

/-- A failure to load the settings reads like no other failure. -/
theorem text_ne_text_loading
    {failure : Failure}
    (hfailure : ∀ error, failure ≠ .loading error)
    (error : SettingsError) :
    failure.text ≠ (Failure.loading error).text := by
  intro htext
  have hlists := congrArg String.toList htext
  simp only [Failure.text, String.toList_append, List.append_assoc] at hlists
  have hheads := congrArg List.head? (List.append_cancel_left hlists)
  have hloading : (Failure.loading error).message.toList.head? = some 'F' := by
    simp only [Failure.message]
    decide
  simp only [List.head?_append, hloading, Option.some_or] at hheads
  rcases head?_message hfailure with hmessage | hmessage <;> simp [hmessage] at hheads

/-- Without settings a run fails, whatever it was to do. -/
theorem complete_of_not_loads
    (h : ¬ Loads environment)
    (clock : Nat → Int)
    (error : SettingsError) :
    invocation.complete environment clock = ⟨1, "", (Failure.loading error).text⟩ := by
  cases hconfigured : Settings.ofEnvironment environment with
  | ok configured => exact absurd ⟨configured, hconfigured⟩ h
  | error found =>
      have hreport : invocation.report environment clock = .error (.loading found) := by
        rw [Invocation.report, hconfigured]
        rfl
      exact (complete_of_report_error hreport).trans rfl

/-- With settings a run does not fail to load them. -/
theorem report_ne_loading
    {configured : Settings}
    (hloads : Settings.ofEnvironment environment = .ok configured)
    (clock : Nat → Int)
    (error : SettingsError) :
    invocation.report environment clock ≠ .error (.loading error) := by
  intro hreport
  cases hvalid : (invocation.adjust configured).validate with
  | error unusable =>
      simp [report_of_validate_error hloads hvalid] at hreport
  | ok systemShard =>
      rw [report_of_validate hloads hvalid clock clock] at hreport
      cases hcommand : invocation.command.report ⟨systemShard, none⟩ clock <;>
        simp [hcommand, Except.mapError] at hreport

/-- With settings a run does not leave behind what a failure to load them leaves. -/
theorem complete_ne_of_loads
    (h : Loads environment)
    (clock : Nat → Int)
    (error : SettingsError) :
    invocation.complete environment clock ≠ ⟨1, "", (Failure.loading error).text⟩ := by
  obtain ⟨configured, hconfigured⟩ := h
  intro hsame
  cases hreport : invocation.report environment clock with
  | ok report =>
      rw [complete_of_report_ok hreport] at hsame
      simp at hsame
  | error failure =>
      have hfailure : ∀ found, failure ≠ .loading found := by
        rintro found rfl
        exact report_ne_loading hconfigured clock found hreport
      rw [complete_of_report_error hreport] at hsame
      exact text_ne_text_loading hfailure error (congrArg Completion.diagnostics hsame)

/-- With a shard of its own a run is the same in all environments that hold settings. -/
theorem complete_eq_of_loads
    (hshard : invocation.shard.isSome)
    (hloads : Loads environment)
    (hloads' : Loads environment')
    (clock clock' : Nat → Int) :
    invocation.complete environment clock = invocation.complete environment' clock' := by
  obtain ⟨n, hn⟩ := Option.isSome_iff_exists.1 hshard
  obtain ⟨configured, hconfigured⟩ := hloads
  obtain ⟨configured', hconfigured'⟩ := hloads'
  have hadjust : ∀ configured, (invocation.adjust configured).systemShard = n := by
    intro configured
    rw [Invocation.adjust, hn]
    rfl
  have hsame := (hadjust configured).trans (hadjust configured').symm
  exact complete_eq_of_report_eq
    (report_eq_of_systemShard_eq hconfigured hconfigured' hsame clock clock')

/--
With a shard of its own, all that a run takes from the environment is whether settings
load.
-/
theorem complete_eq_iff_loads
    (hshard : invocation.shard.isSome)
    (clock clock' : Nat → Int) :
    invocation.complete environment clock = invocation.complete environment' clock' ↔
      (Loads environment ↔ Loads environment') := by
  -- The error itself is not shown, so any of them stands for the failure to load.
  obtain ⟨error⟩ : Nonempty SettingsError := ⟨.shardOutOfRange 0⟩
  by_cases hloads : Loads environment
  · by_cases hloads' : Loads environment'
    · have hsame := complete_eq_of_loads hshard hloads hloads' clock clock'
      exact iff_of_true hsame (iff_of_true hloads hloads')
    · rw [complete_of_not_loads hloads' clock' error]
      have hne : ¬ (Loads environment ↔ Loads environment') := fun h => hloads' (h.1 hloads)
      exact iff_of_false (complete_ne_of_loads hloads clock error) hne
  · rw [complete_of_not_loads hloads clock error]
    by_cases hloads' : Loads environment'
    · have hne : ¬ (Loads environment ↔ Loads environment') := fun h => hloads (h.2 hloads')
      exact iff_of_false (complete_ne_of_loads hloads' clock' error).symm hne
    · rw [complete_of_not_loads hloads' clock' error]
      exact iff_of_true rfl (iff_of_false hloads hloads')

end Runs

/--
A shard on the command line makes up for the variable as far as that is loaded.

For arguments that carry the option, in two environments that differ in the
variable of the shard only, the runs are the same exactly if both values of the
variable hold a usable shard, or neither does, or the other variables hold no
settings anyway.  Which usable shard the variable holds does not matter, nor do
the times of the readings.
-/
theorem run_with_shard_eq_iff
    (arguments : List String)
    (invocation : Invocation)
    (hread : readArguments arguments = .ok invocation)
    (hcarries : Carries "shard" arguments)
    (environment environment' : Environment)
    (hagree : ∀ name, name ≠ Environment.shardName → environment name = environment' name)
    (clock clock' : Nat → Int) :
    run arguments environment clock = run arguments environment' clock' ↔
      (HoldsShard (environment Environment.shardName) ↔
          HoldsShard (environment' Environment.shardName)) ∨
        ¬ Loads (environment.without Environment.shardName) := by
  have hshard := isSome_shard_of_carries hread hcarries
  have hrun :
      ∀ environment clock, run arguments environment clock =
        invocation.complete environment clock := by
    intro environment clock
    rw [run, hread]
  rw [hrun, hrun, complete_eq_iff_loads hshard, loads_iff_loads hagree]

section Samples

variable {name other : String}

theorem ofList_singleton_of_ne
    (hne : other ≠ name)
    (value : String) :
    Environment.ofList [(name, value)] other = none := by
  rw [Environment.ofList, List.lookup_eq_none_iff]
  simpa using hne

theorem without_ofList_singleton
    (name value : String) :
    (Environment.ofList [(name, value)]).without name = fun _ => none := by
  funext other
  by_cases hother : other = name
  · rw [hother, Environment.without_self]
  · rw [Environment.without_of_ne hother, ofList_singleton_of_ne hother]

theorem readArguments_shard_two :
    readArguments ["parse", "0.5", "--shard", "2"] =
      .ok ⟨.table, some 2, .parse ["0.5"] ⟨none, false, .any⟩⟩ := by
  rfl

theorem carries_shard_two :
    Carries "shard" ["parse", "0.5", "--shard", "2"] := by
  have hlook : Word.ofArgument "--shard" = .long "shard" none := by decide
  exact .later (by decide) (.later (by decide) (.here hlook))

end Samples

/--
With the shard 2 among the arguments the values `6` and `7` of the variable lead
to the same run, and so do a text without a number and a number out of range.
The run with `6` is not the run with the text without a number.
-/
theorem run_with_shard_eq_iff_four_values :
    let arguments : List String := ["parse", "0.5", "--shard", "2"]
    let environment : String → Environment :=
      fun value => .ofList [(Environment.shardName, value)]
    let clock : Nat → Int := fun i => i
    readArguments arguments = .ok ⟨.table, some 2, .parse ["0.5"] ⟨none, false, .any⟩⟩ ∧
    Carries "shard" arguments ∧
    run arguments (environment "6") clock = run arguments (environment "7") clock ∧
    run arguments (environment "x") clock = run arguments (environment "40000") clock ∧
    run arguments (environment "6") clock ≠ run arguments (environment "x") clock := by
  have hsix : HoldsShard (some "6") := holdsShard_some_iff.2 (by decide)
  have hseven : HoldsShard (some "7") := holdsShard_some_iff.2 (by decide)
  have hword : ¬ HoldsShard (some "x") := mt holdsShard_some_iff.1 (by decide)
  have hlarge : ¬ HoldsShard (some "40000") := mt holdsShard_some_iff.1 (by decide)
  have hothers : Settings.ofEnvironment (fun _ => none) = .ok ⟨0, 100000, 1800⟩ := by rfl
  intro arguments environment clock
  have hloads (value : String) :
      Loads ((environment value).without Environment.shardName) := by
    rw [without_ofList_singleton]
    exact ⟨_, hothers⟩
  have hagree (value value' other : String) (hne : other ≠ Environment.shardName) :
      environment value other = environment value' other :=
    (ofList_singleton_of_ne hne value).trans (ofList_singleton_of_ne hne value').symm
  have hsame (value value' : String) :
      run arguments (environment value) clock = run arguments (environment value') clock ↔
        (HoldsShard (some value) ↔ HoldsShard (some value')) := by
    have hiff :=
      run_with_shard_eq_iff arguments _ readArguments_shard_two carries_shard_two
        (environment value) (environment value') (hagree value value') clock clock
    rw [or_iff_left (not_not_intro (hloads value))] at hiff
    exact hiff
  exact
    ⟨readArguments_shard_two, carries_shard_two, (hsame _ _).2 (iff_of_true hsix hseven),
      (hsame _ _).2 (iff_of_false hword hlarge), fun h => hword (((hsame _ _).1 h).1 hsix)⟩

/-- A shard among the arguments does not take away all influence of the variable. -/
theorem run_with_shard_ne :
    let arguments : List String := ["parse", "0.5", "--shard", "2"]
    let usable : Environment := .ofList [(Environment.shardName, "6")]
    let unusable : Environment := .ofList [(Environment.shardName, "x")]
    let clock : Nat → Int := fun i => i
    readArguments arguments = .ok ⟨.table, some 2, .parse ["0.5"] ⟨none, false, .any⟩⟩ ∧
    Carries "shard" arguments ∧
    (∀ name, name ≠ Environment.shardName → usable name = unusable name) ∧
    (run arguments usable clock).exitCode = 0 ∧
    (run arguments unusable clock).exitCode = 1 := by
  refine ⟨readArguments_shard_two, carries_shard_two, ?_, by rfl, by rfl⟩
  intro name hne
  exact (ofList_singleton_of_ne hne "6").trans (ofList_singleton_of_ne hne "x").symm

end CommandLine
end LedgerEntity
