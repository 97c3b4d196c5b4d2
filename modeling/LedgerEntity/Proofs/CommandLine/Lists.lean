import LedgerEntity.CommandLine.Run
import LedgerEntity.Proofs.Codec.Transparency
import LedgerEntity.Proofs.CommandLine.Views
import LedgerEntity.Proofs.Lists.FirstFailure

/-!
# Lists of inputs on the command line

A run over a list of inputs treats each input by itself.

It reports one row for every input, in order, or nothing but the failure of the
first input that has no row.  IDs are read by one codec that remembers, so this
says that nothing read before matters to what is read next.  The invariant is
that the cache stays truthful from one input to the next; by induction the run
is then the same as reading every input without a cache.

As a consequence the size and the age limit of the cache, and the times at which
the inputs are read, have no influence on the output and the exit code of a run.
Both formats of the output show every row.
-/

namespace LedgerEntity

namespace Codec

section Alone

variable {codec : Codec}

/-- Without a cache the time of a reading does not matter. -/
theorem value_parse_alone
    (systemShard : UInt16)
    (raw : Option String)
    (options : ParseOptions)
    (now now' : Int) :
    (parse ⟨systemShard, none⟩ raw options now).value =
      (parse ⟨systemShard, none⟩ raw options now').value := by
  cases raw with
  | none => rfl
  | some text =>
      exact
        (value_parsePresent_withoutCache ⟨systemShard, none⟩ text options now).trans
          (value_parsePresent_withoutCache ⟨systemShard, none⟩ text options now').symm

/-- A truthful codec reads a value as a codec that never read anything, at any time. -/
theorem Truthful.value_parse_eq_alone
    (h : codec.Truthful)
    (raw : Option String)
    (options : ParseOptions)
    (now now' : Int) :
    (codec.parse raw options now).value =
      (Codec.parse ⟨codec.systemShard, none⟩ raw options now').value :=
  (h.value_parse options now raw).trans
    (value_parse_alone codec.systemShard raw options now now')

theorem truthful_alone
    (systemShard : UInt16) :
    (⟨systemShard, none⟩ : Codec).Truthful := by
  intro c hc
  cases hc

end Alone

section Making

variable {s : Settings}

/-- Settings with a usable shard make a codec of that shard, with nothing remembered yet. -/
theorem exists_ofSettings_eq
    {systemShard : UInt16}
    (h : s.validate = .ok systemShard) :
    ∃ made, ofSettings s = .ok made ∧
      made.codec.systemShard = systemShard ∧ made.codec.Truthful := by
  refine ⟨_, by rw [ofSettings, h]; rfl, rfl, ?_⟩
  intro c hc
  -- The cache of the new codec is an empty one, if the size allows for any.
  dsimp only at hc
  split at hc
  · next hsize =>
      obtain rfl := Option.some.inj hc
      exact Cache.truthful_empty _ _ hsize
  · cases hc

theorem ofSettings_of_validate_error
    {error : SettingsError}
    (h : s.validate = .error error) :
    ofSettings s = .error error := by
  rw [ofSettings, h]
  rfl

end Making
end Codec

namespace CommandLine

section Definitions

/-- Read one ID by itself, without a cache, and show it with the text it was read from. -/
def readIdAlone
    (systemShard : UInt16)
    (options : ParseOptions)
    (now : Int)
    (input : String) :
    Except IdError IdRow :=
  (Codec.parse ⟨systemShard, none⟩ (some input) options now).value.map (IdRow.mk input)

/--
A run over a list reports a row for each input, or the failure of the first without
one.
-/
inductive Lists
    {α : Type}
    (read : String → Except IdError α)
    (report : List α → Report)
    (inputs : List String) :
    Except Failure Report → Prop
  | rows
      {rows : List α}
      (hrows : List.Forall₂ (fun input row => read input = .ok row) inputs rows) :
      Lists read report inputs (.ok (report rows))
  | failure
      {before after : List String}
      {input : String}
      {error : IdError}
      (hinputs : inputs = before ++ input :: after)
      (hbefore : ∀ earlier ∈ before, ∃ row, read earlier = .ok row)
      (hinput : read input = .error error) :
      Lists read report inputs (.error (.input error))

end Definitions

section Pointwise

variable {α : Type}
variable {read : String → Except IdError α}
variable {inputs : List String}

/-- The relation describes the list read in order and stopped by the first failure. -/
theorem lists_iff
    {report : List α → Report}
    {result : Except Failure Report} :
    Lists read report inputs result ↔
      result = ((inputs.mapM read).map report).mapError .input := by
  constructor
  · intro h
    cases h with
    | rows hrows =>
        rw [mapM_eq_ok_of_forall₂ hrows]
        rfl
    | failure hinputs hbefore hinput =>
        rw [hinputs, mapM_eq_error_of_first hbefore hinput]
        rfl
  · rintro rfl
    rcases exists_rows_or_first read inputs with
      ⟨rows, hrows⟩ | ⟨before, input, after, error, hinputs, hbefore, hinput⟩
    · rw [mapM_eq_ok_of_forall₂ hrows]
      exact .rows hrows
    · have herror := mapM_eq_error_of_first hbefore hinput after
      rw [← hinputs] at herror
      rw [herror]
      exact .failure hinputs hbefore hinput

/-- A list has one outcome. -/
theorem Lists.unique
    {report : List α → Report}
    {result result' : Except Failure Report}
    (h : Lists read report inputs result)
    (h' : Lists read report inputs result') :
    result = result' :=
  (lists_iff.1 h).trans (lists_iff.1 h').symm

end Pointwise

section Reading

variable {codec : Codec}

/-- A truthful codec reads a list as if it forgot everything between two inputs. -/
theorem readIds_eq_mapM
    (h : codec.Truthful)
    (options : ParseOptions)
    (clock : Nat → Int)
    (index : Nat)
    (now : Int)
    (inputs : List String) :
    readIds options clock codec index inputs =
      inputs.mapM (readIdAlone codec.systemShard options now) := by
  induction inputs generalizing codec index with
  | nil =>
      rfl
  | cons input later ih =>
      -- The later inputs meet the codec that this one leaves, which is truthful again.
      obtain ⟨hnext, hshard⟩ := h.parse (some input) options (clock index)
      have hlater := ih hnext (index + 1)
      have hvalue := h.value_parse_eq_alone (some input) options (clock index) now
      rw [hshard] at hlater
      cases halone :
          (Codec.parse ⟨codec.systemShard, none⟩ (some input) options now).value with
      | error error =>
          have hinput : readIdAlone codec.systemShard options now input = .error error := by
            rw [readIdAlone, halone]
            rfl
          rw [mapM_cons_of_error hinput]
          simp only [readIds, hvalue, halone]
      | ok id =>
          have hinput :
              readIdAlone codec.systemShard options now input = .ok ⟨input, id⟩ := by
            rw [readIdAlone, halone]
            rfl
          rw [mapM_cons_of_ok hinput]
          simp only [readIds, hvalue, halone, hlater]
          cases later.mapM (readIdAlone codec.systemShard options now) <;> rfl

theorem readAllIds_eq_mapM
    (h : codec.Truthful)
    (options : ParseOptions)
    (clock : Nat → Int)
    (now : Int)
    {inputs : List String}
    (hinputs : inputs ≠ []) :
    readAllIds codec options clock inputs =
      inputs.mapM (readIdAlone codec.systemShard options now) := by
  obtain ⟨input, later, rfl⟩ := List.exists_cons_of_ne_nil hinputs
  exact readIds_eq_mapM h options clock 0 now (input :: later)

/-- A truthful codec serves a command as a codec that never read anything, at any times. -/
theorem report_eq_alone
    (h : codec.Truthful)
    (command : Command)
    (clock clock' : Nat → Int) :
    command.report codec clock = command.report ⟨codec.systemShard, none⟩ clock' := by
  have halone := Codec.truthful_alone codec.systemShard
  cases command with
  | parse ids options =>
      have hall :
          readAllIds codec options clock ids =
            readAllIds ⟨codec.systemShard, none⟩ options clock' ids := by
        cases ids with
        | nil =>
            rw [readAllIds, readAllIds,
              h.value_parse_eq_alone none options (clock 0) (clock' 0)]
        | cons input later =>
            rw [readAllIds_eq_mapM h options clock 0 (List.cons_ne_nil input later),
              readAllIds_eq_mapM halone options clock' 0 (List.cons_ne_nil input later)]
      rw [Command.report, Command.report, hall]
  | build shard realm num => rfl
  | contract values => rfl
  | version => rfl

theorem ofText_of_readContract
    {value : String}
    {row : ContractRow}
    (h : readContract value = .ok row) :
    ContractReference.ofText row.input = .ok row.reference := by
  rw [readContract] at h
  cases hvalue : ContractReference.ofText value with
  | error e =>
      rw [hvalue] at h
      cases h
  | ok reference =>
      rw [hvalue] at h
      obtain rfl := Except.ok.inj h
      exact hvalue

/-- Only the command for references reports any, and each is what its input denotes. -/
theorem ofText_of_report_contracts
    {clock : Nat → Int}
    {command : Command}
    {rows : List ContractRow}
    (h : command.report codec clock = .ok (.contracts rows)) :
    ∀ row ∈ rows, ContractReference.ofText row.input = .ok row.reference := by
  cases command with
  | parse ids options =>
      rw [Command.report] at h
      cases hids : readAllIds codec options clock ids <;> rw [hids] at h <;> cases h
  | build shard realm num =>
      rw [Command.report] at h
      cases hid : EntityId.of shard realm num <;> rw [hid] at h <;> cases h
  | contract values =>
      have hrows : values.mapM readContract = .ok rows := by
        rw [Command.report] at h
        cases hvalues : values.mapM readContract <;> rw [hvalues] at h <;> cases h
        rfl
      intro row hrow
      obtain ⟨value, -, hvalue⟩ := exists_input_of_mem hrows row hrow
      exact ofText_of_readContract hvalue
  | version => cases h

end Reading

section Runs

variable {invocation : Invocation}
variable {environment environment' : Environment}
variable {configured configured' : Settings}

/-- A run in an environment that holds settings goes on with these settings. -/
theorem report_of_loads
    (hloads : Settings.ofEnvironment environment = .ok configured)
    (clock : Nat → Int) :
    invocation.report environment clock =
      ((Codec.ofSettings (invocation.adjust configured)).mapError .unusable >>= fun made =>
        (invocation.command.report made.codec clock).mapError .input) := by
  rw [Invocation.report, hloads]
  rfl

/-- With a usable shard the command is carried out as by a codec that never read anything. -/
theorem report_of_validate
    {systemShard : UInt16}
    (hloads : Settings.ofEnvironment environment = .ok configured)
    (hshard : (invocation.adjust configured).validate = .ok systemShard)
    (clock clock' : Nat → Int) :
    invocation.report environment clock =
      (invocation.command.report ⟨systemShard, none⟩ clock').mapError .input := by
  obtain ⟨made, hmade, rfl, htruthful⟩ := Codec.exists_ofSettings_eq hshard
  rw [report_of_loads hloads, hmade]
  exact congrArg (Except.mapError Failure.input) (report_eq_alone htruthful _ clock clock')

theorem command_report_of_report_ok
    {systemShard : UInt16}
    {clock : Nat → Int}
    {report : Report}
    (hloads : Settings.ofEnvironment environment = .ok configured)
    (hshard : (invocation.adjust configured).validate = .ok systemShard)
    (h : invocation.report environment clock = .ok report) :
    invocation.command.report ⟨systemShard, none⟩ clock = .ok report := by
  rw [report_of_validate hloads hshard clock clock] at h
  cases hcommand : invocation.command.report ⟨systemShard, none⟩ clock with
  | error error =>
      rw [hcommand] at h
      cases h
  | ok report' =>
      rw [hcommand] at h
      exact congrArg Except.ok (Except.ok.inj h)

theorem report_of_validate_error
    {error : SettingsError}
    (hloads : Settings.ofEnvironment environment = .ok configured)
    (hshard : (invocation.adjust configured).validate = .error error)
    (clock : Nat → Int) :
    invocation.report environment clock = .error (.unusable error) := by
  rw [report_of_loads hloads, Codec.ofSettings_of_validate_error hshard]
  rfl

/-- Of the settings a run depends on the shard only, and it does not depend on the clock. -/
theorem report_eq_of_systemShard_eq
    (hloads : Settings.ofEnvironment environment = .ok configured)
    (hloads' : Settings.ofEnvironment environment' = .ok configured')
    (hshard :
      (invocation.adjust configured).systemShard =
        (invocation.adjust configured').systemShard)
    (clock clock' : Nat → Int) :
    invocation.report environment clock = invocation.report environment' clock' := by
  have hvalidate :
      (invocation.adjust configured).validate =
        (invocation.adjust configured').validate := by
    rw [Settings.validate, Settings.validate, hshard]
  cases hvalid : (invocation.adjust configured).validate with
  | error error =>
      rw [report_of_validate_error hloads hvalid,
        report_of_validate_error hloads' (hvalidate.symm.trans hvalid)]
  | ok systemShard =>
      rw [report_of_validate hloads hvalid clock clock',
        report_of_validate hloads' (hvalidate.symm.trans hvalid) clock' clock']

theorem complete_eq_of_report_eq
    {clock clock' : Nat → Int}
    (h : invocation.report environment clock = invocation.report environment' clock') :
    invocation.complete environment clock = invocation.complete environment' clock' := by
  rw [Invocation.complete, Invocation.complete, h]

theorem complete_of_report_ok
    {clock : Nat → Int}
    {report : Report}
    (h : invocation.report environment clock = .ok report) :
    invocation.complete environment clock = ⟨0, report.text invocation.format, ""⟩ := by
  rw [Invocation.complete, h]

end Runs

/--
A list on the command line is treated input by input.

In an environment with settings of a usable shard, a run over some IDs reports a
row for each of them, in order, which is the row of that ID read by itself
without a cache.  If there is an ID without a row, the run reports nothing and
fails as the first such ID does.  The same holds for references to contracts.  A
report is all the output there is, and a failure leaves none.  The output of a
report shows its rows: JSON text denotes the list of their views, and a table has a
line with the cells of each.

Any other settings with the same shard lead to the same output and the same exit
code, whatever the size and the age limit of the cache and the times of the
readings.
-/
theorem lists_input_by_input
    (invocation : Invocation)
    (environment : Environment)
    (configured : Settings)
    (systemShard : UInt16)
    (hloads : Settings.ofEnvironment environment = .ok configured)
    (hshard : (invocation.adjust configured).validate = .ok systemShard)
    (clock : Nat → Int) :
    (∀ ids options now, invocation.command = .parse ids options → ids ≠ [] →
      Lists (readIdAlone systemShard options now) .ids ids
        (invocation.report environment clock))
      ∧
    (∀ values, invocation.command = .contract values →
      Lists (fun value => (ContractReference.ofText value).map (ContractRow.mk value))
        .contracts values (invocation.report environment clock))
      ∧
    (∀ report, invocation.report environment clock = .ok report →
      (invocation.complete environment clock).exitCode = 0 ∧
        (invocation.complete environment clock).output = report.text invocation.format)
      ∧
    (∀ failure, invocation.report environment clock = .error failure →
      invocation.complete environment clock = ⟨1, "", failure.text⟩)
      ∧
    (∀ rows, invocation.report environment clock = .ok (.ids rows) →
      Printed (rows.map fun row => row.id.view row.input)
        (IdRow.heading :: rows.map fun row => row.id.cells row.input) invocation.format
        (invocation.complete environment clock).output)
      ∧
    (∀ rows, invocation.report environment clock = .ok (.contracts rows) →
      Printed (rows.map fun row => row.reference.view)
        (ContractRow.heading :: rows.map fun row => row.reference.cells row.input)
        invocation.format (invocation.complete environment clock).output)
      ∧
    ∀ environment' configured' clock',
      Settings.ofEnvironment environment' = .ok configured' →
        (invocation.adjust configured').systemShard =
            (invocation.adjust configured).systemShard →
          (invocation.complete environment' clock').output =
              (invocation.complete environment clock).output ∧
            (invocation.complete environment' clock').exitCode =
              (invocation.complete environment clock).exitCode := by
  refine
    ⟨?_, ?_, fun report h => ?_, fun failure => complete_of_report_error, fun rows h => ?_,
      fun rows h => ?_, ?_⟩
  · intro ids options now hcommand hids
    rw [lists_iff, report_of_validate hloads hshard clock clock, hcommand]
    rw [Command.report,
      readAllIds_eq_mapM (Codec.truthful_alone systemShard) options clock now hids]
    rfl
  · intro values hcommand
    rw [lists_iff, report_of_validate hloads hshard clock clock, hcommand]
    rfl
  · rw [complete_of_report_ok h]
    exact ⟨rfl, rfl⟩
  · rw [complete_of_report_ok h]
    exact printed_ids rows invocation.format
  · have hcommand := command_report_of_report_ok hloads hshard h
    rw [complete_of_report_ok h]
    exact printed_contracts (ofText_of_report_contracts hcommand) invocation.format
  · intro environment' configured' clock' hloads' hsame
    rw [complete_eq_of_report_eq (report_eq_of_systemShard_eq hloads' hloads hsame _ clock)]
    exact ⟨rfl, rfl⟩

/--
With room for one ID that is late at once, a repeated ID has two views, and of
two IDs without a row the first is the failure; a larger cache changes nothing.
Of the references to contracts two are read, one of them a number beyond every
field, and a third is not.
-/
theorem lists_input_by_input_repeated :
    let tight : Environment :=
      .ofList
        [ (Environment.shardName, "2"), (Environment.cacheMaxSizeName, "1"),
          (Environment.cacheMaxAgeName, "0") ]
    let roomy : Environment := .ofList [(Environment.shardName, "2")]
    let good : Invocation := ⟨.json, none, .parse ["0.5", "0.5"] {}⟩
    let bad : Invocation := ⟨.json, none, .parse ["0.5", "bogus", "0.5", ""] {}⟩
    let contracts : Invocation := ⟨.json, none, .contract ["1.7", "4294967296"]⟩
    let badContracts : Invocation := ⟨.json, none, .contract ["1.7", "1.2.3.4", "x"]⟩
    let view : Document :=
      .object
        [ ("input", .text "0.5"), ("shard", .integer 2), ("realm", .integer 0),
          ("num", .integer 5), ("entity_id", .text "2.0.5"),
          ("encoded_id", .integer 562949953421317),
          ("evm_address", .text "0x0000000200000000000000000000000000000005") ]
    let reference (realm : Document) (num : Int) : Document :=
      .object
        [("shard", .null), ("realm", realm), ("target", .object [("num", .integer num)])]
    let malformed (raw : String) : Completion :=
      ⟨1, "", (Failure.input (.malformed raw none)).text⟩
    Settings.ofEnvironment tight = .ok ⟨2, 1, 0⟩ ∧
    Settings.ofEnvironment roomy = .ok ⟨2, 100000, 1800⟩ ∧
    (⟨2, 1, 0⟩ : Settings).validate = .ok 2 ∧
    (good.complete tight fun i => i).exitCode = 0 ∧
    Document.read? (good.complete tight fun i => i).output = some (.list [view, view]) ∧
    bad.complete tight (fun i => i) = malformed "bogus" ∧
    (bad.complete roomy fun i => -i).output = "" ∧
    (bad.complete roomy fun i => -i).exitCode = 1 ∧
    Document.read? (contracts.complete tight fun i => i).output =
      some (.list [reference (.integer 1) 7, reference .null 4294967296]) ∧
    badContracts.complete tight (fun i => i) = malformed "1.2.3.4" := by
  intro tight roomy good bad contracts badContracts view reference malformed
  let id : EntityId := .present ⟨2, 0, 5, by decide⟩
  let readReference (value : String) : Except IdError ContractRow :=
    (ContractReference.ofText value).map (ContractRow.mk value)
  have htight : Settings.ofEnvironment tight = .ok ⟨2, 1, 0⟩ := by rfl
  have hroomy : Settings.ofEnvironment roomy = .ok ⟨2, 100000, 1800⟩ := by rfl
  have hshard : (⟨2, 1, 0⟩ : Settings).validate = .ok 2 := by decide
  have hshort : readIdAlone 2 {} 0 "0.5" = .ok ⟨"0.5", id⟩ := by cbv
  have hbogus : readIdAlone 2 {} 0 "bogus" = .error (.malformed "bogus" none) := by cbv
  have hrealm : readReference "1.7" = .ok ⟨"1.7", ⟨none, some 1, .num 7⟩⟩ := by cbv
  have hnum :
      readReference "4294967296" = .ok ⟨"4294967296", ⟨none, none, .num 4294967296⟩⟩ := by
    cbv
  have hfour : readReference "1.2.3.4" = .error (.malformed "1.2.3.4" none) := by cbv
  have hview : id.view "0.5" = view := by cbv
  obtain ⟨hgood, -, hrows, -, hgood_printed, -⟩ :=
    lists_input_by_input good tight _ 2 htight hshard fun i => i
  obtain ⟨hbad, -, -, hfailure, -, -, hsame⟩ :=
    lists_input_by_input bad tight _ 2 htight hshard fun i => i
  obtain ⟨-, hcontracts, -, -, -, hcontracts_printed, -⟩ :=
    lists_input_by_input contracts tight _ 2 htight hshard fun i => i
  obtain ⟨-, hbadContracts, -, hbadContracts_failure, -⟩ :=
    lists_input_by_input badContracts tight _ 2 htight hshard fun i => i
  have hgood_report :=
    (hgood _ {} 0 rfl (List.cons_ne_nil _ _)).unique
      (.rows (.cons hshort (.cons hshort .nil)))
  have hbad_report :=
    (hbad _ {} 0 rfl (List.cons_ne_nil _ _)).unique
      (.failure rfl (List.forall_mem_singleton.2 ⟨_, hshort⟩) hbogus)
  have hcontracts_report :=
    (hcontracts _ rfl).unique (.rows (.cons hrealm (.cons hnum .nil)))
  have hbadContracts_report :=
    (hbadContracts _ rfl).unique
      (.failure rfl (List.forall_mem_singleton.2 ⟨_, hrealm⟩) hfour)
  have hbad_complete := hfailure _ hbad_report
  obtain ⟨houtput, hexit⟩ := hsame roomy _ (fun i => -i) hroomy rfl
  rw [hbad_complete] at houtput hexit
  have hgood_read := (hgood_printed _ hgood_report).read?_eq
  rw [List.map_cons, List.map_singleton, hview] at hgood_read
  exact
    ⟨htight, hroomy, hshard, (hrows _ hgood_report).1, hgood_read, hbad_complete, houtput,
      hexit, (hcontracts_printed _ hcontracts_report).read?_eq,
      hbadContracts_failure _ hbadContracts_report⟩

end CommandLine
end LedgerEntity
