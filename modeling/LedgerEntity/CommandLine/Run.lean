import LedgerEntity.CommandLine.Report

/-!
# Runs of the command line

What a list of arguments does in an environment.

The arguments are read first, then the settings in the environment.  A shard
among the arguments takes the place of the one in the settings, and a codec is
made of the result, whatever the command needs of it.  A list of inputs is read
from left to right, and the first failure ends the run without a report.

The log of a run is left out.  A filter in the variable `ENTITYCTL_LOG` can let the
events of the codec through, and two of the command line itself, for settings that
were loaded and for IDs that were read.  They are written with time stamps to the
stream of the diagnostics, in front of any message.  Without such a filter none of
them is written.
-/

namespace LedgerEntity
namespace CommandLine

/--
What a run leaves behind: zero for success, one for a failure and two for arguments
that do not fit; what was asked for; and the message about what went wrong, without the
log.
-/
structure Completion where
  exitCode : UInt8
  output : String
  diagnostics : String
  deriving DecidableEq, Repr

/-- How the program is called. -/
def usageText : String :=
  "Usage: entityctl [--format FORMAT] [--shard SHARD] <COMMAND>\n\n"
    ++ "Commands:\n"
    ++ "  parse [IDS]... [--flavor FLAVOR] [--parameter NAME] [--nullable]\n"
    ++ "  of SHARD REALM NUM\n"
    ++ "  contract VALUES...\n"
    ++ "  version\n"

/-- What is left behind when there is nothing to run. -/
def Stop.completion : Stop → Completion
  | usage => ⟨2, "", usageText⟩
  | version => ⟨0, versionLine, ""⟩
  | help => ⟨0, usageText, ""⟩

/--
Read IDs one after the other with a codec that remembers; the clock gives the
time of each reading.
-/
def readIds
    (options : ParseOptions)
    (clock : Nat → Int) :
    Codec → Nat → List String → Except IdError (List IdRow)
  | _, _, [] => .ok []
  | codec, index, input :: later =>
      let answer := codec.parse (some input) options (clock index)
      match answer.value with
      | .error e => .error e
      | .ok id =>
          match readIds options clock answer.codec (index + 1) later with
          | .error e => .error e
          | .ok rows => .ok (⟨input, id⟩ :: rows)

/-- Read all IDs; without any, the absent value is read. -/
def readAllIds
    (codec : Codec)
    (options : ParseOptions)
    (clock : Nat → Int) :
    List String → Except IdError (List IdRow)
  | [] => do
      let id ← (codec.parse none options (clock 0)).value
      .ok [⟨"", id⟩]
  | inputs => readIds options clock codec 0 inputs

/-- Read a reference to a contract. -/
def readContract
    (input : String) :
    Except IdError ContractRow :=
  (ContractReference.ofText input).map (ContractRow.mk input)

/-- The report of a command. -/
def Command.report
    (codec : Codec)
    (clock : Nat → Int) :
    Command → Except IdError Report
  | parse ids options => do
      .ok (.ids (← readAllIds codec options clock ids))
  | build shard realm num => do
      let id ← EntityId.of shard realm num
      .ok (.ids [⟨Fields.text ⟨shard, realm, num⟩, id⟩])
  | contract values => do
      .ok (.contracts (← values.mapM readContract))
  | version => .ok .version

namespace Invocation

/-- The settings of a run: a shard among the arguments replaces the configured one. -/
def adjust
    (invocation : Invocation)
    (configured : Settings) :
    Settings :=
  { configured with
    systemShard := invocation.shard.getD configured.systemShard }

/-- The report of a run. -/
def report
    (invocation : Invocation)
    (environment : Environment)
    (clock : Nat → Int) :
    Except Failure Report := do
  let configured ← (Settings.ofEnvironment environment).mapError .loading
  let made ←
    (Codec.ofSettings (invocation.adjust configured)).mapError .unusable
  (invocation.command.report made.codec clock).mapError .input

end Invocation

/-- What a run leaves behind once its arguments are read. -/
def Invocation.complete
    (invocation : Invocation)
    (environment : Environment)
    (clock : Nat → Int) :
    Completion :=
  match invocation.report environment clock with
  | .ok report => ⟨0, report.text invocation.format, ""⟩
  | .error failure => ⟨1, "", failure.text⟩

/-- What a list of arguments does in an environment. -/
def run
    (arguments : List String)
    (environment : Environment)
    (clock : Nat → Int) :
    Completion :=
  match readArguments arguments with
  | .error stop => stop.completion
  | .ok invocation => invocation.complete environment clock

/-- A failure leaves no output and the exit code one. -/
theorem complete_of_report_error
    {invocation : Invocation}
    {environment : Environment}
    {clock : Nat → Int}
    {failure : Failure}
    (h : invocation.report environment clock = .error failure) :
    invocation.complete environment clock = ⟨1, "", failure.text⟩ := by
  simp [Invocation.complete, h]

end CommandLine
end LedgerEntity
