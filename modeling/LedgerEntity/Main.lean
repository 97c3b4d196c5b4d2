import LedgerEntity.CommandLine.Run

/-!
# The program

Reads the arguments, the settings in the environment and the clock, and prints what
the run leaves behind.  It writes no log.
-/

namespace LedgerEntity
namespace CommandLine

/-- The settings that are found in the environment of the program. -/
def readEnvironment : IO Environment := do
  let values ← Environment.names.filterMapM fun name => do
    let value ← IO.getEnv name
    return value.map fun v => (name, v)
  return Environment.ofList values

/-- Print what a run leaves behind. -/
def Completion.print
    (completion : Completion) :
    IO Unit := do
  IO.print completion.output
  IO.eprint completion.diagnostics

end CommandLine
end LedgerEntity

/-- Run the program once; its clock stands still meanwhile. -/
def main
    (arguments : List String) :
    IO UInt32 := do
  let environment ← LedgerEntity.CommandLine.readEnvironment
  let now ← IO.monoNanosNow
  let completion :=
    LedgerEntity.CommandLine.run arguments environment fun _ => now
  completion.print
  return completion.exitCode.toUInt32
