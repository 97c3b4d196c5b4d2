import LedgerEntity.CommandLine.Arguments
import LedgerEntity.ContractReference
import LedgerEntity.Document.Printer
import LedgerEntity.Settings.Environment
import LedgerEntity.Text.Table

/-!
# Reports of the command line

How a run shows what it read, and what went wrong.

There is one row for each input, in order.  A report is a table or a JSON list
of the rows; both end with a line feed.  The table shows absent values as a
dash, the list as the absent value.  A failure has a message and a hint, with
an empty line between them.
-/

namespace LedgerEntity
namespace CommandLine

/-- An ID and the text it was read from. -/
structure IdRow where
  input : String
  id : EntityId
  deriving DecidableEq, Repr

/-- A reference to a contract and the text it was read from. -/
structure ContractRow where
  input : String
  reference : ContractReference
  deriving DecidableEq, Repr

/-- A cell that may have nothing to show. -/
def cellOf
    (s : Option String) :
    String :=
  s.getD "-"

namespace IdRow

/-- The packed value of the ID, if it has one. -/
def packed?
    (row : IdRow) :
    Option Int :=
  row.id.packed?.map Int64.toInt

/-- The text of the address of the ID, if it has one. -/
def addressText?
    (row : IdRow) :
    Option String :=
  row.id.address?.map Address.text

/-- All representations of the ID as a document. -/
def document
    (row : IdRow) :
    Document :=
  .object
    [ ("input", .text row.input),
      ("shard", .ofNat? (row.id.shard?.map UInt16.toNat)),
      ("realm", .ofNat? (row.id.realm?.map UInt16.toNat)),
      ("num", .ofNat? (row.id.num?.map UInt32.toNat)),
      ("entity_id", .ofText? row.id.displayText?),
      ("encoded_id", (row.packed?.map Document.integer).getD .null),
      ("evm_address", .ofText? row.addressText?) ]

/-- The heading of the table of IDs. -/
def heading : List String :=
  ["INPUT", "ENTITY ID", "ENCODED", "EVM ADDRESS"]

/-- The cells of a row. -/
def cells
    (row : IdRow) :
    List String :=
  [ row.input, cellOf row.id.displayText?,
    cellOf (row.packed?.map Decimal.intText), cellOf row.addressText? ]

end IdRow

namespace ContractRow

/-- The reference as a document. -/
def document
    (row : ContractRow) :
    Document :=
  row.reference.document

/-- The heading of the table of references. -/
def heading : List String :=
  ["INPUT", "SHARD", "REALM", "NUM", "CREATE2 ADDRESS"]

/-- The cells of a row. -/
def cells
    (row : ContractRow) :
    List String :=
  [ row.input, cellOf (row.reference.shard.map Decimal.text),
    cellOf (row.reference.realm.map Decimal.text),
    cellOf (row.reference.target.num?.map Decimal.text),
    cellOf (row.reference.target.address?.map Address.text) ]

end ContractRow

/-- What was read, or that the name and the version are asked for. -/
inductive Report where
  | ids (rows : List IdRow)
  | contracts (rows : List ContractRow)
  | version
  deriving DecidableEq, Repr

/-- The name and the version of the program in one line. -/
def versionLine : String :=
  "entityctl 0.1.0\n"

/-- The rows of a report as a list. -/
def listing : Report → List Document
  | .ids rows => rows.map IdRow.document
  | .contracts rows => rows.map ContractRow.document
  | .version => []

/-- The rows of a report as a table. -/
def table : Report → String
  | .ids rows => Table.render IdRow.heading (rows.map IdRow.cells)
  | .contracts rows =>
      Table.render ContractRow.heading (rows.map ContractRow.cells)
  | .version => ""

/-- The text of a report; the version reads the same in both formats. -/
def Report.text
    (report : Report)
    (format : Format) :
    String :=
  match report, format with
  | .version, _ => versionLine
  | rows, .table => table rows ++ "\n"
  | rows, .json => (Document.list (listing rows)).pretty ++ "\n"

/--
Why a run gave no report: the environment holds no settings, the settings cannot be
used, or an input denotes nothing.
-/
inductive Failure where
  | loading (error : SettingsError)
  | unusable (error : SettingsError)
  | input (error : IdError)
  deriving DecidableEq, Repr

namespace Failure

/-- What went wrong. -/
def message : Failure → String
  | loading _ => "Failed to load configuration"
  | unusable _ => "Invalid configuration"
  | input error => error.message

/-- The hint for an input that denotes nothing. -/
def inputHint : IdError → String
  | .nullNotAllowed _ =>
      "Hint: Pass an entity ID, or use --nullable to accept none."
  | .malformed _ _ =>
      "Hint: Accepted forms: shard.realm.num, realm.num, packed integer, "
        ++ "or a 40 hex digit EVM address. "
        ++ "Use --flavor to choose which EVM address shapes are accepted."
  | .outOfRange _ _ =>
      "Hint: shard must be at most " ++ Decimal.text maxShard
        ++ ", realm at most " ++ Decimal.text maxRealm
        ++ ", and num at most " ++ Decimal.text maxNum ++ "."

/-- What to do about it. -/
def hint : Failure → String
  | input error => inputHint error
  | _ =>
      "Hint: Check " ++ Environment.shardName ++ ", "
        ++ Environment.cacheMaxSizeName ++ ", and "
        ++ Environment.cacheMaxAgeName ++ "."

/-- The text of a failure. -/
def text
    (f : Failure) :
    String :=
  "Error: " ++ f.message ++ "\n\n" ++ f.hint ++ "\n"

end Failure
end CommandLine
end LedgerEntity
