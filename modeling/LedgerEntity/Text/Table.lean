/-!
# Text tables

A heading and rows of cells, laid out in columns.

Every column is as wide as its widest cell.  Cells are aligned to the left with
one blank on both sides, vertical bars stand between them, and a rule stands
above and below every row.  Cells hold printable ASCII on one line, so that a
cell is as wide as it is long.
-/

namespace LedgerEntity
namespace Table

/-- Room for one more row: the wider of each pair of cells. -/
def widen : List Nat → List Nat → List Nat
  | [], others => others
  | widths, [] => widths
  | w :: widths, v :: others => max w v :: widen widths others

/-- The width of every column. -/
def widths
    (rows : List (List String)) :
    List Nat :=
  rows.foldl (fun ws row => widen ws (row.map String.length)) []

/-- The rule above and below a row. -/
def rule
    (ws : List Nat) :
    String :=
  "+" ++ String.join (ws.map fun w =>
    String.ofList (List.replicate (w + 2) '-') ++ "+")

/-- A cell filled up with blanks to its width. -/
def pad
    (width : Nat)
    (cell : String) :
    String :=
  cell ++ String.ofList (List.replicate (width - cell.length) ' ')

/-- One row between its bars. -/
def line
    (ws : List Nat)
    (row : List String) :
    String :=
  "|" ++ String.join ((ws.zip row).map fun (w, cell) =>
    " " ++ pad w cell ++ " |")

/-- A table with a rule above and below every row; the text ends without a line feed. -/
def render
    (heading : List String)
    (rows : List (List String)) :
    String :=
  let all := heading :: rows
  let ws := widths all
  String.intercalate "\n"
    (rule ws :: all.flatMap fun row => [line ws row, rule ws])

end Table
end LedgerEntity
