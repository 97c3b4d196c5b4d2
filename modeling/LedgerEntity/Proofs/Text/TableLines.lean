import LedgerEntity.Text.Table
import Mathlib.Data.List.Forall2
import Mathlib.Tactic

/-!
# The lines of a table

What can be read off the text of a table.

Between two rules there is one line for each row, and it shows the cells of the
row in full, each between bars with blanks around it.  No cell is lost, since
there are as many columns as the longest row has cells.
-/

namespace LedgerEntity
namespace Table

section Definitions

/-- A line that shows cells: bars in front of each and behind the last, and blanks. -/
inductive Shows :
    List Char → List String → Prop
  | done :
      Shows ['|'] []
  | cell
      {rest : List Char}
      {cells : List String}
      (cell : String)
      (blanks : Nat)
      (hrest : Shows rest cells) :
      Shows ('|' :: ' ' :: (cell.toList ++ List.replicate (blanks + 1) ' ' ++ rest))
        (cell :: cells)

/-- Rows on lines of their own, with a rule above and below each. -/
def Displays
    (text : String)
    (rows : List (List String)) :
    Prop :=
  ∃ rule lines,
    (∀ c ∈ rule.toList, c = '+' ∨ c = '-') ∧
    List.Forall₂ (fun line row => Shows line.toList row) lines rows ∧
    text = String.intercalate "\n" (rule :: lines.flatMap fun line => [line, rule])

end Definitions

section Widths

theorem length_widen
    (ws others : List Nat) :
    (widen ws others).length = max ws.length others.length := by
  induction ws generalizing others with
  | nil =>
      simp [widen]
  | cons w ws ih =>
      cases others with
      | nil => simp [widen]
      | cons v others => simp [widen, ih]

/-- There are as many columns as any row has cells. -/
theorem length_le_length_widths
    {rows : List (List String)} :
    ∀ row ∈ rows, row.length ≤ (widths rows).length := by
  have hfold : ∀ ws : List Nat,
      ws.length ≤
          (rows.foldl (fun ws row => widen ws (row.map String.length)) ws).length ∧
        ∀ row ∈ rows, row.length ≤
          (rows.foldl (fun ws row => widen ws (row.map String.length)) ws).length := by
    induction rows with
    | nil =>
        simp
    | cons row rows ih =>
        intro ws
        obtain ⟨hwidth, hlater⟩ := ih (widen ws (row.map String.length))
        rw [length_widen, List.length_map] at hwidth
        rw [List.foldl_cons]
        refine ⟨by omega, List.forall_mem_cons.2 ⟨by omega, hlater⟩⟩
  exact (hfold []).2

end Widths

section Lines

theorem shows_line
    {ws : List Nat}
    {row : List String}
    (h : row.length ≤ ws.length) :
    Shows (line ws row).toList row := by
  induction row generalizing ws with
  | nil =>
      simpa [line] using Shows.done
  | cons cell row ih =>
      obtain ⟨w, ws, rfl⟩ := List.exists_cons_of_length_pos (Nat.lt_of_lt_of_le (by simp) h)
      have hlater : Shows (line ws row).toList row := ih (by simpa using h)
      have hline :
          (line (w :: ws) (cell :: row)).toList =
            '|' :: ' ' ::
              (cell.toList ++ List.replicate (w - cell.length + 1) ' ' ++
                (line ws row).toList) := by
        simp [line, pad, List.replicate_succ', String.toList_join]
      rw [hline]
      exact .cell cell _ hlater

theorem mem_rule
    (ws : List Nat) :
    ∀ c ∈ (rule ws).toList, c = '+' ∨ c = '-' := by
  intro c hc
  have hrule :
      (rule ws).toList =
        '+' :: ws.flatMap fun w => List.replicate (w + 2) '-' ++ ['+'] := by
    simp [rule, String.toList_join, List.flatMap_map]
  rw [hrule, List.mem_cons, List.mem_flatMap] at hc
  rcases hc with rfl | ⟨w, -, hc⟩
  · exact .inl rfl
  · rcases List.mem_append.1 hc with hdash | hplus
    · exact .inr (List.eq_of_mem_replicate hdash)
    · exact .inl (List.mem_singleton.1 hplus)

/-- A table displays its heading and its rows. -/
theorem displays_render
    (heading : List String)
    (rows : List (List String)) :
    Displays (render heading rows) (heading :: rows) := by
  refine
    ⟨rule (widths (heading :: rows)),
      (heading :: rows).map (line (widths (heading :: rows))), mem_rule _, ?_, ?_⟩
  · rw [List.forall₂_map_left_iff, List.forall₂_same]
    exact fun row hrow => shows_line (length_le_length_widths row hrow)
  · rw [List.flatMap_map]
    rfl

end Lines

end Table
end LedgerEntity
