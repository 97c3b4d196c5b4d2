/-!
# Pieces between separators

A text is cut at every occurrence of a separator.  There is always at least one
piece, and pieces may be empty.

The main facts say that joining the pieces gives the text back, and that no
piece holds the separator.
-/

namespace LedgerEntity

/-- The pieces of a list of characters between occurrences of `separator`. -/
def pieces
    (separator : Char) :
    List Char → List (List Char)
  | [] => [[]]
  | c :: cs =>
      if c = separator then
        [] :: pieces separator cs
      else
        match pieces separator cs with
        | [] => [[c]]
        | first :: others => (c :: first) :: others

/-- The piece after the last separator, or everything if there is none. -/
def lastPiece
    (separator : Char)
    (cs : List Char) :
    List Char :=
  (pieces separator cs).getLastD []

/-- Pieces joined again, one separator between neighbours. -/
def joinPieces
    (separator : Char)
    (parts : List (List Char)) :
    List Char :=
  List.intercalate [separator] parts

/-- There is always a piece. -/
theorem pieces_ne_nil
    (separator : Char)
    (cs : List Char) :
    pieces separator cs ≠ [] := by
  cases cs with
  | nil =>
      simp [pieces]
  | cons c cs =>
      simp only [pieces]
      split
      · simp
      · split <;> simp

/-- Joining the pieces gives the characters back. -/
@[simp] theorem joinPieces_pieces
    (separator : Char)
    (cs : List Char) :
    joinPieces separator (pieces separator cs) = cs := by
  induction cs with
  | nil =>
      simp [pieces, joinPieces]
  | cons c cs ih =>
      simp only [pieces]
      cases hparts : pieces separator cs with
      | nil =>
          exact absurd hparts (pieces_ne_nil separator cs)
      | cons first others =>
          rw [hparts] at ih
          split
          · next heq =>
              subst heq
              simp [joinPieces, List.intercalate, ← ih]
          · rw [← ih]
            cases others <;> simp [joinPieces, List.intercalate]

/-- No piece holds the separator. -/
theorem not_mem_of_mem_pieces
    {separator : Char}
    {cs piece : List Char}
    (h : piece ∈ pieces separator cs) :
    separator ∉ piece := by
  induction cs generalizing piece with
  | nil =>
      simp [pieces] at h
      simp [h]
  | cons c cs ih =>
      simp only [pieces] at h
      cases hparts : pieces separator cs with
      | nil =>
          exact absurd hparts (pieces_ne_nil separator cs)
      | cons first others =>
          rw [hparts] at h ih
          split at h
          · rcases List.mem_cons.1 h with rfl | h
            · simp
            · exact ih h
          · next hne =>
              rcases List.mem_cons.1 h with rfl | h
              · have hfirst : separator ∉ first := ih List.mem_cons_self
                simp only [List.mem_cons, not_or]
                exact ⟨fun heq => hne heq.symm, hfirst⟩
              · exact ih (List.mem_cons_of_mem _ h)

end LedgerEntity
