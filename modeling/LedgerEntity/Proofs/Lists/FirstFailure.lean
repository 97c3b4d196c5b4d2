import Mathlib.Data.List.Forall2

/-!
# Lists read in order

What becomes of a list whose items are read one after the other, when the first
item that cannot be read ends the reading.

Every list is of one of two kinds.  Either each item has a result, and then these
are the result of the list.  Or the list is cut at an item that fails while
everything before it has a result, and then the list fails as this item does.
-/

namespace LedgerEntity

variable {ε α β : Type}
variable {read : α → Except ε β}
variable {inputs : List α}

theorem mapM_cons_of_ok
    {input : α}
    {row : β}
    (h : read input = .ok row)
    (inputs : List α) :
    (input :: inputs).mapM read = (inputs.mapM read).map (row :: ·) := by
  rw [List.mapM_cons, h]
  cases inputs.mapM read <;> rfl

theorem mapM_cons_of_error
    {input : α}
    {error : ε}
    (h : read input = .error error)
    (inputs : List α) :
    (input :: inputs).mapM read = .error error := by
  rw [List.mapM_cons, h]
  rfl

theorem mapM_eq_ok_of_forall₂
    {rows : List β}
    (h : List.Forall₂ (fun input row => read input = .ok row) inputs rows) :
    inputs.mapM read = .ok rows := by
  induction h with
  | nil =>
      rfl
  | cons hrow _ ih =>
      rw [mapM_cons_of_ok hrow, ih]
      rfl

theorem mapM_eq_error_of_first
    {before : List α}
    {input : α}
    {error : ε}
    (hbefore : ∀ earlier ∈ before, ∃ row, read earlier = .ok row)
    (hinput : read input = .error error)
    (after : List α) :
    (before ++ input :: after).mapM read = .error error := by
  induction before with
  | nil =>
      exact mapM_cons_of_error hinput after
  | cons earlier before ih =>
      obtain ⟨⟨row, hrow⟩, hlater⟩ := List.forall_mem_cons.1 hbefore
      rw [List.cons_append, mapM_cons_of_ok hrow, ih hlater]
      rfl

/-- Every list is read to its end or up to the first input that fails. -/
theorem exists_rows_or_first
    (read : α → Except ε β)
    (inputs : List α) :
    (∃ rows, List.Forall₂ (fun input row => read input = .ok row) inputs rows)
      ∨
    (∃ before input after error, inputs = before ++ input :: after ∧
      (∀ earlier ∈ before, ∃ row, read earlier = .ok row) ∧ read input = .error error) := by
  induction inputs with
  | nil =>
      left
      exact ⟨[], .nil⟩
  | cons input later ih =>
      cases hinput : read input with
      | error error =>
          right
          exact ⟨[], input, later, error, rfl, by simp, hinput⟩
      | ok row =>
          rcases ih with ⟨rows, hrows⟩ | ⟨before, input', after, error, rfl, hbefore, herror⟩
          · left
            exact ⟨row :: rows, .cons hinput hrows⟩
          · right
            refine ⟨input :: before, input', after, error, rfl, ?_, herror⟩
            exact List.forall_mem_cons.2 ⟨⟨row, hinput⟩, hbefore⟩

/-- A list has results exactly if each item has its own. -/
theorem mapM_eq_ok_iff
    {rows : List β} :
    inputs.mapM read = .ok rows ↔
      List.Forall₂ (fun input row => read input = .ok row) inputs rows := by
  constructor
  · intro h
    rcases exists_rows_or_first read inputs with
      ⟨rows', hrows⟩ | ⟨before, input, after, error, rfl, hbefore, hinput⟩
    · obtain rfl := Except.ok.inj ((mapM_eq_ok_of_forall₂ hrows).symm.trans h)
      exact hrows
    · cases (mapM_eq_error_of_first hbefore hinput after).symm.trans h
  · exact mapM_eq_ok_of_forall₂

/-- Every result is that of an item. -/
theorem exists_input_of_mem
    {rows : List β}
    (h : inputs.mapM read = .ok rows) :
    ∀ row ∈ rows, ∃ input ∈ inputs, read input = .ok row := by
  rw [mapM_eq_ok_iff] at h
  induction h with
  | nil =>
      simp
  | cons hrow _ ih =>
      refine List.forall_mem_cons.2 ⟨⟨_, List.mem_cons_self, hrow⟩, fun later hlater => ?_⟩
      obtain ⟨input, hinput, hread⟩ := ih later hlater
      exact ⟨input, List.mem_cons_of_mem _ hinput, hread⟩

/-- A list has results if and only if none of its items fails. -/
theorem exists_mapM_eq_ok_iff :
    (∃ rows, inputs.mapM read = .ok rows) ↔
      ∀ input ∈ inputs, ∃ row, read input = .ok row := by
  constructor
  · rintro ⟨rows, h⟩
    rw [mapM_eq_ok_iff] at h
    induction h with
    | nil =>
        simp
    | cons hrow _ ih =>
        exact List.forall_mem_cons.2 ⟨⟨_, hrow⟩, ih⟩
  · intro h
    rcases exists_rows_or_first read inputs with
      ⟨rows, hrows⟩ | ⟨before, input, after, error, rfl, -, hinput⟩
    · exact ⟨rows, mapM_eq_ok_of_forall₂ hrows⟩
    · obtain ⟨row, hrow⟩ := h input (by simp)
      cases hrow.symm.trans hinput

/-- A list fails exactly as the first item that has no result. -/
theorem mapM_eq_error_iff
    {error : ε} :
    inputs.mapM read = .error error ↔
      ∃ before input after, inputs = before ++ input :: after ∧
        (∀ earlier ∈ before, ∃ row, read earlier = .ok row) ∧ read input = .error error := by
  constructor
  · intro h
    rcases exists_rows_or_first read inputs with
      ⟨rows, hrows⟩ | ⟨before, input, after, error', rfl, hbefore, hinput⟩
    · cases (mapM_eq_ok_of_forall₂ hrows).symm.trans h
    · have hfirst := mapM_eq_error_of_first hbefore hinput after
      obtain rfl := Except.error.inj (hfirst.symm.trans h)
      exact ⟨before, input, after, rfl, hbefore, hinput⟩
  · rintro ⟨before, input, after, rfl, hbefore, hinput⟩
    exact mapM_eq_error_of_first hbefore hinput after

end LedgerEntity
