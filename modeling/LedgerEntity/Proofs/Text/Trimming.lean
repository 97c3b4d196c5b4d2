import LedgerEntity.Text.Blank
import Mathlib.Data.List.TakeWhile

/-!
# Trimming

What is left of a text without the white space at its two ends.

The text is cut in three: white space in front, white space behind, and between
them a part that neither begins nor ends with white space.  The part in the
middle is all that a trimmed text keeps, whether it is empty or not.

The characters that count as white space are told one by one, by their code
points.
-/

namespace LedgerEntity
namespace Blank

section Definitions

/-- The code points with the property `White_Space`. -/
def whiteSpace : List Nat :=
  [ 0x9, 0xa, 0xb, 0xc, 0xd, 0x20, 0x85, 0xa0, 0x1680, 0x2000, 0x2001, 0x2002, 0x2003,
    0x2004, 0x2005, 0x2006, 0x2007, 0x2008, 0x2009, 0x200a, 0x2028, 0x2029, 0x202f, 0x205f,
    0x3000 ]

/-- White space stands on both sides of `core`, which neither begins nor ends with any. -/
def Trims
    (cs core : List Char) :
    Prop :=
  ∃ front back,
    cs = front ++ core ++ back ∧
    (∀ c ∈ front, c.toNat ∈ whiteSpace) ∧
    (∀ c ∈ back, c.toNat ∈ whiteSpace) ∧
    (∀ c, core.head? = some c → c.toNat ∉ whiteSpace) ∧
    ∀ c, core.getLast? = some c → c.toNat ∉ whiteSpace

end Definitions

theorem isBlank_iff_mem_whiteSpace
    (c : Char) :
    isBlank c = true ↔ c.toNat ∈ whiteSpace := by
  simp only [isBlank, ranges, whiteSpace, List.any_cons, List.any_nil, Bool.or_false,
    Bool.or_eq_true, Bool.and_eq_true, decide_eq_true_eq, List.mem_cons, List.not_mem_nil,
    or_false]
  omega

section Ends

variable {α : Type}
variable {p : α → Bool}
variable {xs core : List α}

/-- The part that `dropWhile` leaves is told by what stands in front of it. -/
theorem dropWhile_eq_iff :
    xs.dropWhile p = core ↔
      ∃ front, xs = front ++ core ∧ (∀ x ∈ front, p x = true) ∧
        ∀ x, core.head? = some x → p x = false := by
  constructor
  · rintro rfl
    refine
      ⟨xs.takeWhile p, List.takeWhile_append_dropWhile.symm,
        fun x hx => List.mem_takeWhile_imp hx, ?_⟩
    intro x hx
    have hhead := List.head?_dropWhile_not p xs
    rwa [hx] at hhead
  · rintro ⟨front, rfl, hfront, hhead⟩
    rw [List.dropWhile_append_of_pos hfront]
    cases core with
    | nil =>
        rfl
    | cons x rest =>
        have hx : ¬ p x = true := by
          rw [hhead x rfl]
          exact Bool.false_ne_true
        exact List.dropWhile_cons_of_neg hx

end Ends

/-- Trimming keeps exactly the part between the white space at the two ends. -/
theorem trim_eq_iff
    {cs core : List Char} :
    trim cs = core ↔ Trims cs core := by
  simp only [Trims, ← isBlank_iff_mem_whiteSpace, Bool.not_eq_true]
  rw [trim, List.reverse_eq_iff, dropWhile_eq_iff]
  constructor
  · rintro ⟨back, hdrop, hback, hlast⟩
    rw [List.reverse_eq_iff, List.reverse_append, List.reverse_reverse] at hdrop
    obtain ⟨front, rfl, hfront, hhead⟩ := dropWhile_eq_iff.1 hdrop
    refine ⟨front, back.reverse, (List.append_assoc _ _ _).symm, hfront, ?_, ?_, ?_⟩
    · intro c hc
      exact hback c (List.mem_reverse.1 hc)
    · intro c hc
      apply hhead
      rw [List.head?_append, hc]
      rfl
    · intro c hc
      exact hlast c (List.head?_reverse.trans hc)
  · rintro ⟨front, back, rfl, hfront, hback, hhead, hlast⟩
    cases core with
    | nil =>
        -- Nothing is left, and all white space is in front of it.
        have hdrop : (front ++ [] ++ back).dropWhile isBlank = [] := by
          rw [List.append_nil, List.dropWhile_eq_nil_iff]
          intro c hc
          exact (List.mem_append.1 hc).elim (hfront c) (hback c)
        exact ⟨[], by rw [hdrop]; rfl, by simp, by simp⟩
    | cons c rest =>
        have hdrop :
            (front ++ (c :: rest) ++ back).dropWhile isBlank = (c :: rest) ++ back :=
          dropWhile_eq_iff.2 ⟨front, List.append_assoc _ _ _, hfront, hhead⟩
        refine ⟨back.reverse, by rw [hdrop, List.reverse_append], ?_, ?_⟩
        · intro d hd
          exact hback d (List.mem_reverse.1 hd)
        · intro d hd
          exact hlast d (List.head?_reverse.symm.trans hd)

end Blank
end LedgerEntity
