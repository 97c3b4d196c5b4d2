import LedgerEntity.Proofs.Document.Lexemes

/-!
# Reading back what was printed

Both printed forms of a plain document denote the document, also with a line feed
behind them.

The printed form is cut into the lexemes of the document.  From these the second
pass makes the document: by induction on the document, its lexemes take the pass
from a place where a value may come to the place behind that value, with the same
containers open.  The members of an object come in order and none replaces another,
since their names are distinct.
-/

namespace LedgerEntity
namespace Document

section Definitions

/-- A value may come, first in a list or not. -/
def Awaited.TakesValue
    (awaited : Awaited) :
    Prop :=
  awaited = .value ∨ awaited = .firstItem

/-- A name may come, behind these members. -/
def Awaited.TakesName
    (awaited : Awaited)
    (taken : List (String × Document)) :
    Prop :=
  awaited = .name taken ∨ (awaited = .firstName ∧ taken = [])

/-- The lexemes take the second pass from one place to another. -/
def Passes
    (a : Assembly)
    (ls : List Lexeme)
    (b : Assembly) :
    Prop :=
  ls.foldlM Assembly.step a = some b

/-- Wherever a value may come, the second pass makes this document of the lexemes. -/
def Assembles
    (ls : List Lexeme)
    (d : Document) :
    Prop :=
  ∀ awaited stack, Awaited.TakesValue awaited →
    Passes ⟨awaited, stack⟩ ls ⟨.separator d, stack⟩

/-- A name, a colon, and lexemes of which the second pass makes the value. -/
def AssemblesMember
    (ls : List Lexeme)
    (m : String × Document) :
    Prop :=
  ∃ value, ls = .quoted m.1 :: .colon :: value ∧ Assembles value m.2

end Definitions

section Passing

variable {a b c : Assembly}
variable {ls ls' : List Lexeme}

theorem passes_nil
    (a : Assembly) :
    Passes a [] a :=
  rfl

theorem Passes.cons
    {l : Lexeme}
    (hstep : a.step l = some b)
    (h : Passes b ls c) :
    Passes a (l :: ls) c := by
  rw [Passes, List.foldlM_cons, hstep]
  exact h

theorem Passes.append
    (h : Passes a ls b)
    (h' : Passes b ls' c) :
    Passes a (ls ++ ls') c := by
  rw [Passes, List.foldlM_append, h]
  exact h'

end Passing

section SecondPass

variable {ls : List Lexeme}
variable {lss : List (List Lexeme)}
variable {awaited : Awaited}

theorem assembles_atom
    (d : Document) :
    Assembles [.atom d] d := by
  rintro awaited stack (rfl | rfl) <;> rfl

theorem assembles_quoted
    (s : String) :
    Assembles [.quoted s] (.text s) := by
  rintro awaited stack (rfl | rfl) <;> rfl

/-- The items of an open list, up to its end, are put behind those it has. -/
theorem passes_items
    {d : Document}
    {ds : List Document}
    (taken : List Document)
    (h : List.Forall₂ Assembles (ls :: lss) (d :: ds))
    (hawaited : awaited.TakesValue)
    (stack : List Frame) :
    Passes ⟨awaited, .list taken :: stack⟩
      (List.intercalate [.comma] (ls :: lss) ++ [.closeList])
      ⟨.separator (.list (taken.reverse ++ d :: ds)), stack⟩ := by
  induction ds generalizing d ls lss taken awaited with
  | nil =>
      cases h with
      | cons hd htail =>
          cases htail
          rw [List.intercalate_singleton, ← List.reverse_cons]
          exact (hd _ _ hawaited).append (.cons rfl (passes_nil _))
  | cons d' ds ih =>
      cases h with
      | cons hd htail =>
          cases htail with
          | cons hd' htail =>
              rw [List.intercalate_cons_cons, List.append_assoc, List.append_assoc,
                List.append_cons taken.reverse, ← List.reverse_cons]
              exact (hd _ _ hawaited).append (.cons rfl (ih _ (.cons hd' htail) (.inl rfl)))

theorem assembles_list
    {items : List Document}
    (h : List.Forall₂ Assembles lss items) :
    Assembles (.openList :: (List.intercalate [.comma] lss ++ [.closeList]))
      (.list items) := by
  intro awaited stack hawaited
  have hopen :
      Assembly.step ⟨awaited, stack⟩ .openList = some ⟨.firstItem, .list [] :: stack⟩ := by
    rcases hawaited with rfl | rfl <;> rfl
  refine .cons hopen ?_
  cases h with
  | nil => exact .cons rfl (passes_nil _)
  | cons hd htail => exact passes_items [] (.cons hd htail) (.inr rfl) stack

theorem AssemblesMember.passes
    {m : String × Document}
    {taken : List (String × Document)}
    (h : AssemblesMember ls m)
    (hawaited : awaited.TakesName taken)
    (stack : List Frame) :
    Passes ⟨awaited, stack⟩ ls ⟨.separator m.2, .object taken m.1 :: stack⟩ := by
  obtain ⟨value, rfl, hvalue⟩ := h
  have hname :
      Assembly.step ⟨awaited, stack⟩ (.quoted m.1) = some ⟨.colon taken m.1, stack⟩ := by
    rcases hawaited with rfl | ⟨rfl, rfl⟩ <;> rfl
  exact .cons hname (.cons rfl (hvalue _ _ (.inl rfl)))

/-- Where all names are distinct a member is put in front of those before it. -/
theorem putMember_of_nodup
    {m : String × Document}
    {ms taken : List (String × Document)}
    (hnames : ((taken.reverse ++ m :: ms).map Prod.fst).Nodup) :
    Assembly.putMember taken m.1 m.2 = m :: taken := by
  rw [List.map_append, List.map_cons, List.map_reverse] at hnames
  have hnew : m.1 ∉ (taken.map Prod.fst).reverse ++ ms.map Prod.fst :=
    (List.nodup_middle.1 hnames).notMem
  have hany : taken.any (·.1 == m.1) = false := by
    rw [List.any_eq_false]
    intro earlier hearlier hname
    exact
      hnew
        (List.mem_append_left _
          (List.mem_reverse.2 (List.mem_map.2 ⟨earlier, hearlier, eq_of_beq hname⟩)))
  rw [Assembly.putMember, hany]
  rfl

/-- The members of an open object, up to its end, are put behind those it has. -/
theorem passes_members
    {m : String × Document}
    {ms : List (String × Document)}
    (taken : List (String × Document))
    (h : List.Forall₂ AssemblesMember (ls :: lss) (m :: ms))
    (hnames : ((taken.reverse ++ m :: ms).map Prod.fst).Nodup)
    (hawaited : awaited.TakesName taken)
    (stack : List Frame) :
    Passes ⟨awaited, stack⟩
      (List.intercalate [.comma] (ls :: lss) ++ [.closeObject])
      ⟨.separator (.object (taken.reverse ++ m :: ms)), stack⟩ := by
  induction ms generalizing m ls lss taken awaited with
  | nil =>
      cases h with
      | cons hm htail =>
          cases htail
          rw [List.intercalate_singleton, ← List.reverse_cons, ← putMember_of_nodup hnames]
          exact (hm.passes hawaited stack).append (.cons rfl (passes_nil _))
  | cons m' ms ih =>
      have hput := putMember_of_nodup hnames
      rw [List.append_cons taken.reverse, ← List.reverse_cons] at hnames ⊢
      cases h with
      | cons hm htail =>
          cases htail with
          | cons hm' htail =>
              have hcomma :
                  Assembly.step ⟨.separator m.2, .object taken m.1 :: stack⟩ .comma =
                    some ⟨.name (m :: taken), stack⟩ := by
                rw [← hput]
                rfl
              rw [List.intercalate_cons_cons, List.append_assoc, List.append_assoc]
              exact
                (hm.passes hawaited stack).append
                  (.cons hcomma (ih _ (.cons hm' htail) hnames (.inl rfl)))

theorem assembles_object
    {members : List (String × Document)}
    (h : List.Forall₂ AssemblesMember lss members)
    (hnames : (members.map Prod.fst).Nodup) :
    Assembles (.openObject :: (List.intercalate [.comma] lss ++ [.closeObject]))
      (.object members) := by
  intro awaited stack hawaited
  have hopen : Assembly.step ⟨awaited, stack⟩ .openObject = some ⟨.firstName, stack⟩ := by
    rcases hawaited with rfl | rfl <;> rfl
  refine .cons hopen ?_
  cases h with
  | nil => exact .cons rfl (passes_nil _)
  | cons hm htail => exact passes_members [] (.cons hm htail) hnames (.inr ⟨rfl, rfl⟩) stack

theorem forall₂_itemLexemes
    {items : List Document}
    (h : ∀ d ∈ items, Assembles d.lexemes d) :
    List.Forall₂ Assembles (itemLexemes items) items := by
  induction items with
  | nil =>
      exact .nil
  | cons d items ih =>
      obtain ⟨hd, hlater⟩ := List.forall_mem_cons.1 h
      exact .cons hd (ih hlater)

theorem forall₂_memberLexemes
    {members : List (String × Document)}
    (h : ∀ m ∈ members, Assembles m.2.lexemes m.2) :
    List.Forall₂ AssemblesMember (memberLexemes members) members := by
  induction members with
  | nil =>
      exact .nil
  | cons m members ih =>
      obtain ⟨hm, hlater⟩ := List.forall_mem_cons.1 h
      exact .cons ⟨m.2.lexemes, rfl, hm⟩ (ih hlater)

/-- The second pass makes a plain document of its lexemes. -/
theorem Plain.assembles
    {d : Document}
    (h : Plain d) :
    Assembles d.lexemes d := by
  induction h with
  | null => exact assembles_atom _
  | bool b => exact assembles_atom _
  | integer _ _ => exact assembles_atom _
  | text s => exact assembles_quoted s
  | list _ ih => exact assembles_list (forall₂_itemLexemes ih)
  | object hnames _ ih => exact assembles_object (forall₂_memberLexemes ih) hnames

end SecondPass

section ReadBack

variable {d : Document}

/-- A text that is cut into the lexemes of a plain document denotes the document. -/
theorem Plain.read?_eq
    {s : String}
    {cs gap : List Char}
    (h : Plain d)
    (hs : s.toList = cs ++ gap)
    (hcuts : Cuts cs d.lexemes)
    (hgap : ∀ c ∈ gap, isGap c = true) :
    read? s = some d := by
  have hends : EndsWord gap := by
    cases gap with
    | nil => exact .inl rfl
    | cons c gap => exact .inr ⟨c, gap, rfl, .inl (hgap c List.mem_cons_self)⟩
  have hlexemes : lexemes? s.toList = some d.lexemes := by
    have hrest :
        lexemesFrom? (.between, d.lexemes.reverse ++ []) (gap ++ []) =
          lexemesFrom? (.between, d.lexemes.reverse ++ []) [] :=
      lexemesFrom?_gap hgap
    rw [List.append_nil, List.append_nil] at hrest
    calc lexemes? s.toList
        = lexemesFrom? (.between, []) (cs ++ gap) := by rw [hs]; rfl
      _ = lexemesFrom? (.between, d.lexemes.reverse) [] := by
          rw [hcuts [] gap hends, List.append_nil, hrest]
      _ = some d.lexemes := congrArg some (List.reverse_reverse _)
  have hpasses : Passes ⟨.value, []⟩ d.lexemes ⟨.separator d, []⟩ :=
    h.assembles _ _ (.inl rfl)
  rw [read?, hlexemes, Option.bind_some, hpasses]
  rfl

theorem Plain.read?_compact
    (h : Plain d) :
    read? d.compact = some d :=
  h.read?_eq (List.append_nil _).symm h.cuts_compact (List.forall_mem_nil _)

/-- The spread form with a line feed behind it is read back as well. -/
theorem Plain.read?_pretty_line
    (h : Plain d) :
    read? (d.pretty ++ "\n") = some d :=
  h.read?_eq String.toList_append (h.cuts_spread 0) (List.all_eq_true.1 rfl)

end ReadBack

end Document
end LedgerEntity
