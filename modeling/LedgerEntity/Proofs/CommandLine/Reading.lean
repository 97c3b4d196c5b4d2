import LedgerEntity.CommandLine.Arguments

/-!
# Reading the arguments

What a grammar accepts, as a relation between the arguments and what is read
from them.

One step takes an option with its value, or a plain argument, from the head of
the arguments.  The reading goes on in such steps to the end, to an escape, or to
the first plain argument where none is accepted.  The function that reads and
the relation agree on every list of arguments.

An option latches a fact if each of its uses establishes the fact and nothing
that the grammar accepts undoes it.  By induction over the steps the fact then
holds after every reading of arguments that carry the option.
-/

namespace LedgerEntity
namespace CommandLine

variable {α : Type}

theorem accept_eq_ok_iff
    {β : Type}
    {taken : Option α}
    {next : α → Except Stop β}
    {b : β} :
    accept taken next = .ok b ↔ ∃ a, taken = some a ∧ next a = .ok b := by
  cases taken <;> simp [accept]

/-- One use of an option changes what was read. -/
inductive OptionRule.Changes : OptionRule α → α → α → Prop
  | flag
      {set : α → Option α}
      {a b : α}
      (hset : set a = some b) :
      Changes (.flag set) a b
  | value
      {set : String → α → Option α}
      {a b : α}
      {v : String}
      (hset : set v a = some b) :
      Changes (.value set) a b

/-- An option of this name stands among the arguments, in front of any escape. -/
inductive Carries
    (name : String) :
    List String → Prop
  | here
      {argument : String}
      {value : Option String}
      {rest : List String}
      (hlook : Word.ofArgument argument = .long name value) :
      Carries name (argument :: rest)
  | later
      {argument : String}
      {rest : List String}
      (hlook : Word.ofArgument argument ≠ .escape)
      (hrest : Carries name rest) :
      Carries name (argument :: rest)

namespace Grammar

/-- What stands at the head of the arguments is accepted, and the later arguments remain. -/
inductive Takes
    (grammar : Grammar α) :
    List String → α → α → List String → Prop
  | flag
      {argument name : String}
      {set : α → Option α}
      {a b : α}
      {later : List String}
      (hlook : Word.ofArgument argument = .long name none)
      (hrule : grammar.option? name = some (.flag set))
      (hset : set a = some b) :
      Takes grammar (argument :: later) a b later
  | attached
      {argument name v : String}
      {set : String → α → Option α}
      {a b : α}
      {later : List String}
      (hlook : Word.ofArgument argument = .long name (some v))
      (hrule : grammar.option? name = some (.value set))
      (hset : set v a = some b) :
      Takes grammar (argument :: later) a b later
  | separate
      {argument name v : String}
      {set : String → α → Option α}
      {a b : α}
      {later : List String}
      (hlook : Word.ofArgument argument = .long name none)
      (hrule : grammar.option? name = some (.value set))
      (hvalue : Word.ofArgument v = .plain)
      (hset : set v a = some b) :
      Takes grammar (argument :: v :: later) a b later
  | plain
      {argument : String}
      {take : String → α → Option α}
      {a b : α}
      {later : List String}
      (hlook : Word.ofArgument argument = .plain)
      (hplain : grammar.plain? = some take)
      (htake : take argument a = some b) :
      Takes grammar (argument :: later) a b later

/-- The arguments are read to their end, or up to a plain argument that is left. -/
inductive Reads
    (grammar : Grammar α) :
    List String → α → α → List String → Prop
  | done
      {a : α} :
      Reads grammar [] a a []
  | left
      {argument : String}
      {rest : List String}
      {a : α}
      (hlook : Word.ofArgument argument = .plain)
      (hplain : grammar.plain? = none) :
      Reads grammar (argument :: rest) a a (argument :: rest)
  | escaped
      {argument : String}
      {rest : List String}
      {take : String → α → Option α}
      {a b : α}
      (hlook : Word.ofArgument argument = .escape)
      (hplain : grammar.plain? = some take)
      (hrest : rest.foldlM (fun a s => take s a) a = some b) :
      Reads grammar (argument :: rest) a b []
  | step
      {arguments later left : List String}
      {a b c : α}
      (htakes : grammar.Takes arguments a b later)
      (hreads : grammar.Reads later b c left) :
      Reads grammar arguments a c left

variable {grammar : Grammar α}
variable {arguments left later : List String}
variable {a b : α}

theorem Takes.length_lt
    (h : grammar.Takes arguments a b later) :
    later.length < arguments.length := by
  cases h <;> simp only [List.length_cons] <;> omega

/-- After an accepted head the reading goes on with the later arguments. -/
theorem Takes.read_eq
    (h : grammar.Takes arguments a b later) :
    grammar.read arguments a = grammar.read later b := by
  cases h with
  | flag hlook hrule hset => simp [read, hlook, hrule, hset, accept]
  | attached hlook hrule hset => simp [read, hlook, hrule, hset, accept]
  | separate hlook hrule hvalue hset => simp [read, hlook, hrule, hvalue, hset, accept]
  | plain hlook hplain htake => simp [read, hlook, hplain, htake, accept]

/-- An option that is accepted is taken by one of the ways to take an option. -/
theorem takes_of_long
    {argument name : String}
    {attached : Option String}
    {rest : List String}
    {result : α × List String}
    (hlook : Word.ofArgument argument = .long name attached)
    (h : grammar.read (argument :: rest) a = .ok result) :
    ∃ b later,
      grammar.Takes (argument :: rest) a b later ∧ grammar.read later b = .ok result := by
  simp only [read, hlook] at h
  split at h
  · cases h
  · next set hrule =>
      obtain ⟨b, hset, hlater⟩ := accept_eq_ok_iff.1 h
      exact ⟨b, rest, .flag hlook hrule hset, hlater⟩
  · next set v hrule =>
      obtain ⟨b, hset, hlater⟩ := accept_eq_ok_iff.1 h
      exact ⟨b, rest, .attached hlook hrule hset, hlater⟩
  · next set hrule =>
      -- The value is the next argument, if there is one and it is plain.
      split at h
      · cases h
      · next v later =>
          split at h
          · next hvalue =>
              obtain ⟨b, hset, hlater⟩ := accept_eq_ok_iff.1 h
              exact ⟨b, later, .separate hlook hrule hvalue hset, hlater⟩
          · cases h
  · cases h

/-- A successful reading stops at the head of the arguments or goes on behind it. -/
theorem reads_or_takes
    {result : α × List String}
    (h : grammar.read arguments a = .ok result) :
    grammar.Reads arguments a result.1 result.2
      ∨
    ∃ b later, grammar.Takes arguments a b later ∧ grammar.read later b = .ok result := by
  cases arguments with
  | nil =>
      left
      obtain rfl := Except.ok.inj h
      exact .done
  | cons argument rest =>
      cases hlook : Word.ofArgument argument with
      | long name attached =>
          right
          exact takes_of_long hlook h
      | short letter =>
          simp [read, hlook] at h
      | escape =>
          left
          simp only [read, hlook] at h
          split at h
          · cases h
          · next take hplain =>
              obtain ⟨b, hrest, hresult⟩ := accept_eq_ok_iff.1 h
              obtain rfl := Except.ok.inj hresult
              exact .escaped hlook hplain hrest
      | plain =>
          simp only [read, hlook] at h
          split at h
          · next hplain =>
              left
              obtain rfl := Except.ok.inj h
              exact .left hlook hplain
          · next take hplain =>
              right
              obtain ⟨b, htake, hlater⟩ := accept_eq_ok_iff.1 h
              exact ⟨b, rest, .plain hlook hplain htake, hlater⟩

/-- The relation describes the readings that succeed. -/
theorem read_eq_ok_iff :
    grammar.read arguments a = .ok (b, left) ↔ grammar.Reads arguments a b left := by
  constructor
  · intro h
    -- The induction is on the length, as a value may be an argument of its own.
    induction hlength : arguments.length using Nat.strongRecOn generalizing arguments a with
    | ind n ih =>
        rcases reads_or_takes h with hstop | ⟨c, later, htakes, hlater⟩
        · exact hstop
        · exact .step htakes (ih later.length (hlength ▸ htakes.length_lt) hlater rfl)
  · intro h
    induction h with
    | done => rfl
    | left hlook hplain => simp [read, hlook, hplain]
    | escaped hlook hplain hrest => simp [read, hlook, hplain, hrest, accept]
    | step htakes _ ih => rw [htakes.read_eq, ih]

/-- Where plain arguments are accepted nothing is left over. -/
theorem Reads.left_eq_nil
    {take : String → α → Option α}
    (hplain : grammar.plain? = some take)
    (h : grammar.Reads arguments a b left) :
    left = [] := by
  induction h with
  | done => rfl
  | left _ hnone => simp [hplain] at hnone
  | escaped _ _ _ => rfl
  | step _ _ ih => exact ih

/-- Each use of an option establishes a fact, and nothing that is accepted undoes it. -/
structure Latches
    (grammar : Grammar α)
    (name : String)
    (fact : α → Prop) :
    Prop where
  establishes :
    ∀ {rule a b}, grammar.option? name = some rule → rule.Changes a b → fact b
  keeps :
    ∀ {other rule a b},
      grammar.option? other = some rule → rule.Changes a b → fact a → fact b
  keeps_plain :
    ∀ {take s a b}, grammar.plain? = some take → take s a = some b → fact a → fact b

section Latching

variable {name : String}
variable {fact : α → Prop}

/--
An option at the head of the arguments is the one carried, or the later arguments
carry it.
-/
theorem carries_of_long
    {argument other : String}
    {value : Option String}
    {rest : List String}
    (hlook : Word.ofArgument argument = .long other value)
    (h : Carries name (argument :: rest)) :
    other = name ∨ Carries name rest := by
  cases h with
  | here hname => exact .inl (Word.long.inj (hlook.symm.trans hname)).1
  | later _ hrest => exact .inr hrest

theorem carries_of_plain
    {argument : String}
    {rest : List String}
    (hlook : Word.ofArgument argument = .plain)
    (h : Carries name (argument :: rest)) :
    Carries name rest := by
  cases h with
  | here hname => simp [hlook] at hname
  | later _ hrest => exact hrest

theorem not_carries_of_escape
    {argument : String}
    {rest : List String}
    (hlook : Word.ofArgument argument = .escape) :
    ¬ Carries name (argument :: rest) := by
  intro h
  cases h with
  | here hname => simp [hlook] at hname
  | later hnot _ => exact hnot hlook

/--
The use of an option establishes the fact if it is the option in question, and keeps
it else.
-/
theorem Latches.changes
    (hlatches : grammar.Latches name fact)
    {other : String}
    {rule : OptionRule α}
    {rest : List String}
    (hrule : grammar.option? other = some rule)
    (hchanges : rule.Changes a b)
    (h : fact a ∨ other = name ∨ Carries name rest) :
    fact b ∨ Carries name rest := by
  rcases h with hfact | rfl | hrest
  · exact .inl (hlatches.keeps hrule hchanges hfact)
  · exact .inl (hlatches.establishes hrule hchanges)
  · exact .inr hrest

/-- After a step the fact holds, or the option is still to come. -/
theorem Takes.latched
    (hlatches : grammar.Latches name fact)
    (htakes : grammar.Takes arguments a b later)
    (h : fact a ∨ Carries name arguments) :
    fact b ∨ Carries name later := by
  cases htakes with
  | flag hlook hrule hset =>
      exact hlatches.changes hrule (.flag hset) (h.imp_right (carries_of_long hlook))
  | attached hlook hrule hset =>
      exact hlatches.changes hrule (.value hset) (h.imp_right (carries_of_long hlook))
  | separate hlook hrule hvalue hset =>
      have hlater := h.imp_right (carries_of_long hlook)
      exact hlatches.changes hrule (.value hset)
        (hlater.imp_right fun hname => hname.imp_right (carries_of_plain hvalue))
  | plain hlook hplain htake =>
      exact h.imp (hlatches.keeps_plain hplain htake) (carries_of_plain hlook)

/-- Plain arguments behind an escape keep the fact. -/
theorem Latches.foldlM
    (hlatches : grammar.Latches name fact)
    {take : String → α → Option α}
    {rest : List String}
    (hplain : grammar.plain? = some take)
    (hrest : rest.foldlM (fun a s => take s a) a = some b)
    (h : fact a) :
    fact b := by
  induction rest generalizing a with
  | nil =>
      obtain rfl : a = b := by simpa using hrest
      exact h
  | cons s rest ih =>
      rw [List.foldlM_cons] at hrest
      obtain ⟨c, htake, hlater⟩ := Option.bind_eq_some_iff.1 hrest
      exact ih hlater (hlatches.keeps_plain hplain htake h)

/-- After a reading the fact holds, or the option is among the arguments that are left. -/
theorem Reads.latched
    (hlatches : grammar.Latches name fact)
    (hreads : grammar.Reads arguments a b left)
    (h : fact a ∨ Carries name arguments) :
    fact b ∨ Carries name left := by
  induction hreads with
  | done => exact h
  | left _ _ => exact h
  | escaped hlook hplain hrest =>
      exact
        .inl (hlatches.foldlM hplain hrest (h.resolve_right (not_carries_of_escape hlook)))
  | step htakes _ ih => exact ih (htakes.latched hlatches h)

end Latching
end Grammar
end CommandLine
end LedgerEntity
