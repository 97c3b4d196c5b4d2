import LedgerEntity.Settings.Environment
import LedgerEntity.Proofs.Text.Positional

/-!
# Loading settings

Which environments hold settings, and which settings they hold.

A variable holds a number if it is not set, and then the default, or if its text
is a word between blanks.  The settings are the numbers of the three variables,
as long as the shard is in range.  Each variable counts by its own value alone.
-/

namespace LedgerEntity

/-- A variable holds a number: the default if it is not set, or a word between blanks. -/
inductive Environment.Holds
    (fallback : Nat) :
    Option String → Nat → Prop
  | unset :
      Holds fallback none fallback
  | word
      {text : String}
      {n : Nat}
      (hword : DecimalWord (Blank.trim text.toList) n) :
      Holds fallback (some text) n

/-- The same environment with one variable not set. -/
def Environment.without
    (environment : Environment)
    (name : String) :
    Environment :=
  fun other => if other = name then none else environment other

/-- Two steps succeed if the first does and the second does with its result. -/
theorem bind_eq_ok_iff
    {ε α β : Type}
    {x : Except ε α}
    {f : α → Except ε β}
    {b : β} :
    x >>= f = .ok b ↔ ∃ a, x = .ok a ∧ f a = .ok b := by
  cases x with
  | error e => simp [bind, Except.bind]
  | ok a => simp [bind, Except.bind]

namespace Environment

variable {environment : Environment}
variable {name : String}
variable {fallback : Nat}

/-- The number of a variable is read from exactly the values that hold it. -/
theorem number_eq_ok_iff
    {n : Nat} :
    environment.number name fallback = .ok n ↔ Holds fallback (environment name) n := by
  rw [number]
  cases environment name with
  | none =>
      constructor
      · intro h
        obtain rfl := Except.ok.inj h
        exact .unset
      · intro h
        cases h
        rfl
  | some text =>
      cases hread : Decimal.readWord? (Blank.trim text.toList) with
      | none =>
          constructor
          · intro h
            simp [hread] at h
          · intro h
            cases h with
            | word hword => simp [Decimal.readWord?_eq_some_iff.2 hword] at hread
      | some m =>
          constructor
          · intro h
            obtain rfl : m = n := by simpa [hread] using h
            exact .word (Decimal.readWord?_eq_some_iff.1 hread)
          · intro h
            cases h with
            | word hword => simp only [Decimal.readWord?_eq_some_iff.2 hword]

theorem without_self
    (environment : Environment)
    (name : String) :
    environment.without name name = none :=
  if_pos rfl

theorem without_of_ne
    {other : String}
    (hne : other ≠ name) :
    environment.without name other = environment other :=
  if_neg hne

/-- Environments that differ in one variable are the same without it. -/
theorem without_congr
    {environment' : Environment}
    (h : ∀ other, other ≠ name → environment other = environment' other) :
    environment.without name = environment'.without name := by
  funext other
  by_cases hother : other = name
  · rw [hother, without_self, without_self]
  · rw [without_of_ne hother, without_of_ne hother, h other hother]

end Environment

namespace Settings

variable {environment : Environment}
variable {s : Settings}

theorem validate_eq_ok_iff
    {systemShard : UInt16} :
    s.validate = .ok systemShard ↔
      s.systemShard ≤ 32767 ∧ UInt16.ofNat s.systemShard = systemShard := by
  have hmax : maxShard = 32767 := rfl
  rw [validate, hmax]
  split
  · next hlarge =>
      constructor
      · intro h
        cases h
      · intro h
        exact absurd h.1 (not_le.2 hlarge)
  · next hsmall => simp [not_lt.1 hsmall]

/--
Settings are loaded exactly if each variable holds its number and the shard is in
range.
-/
theorem ofEnvironment_eq_ok_iff :
    ofEnvironment environment = .ok s ↔
      Environment.Holds 0 (environment Environment.shardName) s.systemShard ∧
        Environment.Holds 100000 (environment Environment.cacheMaxSizeName) s.cacheMaxSize ∧
        Environment.Holds 1800 (environment Environment.cacheMaxAgeName) s.cacheMaxAgeSecs ∧
        s.systemShard ≤ 32767 := by
  simp only [ofEnvironment, bind_eq_ok_iff, Environment.number_eq_ok_iff, validate_eq_ok_iff]
  constructor
  · rintro ⟨shard, hshard, size, hsize, age, hage, systemShard, ⟨hrange, -⟩, hs⟩
    obtain rfl := Except.ok.inj hs
    exact ⟨hshard, hsize, hage, hrange⟩
  · rintro ⟨hshard, hsize, hage, hrange⟩
    exact ⟨_, hshard, _, hsize, _, hage, _, ⟨hrange, rfl⟩, rfl⟩

end Settings
end LedgerEntity
