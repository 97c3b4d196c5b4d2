import LedgerEntity.Shape
import LedgerEntity.Proofs.Text.Positional

/-!
# The grammar behind the shapes

Each shape test is the grammar it stands for: a text has the shape exactly if
it is written in one of the listed forms.

Forms with dots are texts behind qualifiers, and cutting such a text at its
dots gives the qualifiers and the text back.  An address is forty digits behind
a front that the flavor accepts.  The shapes of a dotted ID, a packed ID and an
address exclude each other: only the first two are short, and of these only the
first has a dot.
-/

namespace LedgerEntity

/-- A text behind qualifiers, each followed by a dot. -/
def qualified
    (qualifiers : List (List Char))
    (cs : List Char) :
    List Char :=
  qualifiers.foldr (fun q rest => q ++ '.' :: rest) cs

/-- What a flavor accepts in front of the digits of an address. -/
inductive AddressFront
    (flavor : Flavor) :
    List Char → Prop
  | none :
      AddressFront flavor []
  | mark
      (hflavor : flavor ≠ .optionalShardRealm) :
      AddressFront flavor ['0', 'x']
  | qualifiers
      {qualifiers : List (List Char)}
      (hflavor : flavor ≠ .noShardRealm)
      (hlength : qualifiers.length ≤ 2)
      (hqualifiers : ∀ q ∈ qualifiers, DecimalNumeral 10 q) :
      AddressFront flavor (qualified qualifiers [])

theorem qualified_append
    (qualifiers : List (List Char))
    (xs ys : List Char) :
    qualified qualifiers (xs ++ ys) = qualified qualifiers xs ++ ys := by
  induction qualifiers with
  | nil =>
      rfl
  | cons q qualifiers ih =>
      simp only [qualified, List.foldr_cons] at ih ⊢
      rw [ih, List.append_assoc, List.cons_append]

theorem not_mem_qualified
    {c : Char}
    (hdot : c ≠ '.')
    {qualifiers : List (List Char)}
    {cs : List Char}
    (hqualifiers : ∀ q ∈ qualifiers, c ∉ q)
    (hcs : c ∉ cs) :
    c ∉ qualified qualifiers cs := by
  induction qualifiers with
  | nil =>
      exact hcs
  | cons q qualifiers ih =>
      obtain ⟨hq, hrest⟩ := List.forall_mem_cons.1 hqualifiers
      change c ∉ q ++ '.' :: qualified qualifiers cs
      rw [List.mem_append, List.mem_cons, not_or, not_or]
      exact ⟨hq, hdot, ih hrest⟩

section Pieces

variable {separator : Char}

theorem pieces_of_not_mem
    {cs : List Char}
    (h : separator ∉ cs) :
    pieces separator cs = [cs] := by
  induction cs with
  | nil =>
      rfl
  | cons c cs ih =>
      rw [List.mem_cons, not_or] at h
      simp only [pieces, if_neg (Ne.symm h.1), ih h.2]

theorem pieces_append_cons
    {cs : List Char}
    (h : separator ∉ cs)
    (rest : List Char) :
    pieces separator (cs ++ separator :: rest) = cs :: pieces separator rest := by
  induction cs with
  | nil =>
      simp [pieces]
  | cons c cs ih =>
      rw [List.mem_cons, not_or] at h
      simp only [List.cons_append, pieces, if_neg (Ne.symm h.1), ih h.2]

theorem pieces_qualified
    {qualifiers : List (List Char)}
    {cs : List Char}
    (hqualifiers : ∀ q ∈ qualifiers, '.' ∉ q)
    (hcs : '.' ∉ cs) :
    pieces '.' (qualified qualifiers cs) = qualifiers ++ [cs] := by
  induction qualifiers with
  | nil =>
      exact pieces_of_not_mem hcs
  | cons q qualifiers ih =>
      obtain ⟨hq, hrest⟩ := List.forall_mem_cons.1 hqualifiers
      rw [qualified, List.foldr_cons, pieces_append_cons hq]
      exact congrArg (q :: ·) (ih hrest)

/-- A text is its last piece behind the other pieces. -/
theorem eq_qualified_of_pieces_eq
    {qualifiers : List (List Char)}
    {cs last : List Char}
    (h : pieces '.' cs = qualifiers ++ [last]) :
    cs = qualified qualifiers last := by
  rw [← joinPieces_pieces '.' cs, h]
  -- What is left is about the joined pieces and no more about the text.
  clear h
  induction qualifiers with
  | nil =>
      simp [joinPieces, qualified]
  | cons q qualifiers ih =>
      rw [qualified, List.foldr_cons]
      change _ = q ++ '.' :: qualified qualifiers last
      rw [← ih]
      cases qualifiers <;> simp [joinPieces, List.intercalate]

theorem lastPiece_qualified
    {qualifiers : List (List Char)}
    {cs : List Char}
    (hqualifiers : ∀ q ∈ qualifiers, '.' ∉ q)
    (hcs : '.' ∉ cs) :
    lastPiece '.' (qualified qualifiers cs) = cs := by
  rw [lastPiece, pieces_qualified hqualifiers hcs]
  simp

end Pieces

section Numerals

theorem DecimalNumeral.not_mem
    {atMost : Nat}
    {ds : List Char}
    (h : DecimalNumeral atMost ds)
    {c : Char}
    (hc : c ∉ decimalAlphabet) :
    c ∉ ds :=
  fun hmem => hc (h.2.2 c hmem)

theorem HexadecimalNumeral.not_mem
    {width : Nat}
    {ds : List Char}
    (h : HexadecimalNumeral width ds)
    {c : Char}
    (hc : c.toLower ∉ hexadecimalAlphabet) :
    c ∉ ds :=
  fun hmem => hc (h.2 c hmem)

theorem DecimalNumeral.dot_not_mem
    {atMost : Nat}
    {ds : List Char}
    (h : DecimalNumeral atMost ds) :
    '.' ∉ ds :=
  h.not_mem (by decide)

theorem HexadecimalNumeral.dot_not_mem
    {width : Nat}
    {ds : List Char}
    (h : HexadecimalNumeral width ds) :
    '.' ∉ ds :=
  h.not_mem (by decide)

theorem DecimalWord.not_mem
    {cs : List Char}
    {n : Nat}
    (h : DecimalWord cs n)
    {c : Char}
    (hplus : c ≠ '+')
    (hc : c ∉ decimalAlphabet) :
    c ∉ cs := by
  obtain ⟨sign, ds, hsign, -, hds, rfl, -, -⟩ := h
  rw [List.mem_append, not_or]
  refine ⟨?_, fun hmem => hc (hds c hmem)⟩
  rcases hsign with rfl | rfl
  · exact List.not_mem_nil
  · rwa [List.mem_singleton]

theorem DecimalWord.dot_not_mem
    {cs : List Char}
    {n : Nat}
    (h : DecimalWord cs n) :
    '.' ∉ cs :=
  h.not_mem (by decide) (by decide)

/-- Cutting at the dots finds the numerals and what is behind them. -/
theorem pieces_of_numerals
    {atMost : Nat}
    {qualifiers : List (List Char)}
    {cs : List Char}
    (hqualifiers : ∀ q ∈ qualifiers, DecimalNumeral atMost q)
    (hcs : '.' ∉ cs) :
    pieces '.' (qualified qualifiers cs) = qualifiers ++ [cs] :=
  pieces_qualified (fun q hq => (hqualifiers q hq).dot_not_mem) hcs

theorem HexadecimalNumeral.withoutMark
    {width : Nat}
    {ds : List Char}
    (h : HexadecimalNumeral width ds) :
    Shape.withoutMark ds = ds := by
  unfold Shape.withoutMark
  split
  · next rest =>
      have hmem : 'x' ∈ '0' :: 'x' :: rest :=
        List.mem_cons_of_mem _ List.mem_cons_self
      exact absurd hmem (h.not_mem (by decide))
  · rfl

end Numerals

namespace Shape

variable {cs : List Char}

/-- A dotted ID is one or two numerals of five digits, then one of ten. -/
theorem isDotted_iff :
    isDotted cs = true ↔
      (∃ realm num, DecimalNumeral 5 realm ∧ DecimalNumeral 10 num ∧
          cs = qualified [realm] num)
        ∨
      (∃ shard realm num, DecimalNumeral 5 shard ∧ DecimalNumeral 5 realm ∧
          DecimalNumeral 10 num ∧ cs = qualified [shard, realm] num) := by
  constructor
  · intro h
    unfold isDotted at h
    split at h
    · next realm num hpieces =>
        simp only [Bool.and_eq_true, Decimal.isNumeral_iff] at h
        left
        exact ⟨realm, num, h.1, h.2, eq_qualified_of_pieces_eq (by simpa using hpieces)⟩
    · next shard realm num hpieces =>
        simp only [Bool.and_eq_true, Decimal.isNumeral_iff] at h
        right
        exact
          ⟨shard, realm, num, h.1.1, h.1.2, h.2,
            eq_qualified_of_pieces_eq (by simpa using hpieces)⟩
    · simp at h
  · rintro (⟨realm, num, hrealm, hnum, rfl⟩ |
      ⟨shard, realm, num, hshard, hrealm, hnum, rfl⟩)
    · have hpieces : pieces '.' (qualified [realm] num) = [realm] ++ [num] :=
        pieces_of_numerals (by simpa using hrealm) hnum.dot_not_mem
      simp [isDotted, hpieces, Decimal.isNumeral_iff, hrealm, hnum]
    · have hpieces :
          pieces '.' (qualified [shard, realm] num) = [shard, realm] ++ [num] :=
        pieces_of_numerals (by simpa using ⟨hshard, hrealm⟩) hnum.dot_not_mem
      simp [isDotted, hpieces, Decimal.isNumeral_iff, hshard, hrealm, hnum]

theorem isPacked_iff :
    isPacked cs = true ↔ DecimalNumeral 19 cs :=
  Decimal.isNumeral_iff 19 cs

theorem isAddressDigits_iff :
    isAddressDigits cs = true ↔ HexadecimalNumeral 40 cs := by
  simp [isAddressDigits, HexadecimalNumeral, Hexadecimal.isDigit_iff_toLower_mem]

/-- A bare address is forty digits, with or without the mark. -/
theorem isBareAddress_iff :
    isBareAddress cs = true ↔
      ∃ ds, HexadecimalNumeral 40 ds ∧ (cs = ds ∨ cs = '0' :: 'x' :: ds) := by
  rw [isBareAddress, isAddressDigits_iff]
  constructor
  · intro h
    unfold withoutMark at h
    split at h
    · next rest => exact ⟨rest, h, Or.inr rfl⟩
    · exact ⟨cs, h, Or.inl rfl⟩
  · rintro ⟨ds, hds, rfl | rfl⟩
    · rwa [hds.withoutMark]
    · exact hds

/-- A qualified address is forty digits behind at most two numerals of ten digits. -/
theorem isQualifiedAddress_iff :
    isQualifiedAddress cs = true ↔
      ∃ qualifiers ds, qualifiers.length ≤ 2 ∧
        (∀ q ∈ qualifiers, DecimalNumeral 10 q) ∧
        HexadecimalNumeral 40 ds ∧ cs = qualified qualifiers ds := by
  constructor
  · intro h
    unfold isQualifiedAddress at h
    split at h
    · next ds hpieces =>
        rw [isAddressDigits_iff] at h
        exact ⟨[], ds, by simp, by simp, h, eq_qualified_of_pieces_eq hpieces⟩
    · next realm ds hpieces =>
        simp only [Bool.and_eq_true, Decimal.isNumeral_iff, isAddressDigits_iff] at h
        exact
          ⟨[realm], ds, by simp, by simpa using h.1, h.2,
            eq_qualified_of_pieces_eq (by simpa using hpieces)⟩
    · next shard realm ds hpieces =>
        simp only [Bool.and_eq_true, Decimal.isNumeral_iff, isAddressDigits_iff] at h
        exact
          ⟨[shard, realm], ds, by simp, by simpa using h.1, h.2,
            eq_qualified_of_pieces_eq (by simpa using hpieces)⟩
    · simp at h
  · rintro ⟨qualifiers, ds, hlength, hqualifiers, hds, rfl⟩
    have hpieces := pieces_of_numerals hqualifiers hds.dot_not_mem
    rw [isQualifiedAddress, hpieces]
    match qualifiers, hlength with
    | [], _ =>
        simpa [isAddressDigits_iff] using hds
    | [realm], _ =>
        simpa [Decimal.isNumeral_iff, isAddressDigits_iff, hds] using hqualifiers
    | [shard, realm], _ =>
        simpa [Decimal.isNumeral_iff, isAddressDigits_iff, hds] using hqualifiers

/-- A flavor accepts the forms that it does not exclude. -/
theorem isAddress_iff_forms
    {flavor : Flavor} :
    isAddress flavor cs = true ↔
      (flavor ≠ .optionalShardRealm ∧ isBareAddress cs = true)
        ∨
      (flavor ≠ .noShardRealm ∧ isQualifiedAddress cs = true) := by
  cases flavor <;> simp [isAddress]

/-- An address is forty digits behind an accepted front. -/
theorem isAddress_iff
    {flavor : Flavor} :
    isAddress flavor cs = true ↔
      ∃ front ds, AddressFront flavor front ∧ HexadecimalNumeral 40 ds ∧
        cs = front ++ ds := by
  rw [isAddress_iff_forms, isBareAddress_iff, isQualifiedAddress_iff]
  constructor
  · rintro (⟨hflavor, ds, hds, rfl | rfl⟩ |
      ⟨hflavor, qualifiers, ds, hlength, hqualifiers, hds, rfl⟩)
    · exact ⟨[], _, .none, hds, rfl⟩
    · exact ⟨['0', 'x'], ds, .mark hflavor, hds, rfl⟩
    · refine ⟨_, ds, .qualifiers hflavor hlength hqualifiers, hds, ?_⟩
      exact qualified_append qualifiers [] ds
  · rintro ⟨front, ds, hfront, hds, rfl⟩
    cases hfront with
    | none =>
        -- The bare digits have both forms, and each flavor accepts one of them.
        by_cases hflavor : flavor = .optionalShardRealm
        · right
          exact ⟨by simp [hflavor], [], ds, by simp, by simp, hds, rfl⟩
        · left
          exact ⟨hflavor, ds, hds, Or.inl rfl⟩
    | mark hflavor =>
        left
        exact ⟨hflavor, ds, hds, Or.inr rfl⟩
    | @qualifiers qualifiers hflavor hlength hqualifiers =>
        right
        refine ⟨hflavor, qualifiers, ds, hlength, hqualifiers, hds, ?_⟩
        exact (qualified_append qualifiers [] ds).symm

/-- The digits of an address are what the last piece holds after the mark. -/
theorem withoutMark_lastPiece
    {flavor : Flavor}
    {front ds : List Char}
    (hfront : AddressFront flavor front)
    (hds : HexadecimalNumeral 40 ds) :
    withoutMark (lastPiece '.' (front ++ ds)) = ds := by
  have hdot := hds.dot_not_mem
  cases hfront with
  | none =>
      rw [List.nil_append, lastPiece, pieces_of_not_mem hdot]
      exact hds.withoutMark
  | mark =>
      have hmarked : '.' ∉ ['0', 'x'] ++ ds := by
        simpa using hdot
      rw [lastPiece, pieces_of_not_mem hmarked]
      rfl
  | qualifiers hflavor hlength hqualifiers =>
      rw [← qualified_append, List.nil_append,
        lastPiece_qualified (fun q hq => (hqualifiers q hq).dot_not_mem) hdot]
      exact hds.withoutMark

theorem le_length_of_isAddress
    {flavor : Flavor}
    (h : isAddress flavor cs = true) :
    40 ≤ cs.length := by
  obtain ⟨front, ds, -, hds, rfl⟩ := isAddress_iff.1 h
  rw [List.length_append, hds.1]
  omega

theorem length_le_of_isDotted
    (h : isDotted cs = true) :
    cs.length ≤ 22 := by
  rcases isDotted_iff.1 h with
    ⟨realm, num, hrealm, hnum, rfl⟩ | ⟨shard, realm, num, hshard, hrealm, hnum, rfl⟩
  · have hrealm_le := hrealm.2.1
    have hnum_le := hnum.2.1
    simp only [qualified, List.foldr_cons, List.foldr_nil, List.length_append,
      List.length_cons]
    omega
  · have hshard_le := hshard.2.1
    have hrealm_le := hrealm.2.1
    have hnum_le := hnum.2.1
    simp only [qualified, List.foldr_cons, List.foldr_nil, List.length_append,
      List.length_cons]
    omega

theorem dot_mem_of_isDotted
    (h : isDotted cs = true) :
    '.' ∈ cs := by
  rcases isDotted_iff.1 h with
    ⟨realm, num, -, -, rfl⟩ | ⟨shard, realm, num, -, -, -, rfl⟩ <;>
    simp [qualified]

/-- A packed ID has no dot, so it is no dotted ID. -/
theorem isDotted_eq_false_of_isPacked
    (h : isPacked cs = true) :
    isDotted cs = false := by
  rw [Bool.eq_false_iff]
  intro hdotted
  exact (isPacked_iff.1 h).dot_not_mem (dot_mem_of_isDotted hdotted)

/-- A text of forty characters or more is neither a dotted nor a packed ID. -/
theorem isDotted_isPacked_eq_false_of_length
    (h : 40 ≤ cs.length) :
    isDotted cs = false ∧ isPacked cs = false := by
  constructor
  · rw [Bool.eq_false_iff]
    intro hdotted
    have hle := length_le_of_isDotted hdotted
    omega
  · rw [Bool.eq_false_iff]
    intro hpacked
    have hle : cs.length ≤ 19 := (isPacked_iff.1 hpacked).2.1
    omega

end Shape
end LedgerEntity
