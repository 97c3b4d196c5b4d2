import LedgerEntity.Proofs.ContractReference.Agreement
import LedgerEntity.Proofs.Text.DecimalText

/-!
# The grammar of contract references

Which values are references, and what they refer to.

A reference is a target behind at most a shard and a realm.  Qualifiers are
words.  A target is forty hexadecimal digits with or without the mark, or a word
that is not such digits, so forty decimal digits are an address and no number.
The reader follows this grammar for every value and refuses all other values as
malformed.

What is read can be written again: in canonical numbers and lower-case digits a
reference is a value of the grammar that is read as the same reference.
-/

namespace LedgerEntity

section Grammar

/-- What the last piece of a value points at. -/
inductive ContractTarget.Spelled :
    List Char → ContractTarget → Prop
  | address
      {mark ds : List Char}
      {target : ContractTarget}
      (hmark : mark = [] ∨ mark = ['0', 'x'])
      (hds : HexadecimalNumeral 40 ds)
      (htarget : OfDigits ds target) :
      Spelled (mark ++ ds) target
  | number
      {cs : List Char}
      {n : Nat}
      (hword : DecimalWord cs n)
      (hdigits : ¬ HexadecimalNumeral 40 cs) :
      Spelled cs (.num n)

/-- What a value refers to: a target, in a realm or not, and a realm in a shard or not. -/
inductive ContractReference.Spelled :
    List Char → ContractReference → Prop
  | bare
      {last : List Char}
      {target : ContractTarget}
      (hlast : target.Spelled last) :
      Spelled last ⟨none, none, target⟩
  | inRealm
      {realm last : List Char}
      {r : Nat}
      {target : ContractTarget}
      (hrealm : DecimalWord realm r)
      (hlast : target.Spelled last) :
      Spelled (qualified [realm] last) ⟨none, some r, target⟩
  | inShard
      {shard realm last : List Char}
      {s r : Nat}
      {target : ContractTarget}
      (hshard : DecimalWord shard s)
      (hrealm : DecimalWord realm r)
      (hlast : target.Spelled last) :
      Spelled (qualified [shard, realm] last) ⟨some s, some r, target⟩

/-- A target in canonical digits, those of an address behind a mark. -/
def ContractTarget.written
    (mark : List Char) :
    ContractTarget → List Char
  | num n => Decimal.digits n
  | create2 a => mark ++ a.digits

/-- A reference in canonical digits, `[shard.][realm.]target`. -/
def ContractReference.written
    (mark : List Char)
    (r : ContractReference) :
    String :=
  String.ofList
    (qualified ((r.shard.toList ++ r.realm.toList).map Decimal.digits)
      (r.target.written mark))

end Grammar

theorem Fields.word_eq_ok_iff
    {cs : List Char}
    {n : Nat} :
    word cs = .ok n ↔ DecimalWord cs n := by
  rw [← Decimal.readWord?_eq_some_iff, word]
  cases Decimal.readWord? cs <;> simp

theorem Fields.mapM_word_eq_ok_iff
    {qualifiers : List (List Char)}
    {words : List Nat} :
    qualifiers.mapM word = .ok words ↔ List.Forall₂ DecimalWord qualifiers words := by
  simp only [mapM_eq_ok_iff, word_eq_ok_iff]

namespace ContractTarget

variable {cs mark ds : List Char}
variable {target : ContractTarget}

theorem addressFront_iff :
    AddressFront .noShardRealm mark ↔ mark = [] ∨ mark = ['0', 'x'] := by
  constructor
  · intro h
    cases h with
    | none => exact .inl rfl
    | mark => exact .inr rfl
    | qualifiers hflavor => exact absurd rfl hflavor
  · rintro (rfl | rfl)
    · exact .none
    · exact .mark (by decide)

/-- A word is an address only if it is forty digits itself. -/
theorem isAddress_iff_of_word
    {n : Nat}
    (h : DecimalWord cs n) :
    Shape.isAddress .noShardRealm cs = true ↔ HexadecimalNumeral 40 cs := by
  rw [Shape.isAddress_iff]
  constructor
  · rintro ⟨front, ds, hfront, hds, rfl⟩
    rcases addressFront_iff.1 hfront with rfl | rfl
    · exact hds
    · exact absurd (by simp) (h.not_mem (c := 'x') (by decide) (by decide))
  · intro hds
    exact ⟨[], cs, .none, hds, rfl⟩

theorem OfDigits.unique
    {target' : ContractTarget}
    (h : OfDigits ds target)
    (h' : OfDigits ds target') :
    target = target' := by
  cases h with
  | inRange hrange =>
      cases h' with
      | inRange => rfl
      | outOfRange hrange' => exact absurd hrange hrange'
  | @outOfRange address hrange hdigits =>
      cases h' with
      | inRange hrange' => exact absurd hrange' hrange
      | @outOfRange address' _ hdigits' =>
          have hsame : address.digits = address'.digits := hdigits.trans hdigits'.symm
          have hread := congrArg Address.ofDigits? hsame
          rw [Address.ofDigits?_digits, Address.ofDigits?_digits] at hread
          rw [Option.some.inj hread]

/-- A target is read from exactly the pieces that spell it. -/
theorem ofPiece_eq_ok_iff :
    ofPiece cs = .ok target ↔ target.Spelled cs := by
  constructor
  · intro h
    by_cases hshape : Shape.isAddress .noShardRealm cs = true
    · obtain ⟨front, ds, hfront, hds, rfl⟩ := Shape.isAddress_iff.1 hshape
      obtain ⟨target', htarget', hdigits⟩ := exists_ofPiece_eq hfront hds
      obtain rfl := Except.ok.inj (h.symm.trans htarget')
      exact .address (addressFront_iff.1 hfront) hds hdigits
    · rw [ofPiece_of_not_isAddress hshape] at h
      cases hword : Fields.word cs with
      | error rejection =>
          rw [hword] at h
          cases h
      | ok n =>
          rw [hword] at h
          obtain rfl := Except.ok.inj h
          have hcs := Fields.word_eq_ok_iff.1 hword
          exact .number hcs (mt (isAddress_iff_of_word hcs).2 hshape)
  · intro h
    cases h with
    | address hmark hds htarget =>
        obtain ⟨target', htarget', hdigits⟩ :=
          exists_ofPiece_eq (addressFront_iff.2 hmark) hds
        rw [htarget', htarget.unique hdigits]
    | number hword hdigits =>
        rw [ofPiece_of_not_isAddress (mt (isAddress_iff_of_word hword).1 hdigits),
          Fields.word_eq_ok_iff.2 hword]
        rfl

namespace Spelled

theorem dot_not_mem
    (h : target.Spelled cs) :
    '.' ∉ cs := by
  cases h with
  | address hmark hds =>
      rw [List.mem_append, not_or]
      refine ⟨?_, hds.dot_not_mem⟩
      rcases hmark with rfl | rfl <;> decide
  | number hword => exact hword.dot_not_mem

/-- A target holds a word, whichever way it is spelled. -/
theorem num_lt
    {n : Nat}
    (h : (num n).Spelled cs) :
    n < 2 ^ 64 := by
  cases h with
  | address hmark hds htarget =>
      cases htarget with
      | inRange hrange => exact lt_of_le_of_lt hrange.2.2 (by decide)
  | number hword =>
      exact hword.lt

/-- The canonical digits of a target spell it. -/
theorem written
    (h : target.Spelled cs)
    (hmark : mark = [] ∨ mark = ['0', 'x']) :
    target.Spelled (target.written mark) := by
  cases target with
  | num n =>
      have hlt := h.num_lt
      have hshort : (Decimal.digits n).length ≤ 20 :=
        (Decimal.length_digits_le_iff 20 (by decide)).2 (hlt.trans (by decide))
      refine .number (Decimal.decimalWord_digits hlt) ?_
      intro hdigits
      have hlong : (Decimal.digits n).length = 40 := hdigits.1
      omega
  | create2 address =>
      cases h with
      | @address _ ds _ _ hds htarget =>
          -- The address is written in lower case, which changes no field and no digit of it.
          have hlower := hexadecimalNumeral_iff_map_toLower.1 hds
          have hfields := addressFields_map_toLower hds
          have hcase : (ds.map Char.toLower).map Char.toLower = ds.map Char.toLower :=
            Hexadecimal.map_toLower_of_mem hlower.2
          have hnumeral : HexadecimalNumeral 40 (ds.map Char.toLower) := by
            rw [hexadecimalNumeral_iff_map_toLower, hcase]
            exact hlower
          cases htarget with
          | outOfRange hrange hdigits =>
              rw [← hfields] at hrange
              rw [← hdigits] at hrange hcase hnumeral
              exact .address hmark hnumeral (.outOfRange hrange hcase.symm)

end Spelled
end ContractTarget

section Refusals

/-- The only reason to refuse is that a text is malformed. -/
def RefusesOnlyMalformed
    {α : Type}
    (x : Except Rejection α) :
    Prop :=
  ∀ rejection, x = .error rejection → rejection = .malformed

variable {α β : Type}

/-- Two readers in a row refuse as the first or as the second. -/
theorem RefusesOnlyMalformed.bind
    {x : Except Rejection α}
    {f : α → Except Rejection β}
    (hx : RefusesOnlyMalformed x)
    (hf : ∀ a, RefusesOnlyMalformed (f a)) :
    RefusesOnlyMalformed (x >>= f) := by
  cases x with
  | error rejection =>
      intro rejection' h
      obtain rfl := Except.error.inj h
      exact hx rejection rfl
  | ok a => exact hf a

end Refusals

namespace ContractReference

variable {value : String}
variable {cs mark : List Char}
variable {r : ContractReference}

/-- A value spells a reference by its pieces: at most two words, then a target. -/
theorem spelled_iff_pieces :
    r.Spelled cs ↔
      ∃ qualifiers last words,
        pieces '.' cs = qualifiers ++ [last] ∧
        qualifiers.length ≤ 2 ∧
        List.Forall₂ DecimalWord qualifiers words ∧
        r.target.Spelled last ∧
        r.shard = words.reverse[1]? ∧
        r.realm = words.reverse[0]? := by
  constructor
  · intro h
    cases h with
    | bare hlast =>
        exact
          ⟨[], cs, [], pieces_of_not_mem hlast.dot_not_mem, by decide, .nil, hlast, rfl, rfl⟩
    | @inRealm realm last r target hr hlast =>
        have hpieces : pieces '.' (qualified [realm] last) = [realm] ++ [last] :=
          pieces_qualified (by simpa using hr.dot_not_mem) hlast.dot_not_mem
        exact ⟨[realm], last, [r], hpieces, by simp, .cons hr .nil, hlast, rfl, rfl⟩
    | @inShard shard realm last s r target hs hr hlast =>
        have hpieces :
            pieces '.' (qualified [shard, realm] last) = [shard, realm] ++ [last] :=
          pieces_qualified (by simpa using ⟨hs.dot_not_mem, hr.dot_not_mem⟩)
            hlast.dot_not_mem
        exact
          ⟨[shard, realm], last, [s, r], hpieces, by simp, .cons hs (.cons hr .nil), hlast,
            rfl, rfl⟩
  · rintro ⟨qualifiers, last, words, hpieces, hlength, hwords, hlast, hshard, hrealm⟩
    obtain rfl := eq_qualified_of_pieces_eq hpieces
    obtain ⟨shard, realm, target⟩ := r
    obtain rfl : shard = words.reverse[1]? := hshard
    obtain rfl : realm = words.reverse[0]? := hrealm
    match qualifiers, words, hlength, hwords with
    | [], [], _, _ => exact .bare hlast
    | [_], [_], _, .cons hr .nil => exact .inRealm hr hlast
    | [_, _], [_, _], _, .cons hs (.cons hr .nil) => exact .inShard hs hr hlast

/-- A reference is read from exactly the values that spell it. -/
theorem ofText_eq_ok_iff_spelled :
    ofText value = .ok r ↔ r.Spelled value.toList := by
  rw [ofText_eq_ok_iff, ofPieces_eq_ok_iff, spelled_iff_pieces]
  simp only [Fields.mapM_word_eq_ok_iff, ContractTarget.ofPiece_eq_ok_iff]

theorem Spelled.written
    (h : r.Spelled cs)
    (hmark : mark = [] ∨ mark = ['0', 'x']) :
    r.Spelled (r.written mark).toList := by
  rw [ContractReference.written, String.toList_ofList]
  cases h with
  | bare hlast => exact .bare (hlast.written hmark)
  | inRealm hr hlast =>
      exact .inRealm (Decimal.decimalWord_digits hr.lt) (hlast.written hmark)
  | inShard hs hr hlast =>
      exact
        .inShard (Decimal.decimalWord_digits hs.lt) (Decimal.decimalWord_digits hr.lt)
          (hlast.written hmark)

end ContractReference
end LedgerEntity
