import LedgerEntity.Document.Printer
import LedgerEntity.Document.Reader
import LedgerEntity.Proofs.Text.DecimalText
import Mathlib.Data.List.Forall2
import Mathlib.Data.List.TakeWhile
import Mathlib.Tactic

/-!
# The lexemes of a printed document

What the first pass of the reader makes of a text that the printer wrote.

Each printed character of a text takes the pass from one quoted state to the
next, with the character itself put on, whether it was escaped or not.  A number
or a word is complete at the next mark or blank, or at the end.  Blanks between
lexemes leave no trace.  Hence the compact form and the spread form of a document
are cut into the same lexemes, which are those of its parts in order, with commas
between them.

This is for plain documents.  They hold no floating-point numbers, their whole
numbers fit words of 64 bits, and the names of an object are distinct.
-/

namespace LedgerEntity
namespace Document

section Definitions

/-- No floating-point numbers, whole numbers of 64 bits, and distinct names. -/
inductive Plain :
    Document → Prop
  | null :
      Plain .null
  | bool
      (b : Bool) :
      Plain (.bool b)
  | integer
      {n : Int}
      (hlow : -2 ^ 63 ≤ n)
      (hhigh : n < 2 ^ 64) :
      Plain (.integer n)
  | text
      (s : String) :
      Plain (.text s)
  | list
      {items : List Document}
      (hitems : ∀ d ∈ items, Plain d) :
      Plain (.list items)
  | object
      {members : List (String × Document)}
      (hnames : (members.map Prod.fst).Nodup)
      (hvalues : ∀ m ∈ members, Plain m.2) :
      Plain (.object members)

mutual

/-- The lexemes of a document. -/
def lexemes : Document → List Lexeme
  | null => [.atom null]
  | bool b => [.atom (bool b)]
  | integer n => [.atom (integer n)]
  | float x => [.atom (float x)]
  | text s => [.quoted s]
  | list items =>
      .openList :: (List.intercalate [.comma] (itemLexemes items) ++ [.closeList])
  | object members =>
      .openObject :: (List.intercalate [.comma] (memberLexemes members) ++ [.closeObject])

/-- The lexemes of the items of a list. -/
def itemLexemes : List Document → List (List Lexeme)
  | [] => []
  | item :: items => item.lexemes :: itemLexemes items

/-- The lexemes of the members of an object. -/
def memberLexemes : List (String × Document) → List (List Lexeme)
  | [] => []
  | (name, value) :: members =>
      (.quoted name :: .colon :: value.lexemes) :: memberLexemes members

end

/-- The lexemes of a text of which the first pass has done a part. -/
def lexemesFrom?
    (state : Scan × List Lexeme)
    (rest : List Char) :
    Option (List Lexeme) :=
  (rest.foldlM Scan.step state).bind Scan.finish?

/-- A rest of text at which a number or a word is complete. -/
def EndsWord
    (rest : List Char) :
    Prop :=
  rest = [] ∨
    ∃ c later, rest = c :: later ∧ (isGap c = true ∨ (Lexeme.ofMark? c).isSome = true)

/-- Wherever a value may be written, the first pass cuts a text into these lexemes. -/
def Cuts
    (cs : List Char)
    (ls : List Lexeme) :
    Prop :=
  ∀ done rest, EndsWord rest →
    lexemesFrom? (.between, done) (cs ++ rest) =
      lexemesFrom? (.between, ls.reverse ++ done) rest

/-- A text of one character that is a lexeme by itself. -/
def IsMark
    (s : String)
    (l : Lexeme) :
    Prop :=
  ∃ mark, s.toList = [mark] ∧ Lexeme.ofMark? mark = some l

/-- A character that goes on with a number or a word. -/
def continuesWord
    (c : Char) :
    Bool :=
  !isGap c && c != '"' && (Lexeme.ofMark? c).isNone

end Definitions

section Characters

variable {done : List Lexeme}
variable {taken rest : List Char}

theorem lexemesFrom?_append
    {state next : Scan × List Lexeme}
    {cs : List Char}
    (h : cs.foldlM Scan.step state = some next) :
    lexemesFrom? state (cs ++ rest) = lexemesFrom? next rest := by
  rw [lexemesFrom?, List.foldlM_append, h]
  rfl

/-- A control character is escaped by the two digits of its code point. -/
theorem foldlM_step_codePoint
    {n : Nat}
    (hn : n < 0x20) :
    ("\\u00".toList ++ Hexadecimal.ofByte (UInt8.ofNat n)).foldlM Scan.step
        (.quoted taken, done) =
      some (.quoted (Char.ofNat n :: taken), done) := by
  have hbyte : (UInt8.ofNat n).toNat = n := by
    rw [UInt8.toNat_ofNat']
    omega
  have hhigh : n / 16 < 16 := by omega
  have hlow : n % 16 < 16 := by omega
  have hvalue : 16 * (n / 16) + n % 16 = n := by omega
  have hprefix :
      "\\u00".toList.foldlM Scan.step (.quoted taken, done) =
        some (.codePoint taken none 2 0, done) := by
    rfl
  have hcomplete :
      Scan.complete taken none n = some (.quoted (Char.ofNat n :: taken)) := by
    have hnotHigh : ¬ 0xd800 ≤ n := by omega
    have hnotLow : ¬ 0xdc00 ≤ n := by omega
    simp [Scan.complete, hnotHigh, hnotLow]
  rw [List.foldlM_append, hprefix, Hexadecimal.ofByte, hbyte]
  simp [Scan.step, Hexadecimal.isDigit_digit _ hhigh, Hexadecimal.isDigit_digit _ hlow,
    Hexadecimal.digitValue_digit _ hhigh, Hexadecimal.digitValue_digit _ hlow, hvalue,
    hcomplete]

/-- A printed character of a text stands for itself. -/
theorem foldlM_step_escapeChar
    (c : Char) :
    (escapeChar c).foldlM Scan.step (.quoted taken, done) =
      some (.quoted (c :: taken), done) := by
  unfold escapeChar
  split_ifs with hquote hbackslash hbackspace htab hnewline hfeed hreturn hcontrol
  · rw [hquote]
    rfl
  · rw [hbackslash]
    rfl
  · rw [hbackspace]
    rfl
  · rw [htab]
    rfl
  · rw [hnewline]
    rfl
  · rw [hfeed]
    rfl
  · rw [hreturn]
    rfl
  · rw [foldlM_step_codePoint hcontrol, Char.ofNat_toNat]
  · simp [Scan.step, hquote, hbackslash, hcontrol]

theorem foldlM_step_escaped
    (cs : List Char) :
    (cs.flatMap escapeChar).foldlM Scan.step (.quoted taken, done) =
      some (.quoted (cs.reverse ++ taken), done) := by
  induction cs generalizing taken with
  | nil =>
      rfl
  | cons c cs ih =>
      rw [List.flatMap_cons, List.foldlM_append, foldlM_step_escapeChar,
        Option.bind_eq_bind, Option.bind_some, ih, List.reverse_cons, List.append_assoc,
        List.singleton_append]

/-- A printed text is one lexeme. -/
theorem foldlM_step_textLiteral
    (s : String) :
    (textLiteral s).toList.foldlM Scan.step (.between, done) =
      some (.between, .quoted s :: done) := by
  have hliteral :
      (textLiteral s).toList = '"' :: (s.toList.flatMap escapeChar ++ ['"']) := by
    simp [textLiteral]
  have hopen : Scan.step (.between, done) '"' = some (.quoted [], done) := rfl
  have hclose :
      Scan.step (.quoted s.toList.reverse, done) '"' =
        some (.between, .quoted s :: done) := by
    simp [Scan.step]
  rw [hliteral, List.foldlM_cons, hopen]
  simp [List.foldlM_append, foldlM_step_escaped, hclose]

theorem lexemesFrom?_mark
    {mark : Char}
    {l : Lexeme}
    (hmark : Lexeme.ofMark? mark = some l)
    (rest : List Char) :
    lexemesFrom? (.between, done) (mark :: rest) =
      lexemesFrom? (.between, l :: done) rest := by
  have hstep : Scan.step (.between, done) mark = some (.between, l :: done) := by
    unfold Lexeme.ofMark? at hmark
    split at hmark <;> cases hmark <;> rfl
  rw [lexemesFrom?, List.foldlM_cons, hstep]
  rfl

/-- Blanks between two lexemes leave no trace. -/
theorem lexemesFrom?_gap
    {gap : List Char}
    (hgap : ∀ c ∈ gap, isGap c = true) :
    lexemesFrom? (.between, done) (gap ++ rest) = lexemesFrom? (.between, done) rest := by
  apply lexemesFrom?_append
  induction gap with
  | nil =>
      rfl
  | cons c gap ih =>
      obtain ⟨hc, hlater⟩ := List.forall_mem_cons.1 hgap
      have hstep : Scan.step (.between, done) c = some (.between, done) := by
        simp [Scan.step, Scan.start, hc]
      rw [List.foldlM_cons, hstep]
      exact ih hlater

theorem foldlM_step_word
    {cs : List Char}
    (h : ∀ c ∈ cs, continuesWord c = true) :
    cs.foldlM Scan.step (.word taken, done) = some (.word (cs.reverse ++ taken), done) := by
  induction cs generalizing taken with
  | nil =>
      rfl
  | cons c cs ih =>
      obtain ⟨hc, hlater⟩ := List.forall_mem_cons.1 h
      simp only [continuesWord, Bool.and_eq_true, Bool.not_eq_true', bne_iff_ne, ne_eq,
        Option.isNone_iff_eq_none] at hc
      have hstep : Scan.step (.word taken, done) c = some (.word (c :: taken), done) := by
        simp [Scan.step, hc]
      rw [List.foldlM_cons, hstep, Option.bind_eq_bind, Option.bind_some, ih hlater,
        List.reverse_cons, List.append_assoc, List.singleton_append]

end Characters

section Words

/-- A number or a word is one lexeme. -/
theorem cuts_word
    {cs : List Char}
    {l : Lexeme}
    (hne : cs ≠ [])
    (hcs : ∀ c ∈ cs, continuesWord c = true)
    (hword : Lexeme.ofWord? cs = some l) :
    Cuts cs [l] := by
  intro done rest hrest
  have hscan :
      cs.foldlM Scan.step (.between, done) = some (.word cs.reverse, done) := by
    obtain ⟨c, later, rfl⟩ := List.exists_cons_of_ne_nil hne
    obtain ⟨hc, hlater⟩ := List.forall_mem_cons.1 hcs
    simp only [continuesWord, Bool.and_eq_true, Bool.not_eq_true', bne_iff_ne, ne_eq,
      Option.isNone_iff_eq_none] at hc
    have hstart : Scan.step (.between, done) c = some (.word [c], done) := by
      simp [Scan.step, Scan.start, hc]
    rw [List.foldlM_cons, hstart, Option.bind_eq_bind, Option.bind_some,
      foldlM_step_word hlater, List.reverse_cons]
  rw [lexemesFrom?_append hscan]
  rcases hrest with rfl | ⟨c, later, rfl, hc⟩
  · simp [lexemesFrom?, Scan.finish?, hword]
  · -- The next character completes the word and is then read as between two lexemes.
    have hends : (isGap c || c = '"' || (Lexeme.ofMark? c).isSome) = true := by
      rcases hc with hc | hc <;> simp [hc]
    have hstep :
        Scan.step (.word cs.reverse, done) c =
          Scan.step (.between, [l].reverse ++ done) c := by
      simp only [Scan.step, hends, if_true, List.reverse_reverse, hword, Option.bind_some]
      rfl
    rw [lexemesFrom?, lexemesFrom?, List.foldlM_cons, List.foldlM_cons, hstep]

theorem cuts_textLiteral
    (s : String) :
    Cuts (textLiteral s).toList [.quoted s] :=
  fun _ _ _ => lexemesFrom?_append (foldlM_step_textLiteral s)

end Words

section Numbers

variable {n : Nat}

theorem NumberParts.ofDigits?_digits
    (negative : Bool)
    (n : Nat) :
    ofDigits? negative (Decimal.digits n) =
      some ⟨negative, Decimal.digits n, none, none⟩ := by
  have hall : ∀ c ∈ Decimal.digits n, c.isDigit = true :=
    fun _ => Decimal.isDigit_of_mem_digits
  have hlead :
      ((Decimal.digits n).head? == some '0' && decide (1 < (Decimal.digits n).length)) =
        false := by
    rcases Nat.eq_zero_or_pos n with rfl | hpos
    · rfl
    · simp [Decimal.head?_digits_ne_zero hpos]
  rw [ofDigits?, List.takeWhile_eq_self_iff.2 hall, List.dropWhile_eq_nil_iff.2 hall]
  simp [hlead, Decimal.digits_ne_nil, ofTail?]

/-- The text of a whole number is a number without point and exponent. -/
theorem NumberParts.ofChars?_intText
    (n : Int) :
    ofChars? (Decimal.intText n).toList =
      some ⟨decide (n < 0), Decimal.digits n.natAbs, none, none⟩ := by
  cases n with
  | negSucc n =>
      rw [Decimal.toList_intText_negSucc]
      change ofDigits? true (Decimal.digits (n + 1)) = _
      rw [ofDigits?_digits, decide_eq_true (Int.negSucc_lt_zero n)]
      rfl
  | ofNat n =>
      have htext : (Decimal.intText (.ofNat n)).toList = Decimal.digits n :=
        Decimal.toList_text n
      have hunsigned :
          ofChars? (Decimal.digits n) = ofDigits? false (Decimal.digits n) := by
        unfold ofChars?
        split
        · next cs hcs =>
            have hsign : '-'.isDigit = true :=
              Decimal.isDigit_of_mem_digits (n := n) (by rw [hcs]; exact List.mem_cons_self)
            cases hsign
        · rfl
      rw [htext, hunsigned, ofDigits?_digits]
      simp

/-- A whole number of 64 bits is read as itself. -/
theorem NumberParts.document?_intText
    {n : Int}
    (hlow : -2 ^ 63 ≤ n)
    (hhigh : n < 2 ^ 64) :
    document? ⟨decide (n < 0), Decimal.digits n.natAbs, none, none⟩ = some (integer n) := by
  by_cases hneg : n < 0
  · have hfits : 0 < n.natAbs ∧ n.natAbs ≤ 1 <<< 63 := by omega
    have hvalue : -(n.natAbs : Int) = n := by omega
    simp only [document?, Option.isNone_none, Bool.and_self, if_true, hneg, decide_true,
      Decimal.value_digits]
    rw [if_pos hfits, hvalue]
  · have hfits : n.natAbs < Decimal.wordLimit := by
      have hword : Decimal.wordLimit = 2 ^ 64 := by decide
      omega
    have hvalue : (n.natAbs : Int) = n := by omega
    simp only [document?, Option.isNone_none, Bool.and_self, if_true, hneg, decide_false,
      Bool.false_eq_true, if_false, Decimal.value_digits]
    rw [if_pos hfits, hvalue]

/-- A number is no word of JSON text. -/
theorem Lexeme.ofWord?_of_ofChars?
    {cs : List Char}
    {parts : NumberParts}
    (h : NumberParts.ofChars? cs = some parts) :
    ofWord? cs = parts.document?.map .atom := by
  have hnull : NumberParts.ofChars? "null".toList = none := rfl
  have htrue : NumberParts.ofChars? "true".toList = none := rfl
  have hfalse : NumberParts.ofChars? "false".toList = none := rfl
  have hne : ∀ word, NumberParts.ofChars? word = none → cs ≠ word := by
    rintro word hword rfl
    cases hword.symm.trans h
  rw [ofWord?, if_neg (hne _ hnull), if_neg (hne _ htrue), if_neg (hne _ hfalse), h,
    Option.bind_some]

theorem continuesWord_of_mem_intText
    (n : Int) :
    ∀ c ∈ (Decimal.intText n).toList, continuesWord c = true := by
  have hdigits : ∀ m, ∀ c ∈ Decimal.digits m, continuesWord c = true := by
    have halphabet : ∀ c ∈ decimalAlphabet, continuesWord c = true :=
      List.all_eq_true.1 rfl
    exact fun m c hc => halphabet c (Decimal.mem_decimalAlphabet_of_mem_digits c hc)
  cases n with
  | ofNat n => exact (Decimal.toList_text n).symm ▸ hdigits n
  | negSucc n =>
      rw [Decimal.toList_intText_negSucc]
      exact List.forall_mem_cons.2 ⟨rfl, hdigits (n + 1)⟩

theorem cuts_intText
    {n : Int}
    (hlow : -2 ^ 63 ≤ n)
    (hhigh : n < 2 ^ 64) :
    Cuts (Decimal.intText n).toList [.atom (integer n)] := by
  have hparts := NumberParts.ofChars?_intText n
  have hne : (Decimal.intText n).toList ≠ [] := by
    intro hnil
    rw [hnil] at hparts
    cases hparts
  refine cuts_word hne (continuesWord_of_mem_intText n) ?_
  rw [Lexeme.ofWord?_of_ofChars? hparts, NumberParts.document?_intText hlow hhigh]
  rfl

end Numbers

section Containers

variable {cs cs' : List Char}
variable {ls ls' : List Lexeme}
variable {l l' : Lexeme}

theorem endsWord_gap_mark
    {gap : List Char}
    {mark : Char}
    (hgap : ∀ c ∈ gap, isGap c = true)
    (hmark : Lexeme.ofMark? mark = some l)
    (rest : List Char) :
    EndsWord (gap ++ mark :: rest) := by
  right
  cases gap with
  | nil => exact ⟨mark, rest, rfl, .inr (by rw [hmark]; rfl)⟩
  | cons c gap => exact ⟨c, gap ++ mark :: rest, rfl, .inl (hgap c List.mem_cons_self)⟩

theorem Cuts.after_gap
    {gap : List Char}
    (hgap : ∀ c ∈ gap, isGap c = true)
    (h : Cuts cs ls) :
    Cuts (gap ++ cs) ls := by
  intro done rest hrest
  rw [List.append_assoc, lexemesFrom?_gap hgap, h done rest hrest]

/-- A mark separates two texts. -/
theorem Cuts.separated
    {mark : Char}
    (h : Cuts cs ls)
    (hmark : Lexeme.ofMark? mark = some l)
    (h' : Cuts cs' ls') :
    Cuts (cs ++ mark :: cs') (ls ++ l :: ls') := by
  intro done rest hrest
  have hends : EndsWord (mark :: (cs' ++ rest)) :=
    endsWord_gap_mark (List.forall_mem_nil _) hmark _
  rw [List.append_assoc, List.cons_append, h done _ hends, lexemesFrom?_mark hmark,
    h' _ rest hrest]
  simp

/-- Two marks, the second perhaps on a line of its own, enclose a text. -/
theorem Cuts.enclosed
    {opening closing : Char}
    {gap : List Char}
    (hopening : Lexeme.ofMark? opening = some l)
    (h : Cuts cs ls)
    (hgap : ∀ c ∈ gap, isGap c = true)
    (hclosing : Lexeme.ofMark? closing = some l') :
    Cuts (opening :: (cs ++ gap ++ [closing])) (l :: (ls ++ [l'])) := by
  intro done rest hrest
  rw [List.cons_append, lexemesFrom?_mark hopening, List.append_assoc, List.append_assoc,
    List.singleton_append, h _ _ (endsWord_gap_mark hgap hclosing rest),
    lexemesFrom?_gap hgap, lexemesFrom?_mark hclosing]
  simp

theorem cuts_intercalate
    {texts : List (List Char)}
    {lss : List (List Lexeme)}
    (h : List.Forall₂ Cuts texts lss) :
    Cuts (List.intercalate [','] texts) (List.intercalate [.comma] lss) := by
  induction h with
  | nil => exact fun _ _ _ => rfl
  | @cons cs ls texts lss hfirst hlater ih =>
      cases hlater with
      | nil => simpa using hfirst
      | cons hsecond hlater =>
          rw [List.intercalate_cons_cons, List.intercalate_cons_cons, List.append_assoc,
            List.append_assoc, List.singleton_append, List.singleton_append]
          exact hfirst.separated rfl ih

theorem cuts_enclose
    {opening closing : String}
    {items : List String}
    {lss : List (List Lexeme)}
    (hopening : IsMark opening l)
    (hclosing : IsMark closing l')
    (h : List.Forall₂ (fun item ls => Cuts item.toList ls) items lss) :
    Cuts (enclose opening closing items).toList
      (l :: (List.intercalate [.comma] lss ++ [l'])) := by
  obtain ⟨first, hfirst, hopening⟩ := hopening
  obtain ⟨last, hlast, hclosing⟩ := hclosing
  have htexts : List.Forall₂ Cuts (items.map String.toList) lss :=
    List.forall₂_map_left_iff.2 h
  have htext :
      (enclose opening closing items).toList =
        first :: (List.intercalate [','] (items.map String.toList) ++ [] ++ [last]) := by
    simp [enclose, String.toList_intercalate, hfirst, hlast]
  rw [htext]
  exact (cuts_intercalate htexts).enclosed hopening (List.forall_mem_nil _) hclosing

theorem isGap_of_mem_indent
    (depth : Nat) :
    ∀ c ∈ (indent depth).toList, isGap c = true := by
  intro c hc
  have hmem : c = '\n' ∨ c = ' ' := by
    simp only [indent, String.toList_append, String.toList_ofList, List.mem_append,
      List.mem_replicate] at hc
    rcases hc with hc | ⟨-, hc⟩
    · exact .inl (List.mem_singleton.1 hc)
    · exact .inr hc
  rcases hmem with rfl | rfl <;> rfl

/-- Lines of their own change nothing for the lexemes of the items. -/
theorem cuts_encloseLines
    {opening closing : String}
    {items : List String}
    {lss : List (List Lexeme)}
    (hopening : IsMark opening l)
    (hclosing : IsMark closing l')
    (depth : Nat)
    (h : List.Forall₂ (fun item ls => Cuts item.toList ls) items lss) :
    Cuts (encloseLines opening closing depth items).toList
      (l :: (List.intercalate [.comma] lss ++ [l'])) := by
  cases h with
  | nil =>
      have htext : encloseLines opening closing depth [] = enclose opening closing [] := by
        simp [encloseLines, enclose]
      rw [htext]
      exact cuts_enclose hopening hclosing .nil
  | @cons item ls items lss hitem hitems =>
      obtain ⟨first, hfirst, hopening⟩ := hopening
      obtain ⟨last, hlast, hclosing⟩ := hclosing
      let line (item : String) : List Char := (indent (depth + 1)).toList ++ item.toList
      have hlines : List.Forall₂ Cuts ((item :: items).map line) (ls :: lss) :=
        List.forall₂_map_left_iff.2
          (.imp (fun _ _ hcuts => hcuts.after_gap (isGap_of_mem_indent _))
            (.cons hitem hitems))
      have hmap :
          ((item :: items).map (indent (depth + 1) ++ ·)).map String.toList =
            (item :: items).map line := by
        simp [line]
      have htext :
          (encloseLines opening closing depth (item :: items)).toList =
            first :: (List.intercalate [','] ((item :: items).map line) ++
              (indent depth).toList ++ [last]) := by
        rw [← hmap, encloseLines, if_neg (by simp)]
        simp only [String.toList_append, String.toList_intercalate, hfirst, hlast]
        simp
      rw [htext]
      exact (cuts_intercalate hlines).enclosed hopening (isGap_of_mem_indent depth) hclosing

end Containers

section Printed

variable {items : List Document}
variable {members : List (String × Document)}

theorem cuts_null :
    Cuts "null".toList [.atom null] :=
  cuts_word (List.cons_ne_nil _ _) (List.all_eq_true.1 rfl) rfl

theorem cuts_bool
    (b : Bool) :
    Cuts (bool b).compact.toList [.atom (bool b)] := by
  cases b with
  | false => exact cuts_word (List.cons_ne_nil _ _) (List.all_eq_true.1 rfl) rfl
  | true => exact cuts_word (List.cons_ne_nil _ _) (List.all_eq_true.1 rfl) rfl

/-- A member is its name, a colon, perhaps with blanks behind it, and its value. -/
theorem cuts_member
    {colon value : String}
    {gap : List Char}
    {ls : List Lexeme}
    (name : String)
    (hcolon : colon.toList = ':' :: gap)
    (hgap : ∀ c ∈ gap, isGap c = true)
    (h : Cuts value.toList ls) :
    Cuts (textLiteral name ++ colon ++ value).toList (.quoted name :: .colon :: ls) := by
  have htext :
      (textLiteral name ++ colon ++ value).toList =
        (textLiteral name).toList ++ ':' :: (gap ++ value.toList) := by
    simp [hcolon]
  rw [htext]
  exact (cuts_textLiteral name).separated rfl (h.after_gap hgap)

/-- Both forms write the items of a list one by one. -/
theorem forall₂_items
    {write : Document → String}
    {writeItems : List Document → List String}
    (hnil : writeItems [] = [])
    (hcons : ∀ d ds, writeItems (d :: ds) = write d :: writeItems ds)
    (h : ∀ d ∈ items, Cuts (write d).toList d.lexemes) :
    List.Forall₂ (fun item ls => Cuts item.toList ls) (writeItems items)
      (itemLexemes items) := by
  induction items with
  | nil =>
      rw [hnil]
      exact .nil
  | cons d items ih =>
      obtain ⟨hd, hlater⟩ := List.forall_mem_cons.1 h
      rw [hcons]
      exact .cons hd (ih hlater)

/-- Both forms write the members of an object one by one, with their own kind of colon. -/
theorem forall₂_members
    {write : Document → String}
    {writeMembers : List (String × Document) → List String}
    {colon : String}
    {gap : List Char}
    (hcolon : colon.toList = ':' :: gap)
    (hgap : ∀ c ∈ gap, isGap c = true)
    (hnil : writeMembers [] = [])
    (hcons : ∀ name value ms,
      writeMembers ((name, value) :: ms) =
        (textLiteral name ++ colon ++ write value) :: writeMembers ms)
    (h : ∀ m ∈ members, Cuts (write m.2).toList m.2.lexemes) :
    List.Forall₂ (fun item ls => Cuts item.toList ls) (writeMembers members)
      (memberLexemes members) := by
  induction members with
  | nil =>
      rw [hnil]
      exact .nil
  | cons m members ih =>
      obtain ⟨hm, hlater⟩ := List.forall_mem_cons.1 h
      rw [hcons m.1 m.2]
      exact .cons (cuts_member m.1 hcolon hgap hm) (ih hlater)

theorem isMark_brackets :
    IsMark "[" .openList ∧ IsMark "]" .closeList ∧
      IsMark "\x7b" .openObject ∧ IsMark "\x7d" .closeObject :=
  ⟨⟨_, rfl, rfl⟩, ⟨_, rfl, rfl⟩, ⟨_, rfl, rfl⟩, ⟨_, rfl, rfl⟩⟩

/-- The compact form of a plain document is cut into the lexemes of the document. -/
theorem Plain.cuts_compact
    {d : Document}
    (h : Plain d) :
    Cuts d.compact.toList d.lexemes := by
  obtain ⟨hopenList, hcloseList, hopenObject, hcloseObject⟩ := isMark_brackets
  induction h with
  | null => exact cuts_null
  | bool b => exact cuts_bool b
  | integer hlow hhigh => exact cuts_intText hlow hhigh
  | text s => exact cuts_textLiteral s
  | list _ ih =>
      exact cuts_enclose hopenList hcloseList (forall₂_items rfl (fun _ _ => rfl) ih)
  | object _ _ ih =>
      exact
        cuts_enclose hopenObject hcloseObject
          (forall₂_members rfl (List.forall_mem_nil _) rfl (fun _ _ _ => rfl) ih)

/-- The spread form of a plain document is cut into the same lexemes. -/
theorem Plain.cuts_spread
    {d : Document}
    (h : Plain d)
    (depth : Nat) :
    Cuts (d.spread depth).toList d.lexemes := by
  obtain ⟨hopenList, hcloseList, hopenObject, hcloseObject⟩ := isMark_brackets
  induction h generalizing depth with
  | null => exact cuts_null
  | bool b =>
      have hsame : (Document.bool b).spread depth = (Document.bool b).compact := by
        cases b <;> rfl
      rw [hsame]
      exact cuts_bool b
  | integer hlow hhigh => exact cuts_intText hlow hhigh
  | text s => exact cuts_textLiteral s
  | list _ ih =>
      exact
        cuts_encloseLines hopenList hcloseList depth
          (forall₂_items rfl (fun _ _ => rfl) fun d hd => ih d hd (depth + 1))
  | object _ _ ih =>
      exact
        cuts_encloseLines hopenObject hcloseObject depth
          (forall₂_members rfl (List.all_eq_true.1 rfl) rfl (fun _ _ _ => rfl)
            fun m hm => ih m hm (depth + 1))

end Printed

end Document
end LedgerEntity
