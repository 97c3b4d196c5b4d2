import LedgerEntity.Document.Number

/-!
# Reading documents

The document that a JSON text denotes.

The text is cut into lexemes by one pass over its characters, and the lexemes
are put together by one pass over them with the open containers on a stack.
Both passes are folds of a step function that may refuse.  A name that occurs
twice in an object keeps its last value.
-/

namespace LedgerEntity
namespace Document

/-- The smallest parts of a JSON text; an atom is a number or one of the three words. -/
inductive Lexeme where
  | openList
  | closeList
  | openObject
  | closeObject
  | comma
  | colon
  | quoted (s : String)
  | atom (d : Document)

/--
Where the first pass stands between two characters, with the characters taken so far,
last first.

A code point comes with a high surrogate before it, the digits so far and their value.
After a high surrogate a backslash must follow, and after that the letter of a code
point.
-/
inductive Scan where
  | between
  | word (taken : List Char)
  | quoted (taken : List Char)
  | escaped (taken : List Char)
  | codePoint (taken : List Char) (high : Option Nat) (count value : Nat)
  | awaitLow (taken : List Char) (high : Nat)
  | awaitLetter (taken : List Char) (high : Nat)

/-- The lexeme of a number or a word. -/
def Lexeme.ofWord?
    (cs : List Char) :
    Option Lexeme :=
  if cs = "null".toList then some (.atom null)
  else if cs = "true".toList then some (.atom (bool true))
  else if cs = "false".toList then some (.atom (bool false))
  else ((NumberParts.ofChars? cs).bind NumberParts.document?).map .atom

/-- The lexeme of a character that is one by itself. -/
def Lexeme.ofMark? : Char → Option Lexeme
  | '[' => some .openList
  | ']' => some .closeList
  | '\x7b' => some .openObject
  | '\x7d' => some .closeObject
  | ',' => some .comma
  | ':' => some .colon
  | _ => none

/-- A blank of JSON text. -/
def isGap
    (c : Char) :
    Bool :=
  c = ' ' || c = '\t' || c = '\n' || c = '\r'

namespace Scan

/-- A code point of four digits is a character, or half of a surrogate pair. -/
def complete
    (taken : List Char)
    (high : Option Nat)
    (value : Nat) :
    Option Scan :=
  let isHigh := decide (0xd800 ≤ value) && decide (value ≤ 0xdbff)
  let isLow := decide (0xdc00 ≤ value) && decide (value ≤ 0xdfff)
  match high with
  | none =>
      if isHigh then some (.awaitLow taken value)
      else if isLow then none
      else some (.quoted (Char.ofNat value :: taken))
  | some h =>
      if isLow then
        let point := 0x10000 + (h - 0xd800) * 0x400 + (value - 0xdc00)
        some (.quoted (Char.ofNat point :: taken))
      else none

/-- The character that a letter after a backslash stands for. -/
def letter? : Char → Option Char
  | '"' => some '"'
  | '\\' => some '\\'
  | '/' => some '/'
  | 'b' => some '\x08'
  | 'f' => some '\x0c'
  | 'n' => some '\n'
  | 'r' => some '\r'
  | 't' => some '\t'
  | _ => none

/-- One character between two lexemes. -/
def start
    (done : List Lexeme)
    (c : Char) :
    Option (Scan × List Lexeme) :=
  if isGap c then some (.between, done)
  else if c = '"' then some (.quoted [], done)
  else
    match Lexeme.ofMark? c with
    | some mark => some (.between, mark :: done)
    | none => some (.word [c], done)

/-- One character of the first pass; the lexemes so far stand last first. -/
def step :
    Scan × List Lexeme → Char → Option (Scan × List Lexeme)
  | (.between, done), c => start done c
  | (.word taken, done), c =>
      if isGap c || c = '"' || (Lexeme.ofMark? c).isSome then
        (Lexeme.ofWord? taken.reverse).bind fun w => start (w :: done) c
      else
        some (.word (c :: taken), done)
  | (.quoted taken, done), c =>
      if c = '"' then
        some (.between, .quoted (String.ofList taken.reverse) :: done)
      else if c = '\\' then some (.escaped taken, done)
      else if c.toNat < 0x20 then none
      else some (.quoted (c :: taken), done)
  | (.escaped taken, done), c =>
      if c = 'u' then some (.codePoint taken none 0 0, done)
      else (letter? c).map fun x => (.quoted (x :: taken), done)
  | (.codePoint taken high count value, done), c =>
      if Hexadecimal.isDigit c then
        let longer := 16 * value + Hexadecimal.digitValue c
        if count = 3 then
          (complete taken high longer).map fun scan => (scan, done)
        else
          some (.codePoint taken high (count + 1) longer, done)
      else none
  | (.awaitLow taken high, done), c =>
      if c = '\\' then some (.awaitLetter taken high, done) else none
  | (.awaitLetter taken high, done), c =>
      if c = 'u' then some (.codePoint taken (some high) 0 0, done) else none

/-- The lexemes of a text, unless it ends inside a quoted text. -/
def finish? : Scan × List Lexeme → Option (List Lexeme)
  | (.between, done) => some done.reverse
  | (.word taken, done) =>
      (Lexeme.ofWord? taken.reverse).map fun w => (w :: done).reverse
  | _ => none

end Scan

/-- Cut a text into lexemes. -/
def lexemes?
    (cs : List Char) :
    Option (List Lexeme) :=
  (cs.foldlM Scan.step (.between, [])).bind Scan.finish?

/--
A container that is not closed yet; what it holds stands last first.  An object keeps the
name whose value comes next.
-/
inductive Frame where
  | list (items : List Document)
  | object (members : List (String × Document)) (name : String)

/--
What the second pass waits for.  Instead of the first item or name the container may end,
and a separator is a comma or the end of the innermost container.
-/
inductive Awaited where
  | value
  | firstItem
  | firstName
  | name (members : List (String × Document))
  | colon (members : List (String × Document)) (name : String)
  | separator (value : Document)

/--
The second pass between two lexemes: what must come next, and the open containers,
innermost first.
-/
structure Assembly where
  awaited : Awaited
  stack : List Frame

namespace Assembly

/-- Put a member in; a name that is there already takes the new value. -/
def putMember
    (members : List (String × Document))
    (name : String)
    (value : Document) :
    List (String × Document) :=
  if members.any (·.1 == name) then
    members.map fun m => if m.1 = name then (name, value) else m
  else
    (name, value) :: members

/-- One lexeme where a value may start. -/
def startValue
    (stack : List Frame) :
    Lexeme → Option Assembly
  | .openList => some ⟨.firstItem, .list [] :: stack⟩
  | .openObject => some ⟨.firstName, stack⟩
  | .quoted s => some ⟨.separator (text s), stack⟩
  | .atom d => some ⟨.separator d, stack⟩
  | _ => none

/-- One lexeme after a finished value. -/
def afterValue
    (value : Document) :
    List Frame → Lexeme → Option Assembly
  | .list items :: stack, .comma =>
      some ⟨.value, .list (value :: items) :: stack⟩
  | .list items :: stack, .closeList =>
      some ⟨.separator (list (value :: items).reverse), stack⟩
  | .object members name :: stack, .comma =>
      some ⟨.name (putMember members name value), stack⟩
  | .object members name :: stack, .closeObject =>
      some ⟨.separator (object (putMember members name value).reverse), stack⟩
  | _, _ => none

/-- One lexeme of the second pass. -/
def step
    (a : Assembly)
    (lexeme : Lexeme) :
    Option Assembly :=
  match a.awaited, lexeme with
  | .value, l => startValue a.stack l
  | .firstItem, .closeList =>
      match a.stack with
      | .list items :: stack => some ⟨.separator (list items.reverse), stack⟩
      | _ => none
  | .firstItem, l => startValue a.stack l
  | .firstName, .closeObject => some ⟨.separator (object []), a.stack⟩
  | .firstName, .quoted s => some ⟨.colon [] s, a.stack⟩
  | .name members, .quoted s => some ⟨.colon members s, a.stack⟩
  | .colon members s, .colon => some ⟨.value, .object members s :: a.stack⟩
  | .separator v, l => afterValue v a.stack l
  | _, _ => none

/-- The document, once every container is closed. -/
def finish? : Assembly → Option Document
  | ⟨.separator v, []⟩ => some v
  | _ => none

end Assembly

/-- The document that a JSON text denotes. -/
def read?
    (s : String) :
    Option Document :=
  (lexemes? s.toList).bind fun ls =>
    (ls.foldlM Assembly.step ⟨.value, []⟩).bind Assembly.finish?

end Document
end LedgerEntity
