import LedgerEntity.Document.Basic

/-!
# Printing documents

JSON text of a document, in one line without blanks or spread over indented
lines.

Inside a text only the quote, the backslash and the control characters below
U+0020 are escaped; the five with a letter use it and the others their code
point in four digits.  In the spread form every item stands on a line of its
own, two blanks deeper than its container, and empty containers stay closed.
-/

namespace LedgerEntity
namespace Document

/-- The written form of one character of a text. -/
def escapeChar
    (c : Char) :
    List Char :=
  if c = '"' then ['\\', '"']
  else if c = '\\' then ['\\', '\\']
  else if c = '\x08' then ['\\', 'b']
  else if c = '\t' then ['\\', 't']
  else if c = '\n' then ['\\', 'n']
  else if c = '\x0c' then ['\\', 'f']
  else if c = '\r' then ['\\', 'r']
  else if c.toNat < 0x20 then
    "\\u00".toList ++ Hexadecimal.ofByte (UInt8.ofNat c.toNat)
  else [c]

/-- A text between double quotes. -/
def textLiteral
    (s : String) :
    String :=
  "\"" ++ String.ofList (s.toList.flatMap escapeChar) ++ "\""

/-- Items between brackets, with commas. -/
def enclose
    (opening closing : String)
    (items : List String) :
    String :=
  opening ++ String.intercalate "," items ++ closing

mutual

/-- The JSON text of a document in one line. -/
def compact : Document → String
  | null => "null"
  | bool true => "true"
  | bool false => "false"
  | integer n => Decimal.intText n
  | float x => ShortestFloat.text x
  | text s => textLiteral s
  | list items => enclose "[" "]" (compactItems items)
  | object members => enclose "\x7b" "\x7d" (compactMembers members)

/-- The JSON texts of the items of a list. -/
def compactItems : List Document → List String
  | [] => []
  | item :: items => item.compact :: compactItems items

/-- The JSON texts of the members of an object. -/
def compactMembers : List (String × Document) → List String
  | [] => []
  | (name, value) :: members =>
      (textLiteral name ++ ":" ++ value.compact) :: compactMembers members

end

/-- The start of a line at a depth. -/
def indent
    (depth : Nat) :
    String :=
  "\n" ++ String.ofList (List.replicate (2 * depth) ' ')

/-- Items on lines of their own between brackets; without items only the brackets. -/
def encloseLines
    (opening closing : String)
    (depth : Nat)
    (items : List String) :
    String :=
  if items.isEmpty then
    opening ++ closing
  else
    opening
      ++ String.intercalate "," (items.map (indent (depth + 1) ++ ·))
      ++ indent depth ++ closing

mutual

/-- The JSON text of a document over several lines, inside containers of that depth. -/
def spread
    (depth : Nat) :
    Document → String
  | null => "null"
  | bool true => "true"
  | bool false => "false"
  | integer n => Decimal.intText n
  | float x => ShortestFloat.text x
  | text s => textLiteral s
  | list items => encloseLines "[" "]" depth (spreadItems (depth + 1) items)
  | object members =>
      encloseLines "\x7b" "\x7d" depth (spreadMembers (depth + 1) members)

/-- The texts of the items of a list, each at that depth. -/
def spreadItems
    (depth : Nat) :
    List Document → List String
  | [] => []
  | item :: items => item.spread depth :: spreadItems depth items

/-- The texts of the members of an object, each at that depth. -/
def spreadMembers
    (depth : Nat) :
    List (String × Document) → List String
  | [] => []
  | (name, value) :: members =>
      (textLiteral name ++ ": " ++ value.spread depth)
        :: spreadMembers depth members

end

/-- The JSON text of a document over several lines. -/
def pretty
    (d : Document) :
    String :=
  d.spread 0

end Document
end LedgerEntity
