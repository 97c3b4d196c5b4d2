import LedgerEntity.Text.GraphemeExtend
import LedgerEntity.Text.Hexadecimal
import LedgerEntity.Text.Unprintable

/-!
# Quoted text

A text in double quotes, with escapes for what would not be legible between
them.

A backslash stands before a quote, a backslash, and the letters of NUL, tab,
line feed and carriage return.  Any other unprintable character, and any mark
that merges with the character before it, is written by its code point in
braces.  All other characters stand for themselves, the apostrophe included.
-/

namespace LedgerEntity
namespace Quoted

/-- A character written by its code point, in lower-case digits. -/
def codePoint
    (c : Char) :
    List Char :=
  "\\u\x7b".toList ++ Hexadecimal.digits c.toNat ++ "\x7d".toList

/-- The half-width sound marks of katakana, extenders that take a place of their own. -/
def spacingMarks : List Char :=
  ['\uff9e', '\uff9f']

/-- A mark that merges with the character before it. -/
def isMerging
    (c : Char) :
    Bool :=
  GraphemeExtend.isExtender c && !spacingMarks.contains c

/-- The written form of one character. -/
def escape
    (c : Char) :
    List Char :=
  if c = '\x00' then ['\\', '0']
  else if c = '\t' then ['\\', 't']
  else if c = '\r' then ['\\', 'r']
  else if c = '\n' then ['\\', 'n']
  else if c = '\\' then ['\\', '\\']
  else if c = '"' then ['\\', '"']
  else if isMerging c || Unprintable.isUnprintable c then
    codePoint c
  else [c]

/-- A text in double quotes. -/
def quote
    (s : String) :
    String :=
  "\"" ++ String.ofList (s.toList.flatMap escape) ++ "\""

/-- Quotes and backslashes are escaped, apostrophes are not. -/
example : quote "it's \"a\\b\"" = "\"it's \\\"a\\\\b\\\"\"" := by
  decide +kernel

/-- A zero-width space is written by its code point. -/
example : quote "\u200b" = "\"\\u\x7b200b\x7d\"" := by
  decide +kernel

/-- A combining accent is written by its code point, a half-width sound mark is not. -/
example : quote "\u0301\uff9e" = "\"\\u\x7b301\x7d\uff9e\"" := by
  decide +kernel

/-- A filler of Hangul syllables is written by its code point. -/
example : quote "\u3164" = "\"\\u\x7b3164\x7d\"" := by
  decide +kernel

end Quoted
end LedgerEntity
