import LedgerEntity.Text.Decimal
import LedgerEntity.Text.Quoted
import LedgerEntity.Text.ShortestFloat

/-!
# Documents

Structured values as JSON text holds them, and the words that name them in
error texts.

Whole numbers and floating-point numbers are two kinds: `1000` is an integer
and `1000.0` is not.  The members of an object keep the order in which they
were written.
-/

namespace LedgerEntity

/-- A structured value; the members of an object are in order. -/
inductive Document where
  | null
  | bool (b : Bool)
  | integer (n : Int)
  | float (x : Float)
  | text (s : String)
  | list (items : List Document)
  | object (members : List (String × Document))
  deriving Inhabited

namespace Document

/-- The value of a member of an object. -/
def member?
    (name : String) :
    List (String × Document) → Option Document
  | [] => none
  | (key, value) :: others =>
      if key = name then
        some value
      else
        member? name others

/-- The value of a field; a value that is no object has no fields. -/
def field?
    (name : String) :
    Document → Option Document
  | object members => member? name members
  | _ => none

/-- A text, or the absent value. -/
def ofText? : Option String → Document
  | none => null
  | some s => text s

/-- A whole number, or the absent value. -/
def ofNat? : Option Nat → Document
  | none => null
  | some n => integer n

/--
What a reader found where it expected something else; `wrapped` is a value in a named
type.
-/
inductive Found where
  | bool (b : Bool)
  | integer (n : Int)
  | float (x : Float)
  | text (s : String)
  | null
  | list
  | object
  | bytes
  | wrapped

/-- The words for what was found. -/
def Found.words : Found → String
  | .bool true => "boolean `true`"
  | .bool false => "boolean `false`"
  | .integer n => "integer `" ++ Decimal.intText n ++ "`"
  | .float x => "floating point `" ++ ShortestFloat.text x ++ "`"
  | .text s => "string " ++ Quoted.quote s
  | .null => "null"
  | .list => "sequence"
  | .object => "map"
  | .bytes => "byte array"
  | .wrapped => "newtype struct"

/-- What a reader finds when it meets a document. -/
def found : Document → Found
  | null => .null
  | bool b => .bool b
  | integer n => .integer n
  | float x => .float x
  | text s => .text s
  | list _ => .list
  | object _ => .object

end Document
end LedgerEntity
