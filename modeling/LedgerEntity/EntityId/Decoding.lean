import LedgerEntity.Decode
import LedgerEntity.Mismatch

/-!
# Entity IDs in documents

An ID is written as its text, or as the absent value if it is null.  It is read
from a text, from a whole number by way of its decimal text, or from the absent
value; every other kind is a mismatch.

Readers of other data formats offer their values one by one.  Such an offer is
an `Offered` value, and an ID is read from it by the same rules.  Whole numbers
are offered as words of 64 bits, with or without a sign, and in no other width.
-/

namespace LedgerEntity
namespace EntityId

/-- The document of an ID. -/
def document : EntityId → Document
  | null => .null
  | present p => .text p.text

/-- The documents of a list of IDs. -/
def listDocument
    (ids : List EntityId) :
    Document :=
  .list (ids.map document)

/-- What a reader of an ID expects. -/
def expectation : String :=
  "an entity ID string, a packed entity ID, or null"

/-- The ID of a text inside a document. -/
def ofTextValue
    (raw : String) :
    Except Mismatch EntityId :=
  match ofText raw with
  | .ok id => .ok id
  | .error e => .error (.invalidId e)

/-- Read an ID from a document. -/
def ofDocument : Document → Except Mismatch EntityId
  | .null => .ok null
  | .text s => ofTextValue s
  | .integer n => ofTextValue (Decimal.intText n)
  | other => .error (.invalidType other.found expectation)

/-- Read an optional ID from a document: the absent value is no ID at all. -/
def ofDocument? : Document → Except Mismatch (Option EntityId)
  | .null => .ok none
  | other => (ofDocument other).map some

/-- Read a list of IDs from a document; the first unreadable item is reported. -/
def listOfDocument : Document → Except Mismatch (List EntityId)
  | .list items => items.mapM ofDocument
  | other => .error (.invalidType other.found "a sequence")

/-- A value that a reader of some data format offers. -/
inductive Offered where
  | text (s : String)
  | character (c : Char)
  | bytes
  | unsigned (n : UInt64)
  | signed (n : Int64)
  | bool (b : Bool)
  | none
  | unit
  | some (inner : Offered)
  | wrapped (inner : Offered)

/-- A whole number as it is offered: with a sign only if it is below zero. -/
def Offered.integer
    (n : Int) :
    Offered :=
  if n < 0 then .signed (Int64.ofInt n) else .unsigned (UInt64.ofNat n.toNat)

/-- Read an ID from an offered value; a character counts as a text of length one. -/
def ofOffered : Offered → Except Mismatch EntityId
  | .text s => ofTextValue s
  | .character c => ofTextValue (String.singleton c)
  | .unsigned n => ofTextValue (Decimal.text n.toNat)
  | .signed n => ofTextValue (Decimal.intText n.toInt)
  | .none => .ok null
  | .unit => .ok null
  | .some inner => ofOffered inner
  | .bytes => .error (.invalidType .bytes expectation)
  | .bool b => .error (.invalidType (.bool b) expectation)
  | .wrapped _ => .error (.invalidType .wrapped expectation)

end EntityId
end LedgerEntity
