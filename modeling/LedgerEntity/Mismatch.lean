import LedgerEntity.Document.Basic
import LedgerEntity.IdError

/-!
# Mismatches

Why a document does not denote the value that a reader expects, and the wording
of it.
-/

namespace LedgerEntity

/--
Why a document does not denote the expected value: it is of another kind, it is of that
kind but not this value of it, it is a list with too many items, it is not one of the
expected names, or its text or number denotes no entity ID.
-/
inductive Mismatch where
  | invalidType (found : Document.Found) (expected : String)
  | invalidValue (found : Document.Found) (expected : String)
  | invalidLength (length : Nat) (expected : String)
  | unknownVariant (name : String) (expected : List String)
  | invalidId (error : IdError)

namespace Mismatch

/-- A name between backquotes. -/
def backquoted
    (s : String) :
    String :=
  "`" ++ s ++ "`"

/-- The wording of a mismatch. -/
def message : Mismatch → String
  | invalidType found expected =>
      "invalid type: " ++ found.words ++ ", expected " ++ expected
  | invalidValue found expected =>
      "invalid value: " ++ found.words ++ ", expected " ++ expected
  | invalidLength n expected =>
      "invalid length " ++ Decimal.text n ++ ", expected " ++ expected
  | unknownVariant name expected =>
      "unknown variant " ++ backquoted name ++ ", expected one of "
        ++ String.intercalate ", " (expected.map backquoted)
  | invalidId error => error.message

end Mismatch
end LedgerEntity
