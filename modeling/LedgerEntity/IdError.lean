import LedgerEntity.Fields

/-!
# Errors about IDs

Why a value was not accepted as an entity ID, and the wording of it.

An error remembers the raw text and the name of the request parameter that
held it.  The wording names the parameter when it is known, even if the name is
empty, and quotes the raw text unchanged otherwise.
-/

namespace LedgerEntity

/--
Why a value was not accepted: none was given where one is required, it has none of the
accepted shapes, or a field of it is too large.
-/
inductive IdError where
  | nullNotAllowed (parameter : Option String)
  | malformed (input : String) (parameter : Option String)
  | outOfRange (input : String) (parameter : Option String)
  deriving DecidableEq, Repr

namespace IdError

/-- The parameter that held the value, if it is known. -/
def parameter? : IdError → Option String
  | nullNotAllowed p => p
  | malformed _ p => p
  | outOfRange _ p => p

/-- The raw text; it is empty when no value was given. -/
def input : IdError → String
  | nullNotAllowed _ => ""
  | malformed s _ => s
  | outOfRange s _ => s

/-- Whether no value was given. -/
def isNull : IdError → Bool
  | nullNotAllowed _ => true
  | _ => false

/-- Whether a field was too large. -/
def isOutOfRange : IdError → Bool
  | outOfRange _ _ => true
  | _ => false

/-- The wording for a value that was given. -/
def invalidMessage
    (input : String) :
    Option String → String
  | some name => "Invalid parameter: " ++ name
  | none => "Invalid entity ID \"" ++ input ++ "\""

/-- The wording of an error. -/
def message : IdError → String
  | nullNotAllowed _ => "Null entity ID"
  | malformed s p => invalidMessage s p
  | outOfRange s p => invalidMessage s p

end IdError

/-- The error for a rejected raw text in a parameter. -/
def Rejection.toError
    (input : String)
    (parameter : Option String) :
    Rejection → IdError
  | malformed => .malformed input parameter
  | outOfRange => .outOfRange input parameter

end LedgerEntity
