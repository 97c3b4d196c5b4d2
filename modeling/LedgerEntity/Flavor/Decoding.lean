import LedgerEntity.Mismatch

/-!
# Flavors in documents

A flavor is written as its name.  It is read from its name, or from an object
whose only member has that name and the absent value.
-/

namespace LedgerEntity
namespace Flavor

/-- The document of a flavor. -/
def document
    (f : Flavor) :
    Document :=
  .text f.name

/-- The flavor of a name in a document. -/
def ofVariant
    (s : String) :
    Except Mismatch Flavor :=
  match ofName? s with
  | some f => .ok f
  | none => .error (.unknownVariant s (all.map name))

/-- Read a flavor from a document. -/
def ofDocument : Document → Except Mismatch Flavor
  | .text s => ofVariant s
  | .object [(s, content)] =>
      match ofVariant s, content with
      | .error e, _ => .error e
      | .ok f, .null => .ok f
      | .ok _, other => .error (.invalidType other.found "unit")
  | .object _ => .error (.invalidValue .object "map with a single key")
  | other => .error (.invalidType other.found "string or map")

/-- A flavor is read back from its document. -/
@[simp] theorem ofDocument_document
    (f : Flavor) :
    ofDocument f.document = .ok f := by
  simp [document, ofDocument, ofVariant]

end Flavor
end LedgerEntity
