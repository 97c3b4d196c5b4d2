import LedgerEntity.Codec.Basic
import LedgerEntity.EntityId.Decoding

/-!
# Typed IDs

An entity ID that is known to belong to an entity of a certain kind.

All kinds share one space of IDs.  The kind is part of the type, so an account
cannot stand where a token is expected; reading and writing are those of the
plain ID.
-/

namespace LedgerEntity

/-- The kinds of entities in the ledger. -/
inductive EntityKind where
  | account
  | contract
  | file
  | schedule
  | token
  | topic
  deriving DecidableEq, Repr

namespace EntityKind

/-- All kinds. -/
def all : List EntityKind :=
  [account, contract, file, schedule, token, topic]

/-- The name of a kind. -/
def name : EntityKind → String
  | account => "account"
  | contract => "contract"
  | file => "file"
  | schedule => "schedule"
  | token => "token"
  | topic => "topic"

/-- The kind of a name. -/
def ofName?
    (s : String) :
    Option EntityKind :=
  all.find? fun k => k.name == s

/-- A kind is found by its own name. -/
@[simp] theorem ofName?_name
    (k : EntityKind) :
    ofName? k.name = some k := by
  cases k <;> decide

end EntityKind

/-- The ID of an entity of one kind. -/
structure TypedId (kind : EntityKind) where
  entityId : EntityId
  deriving DecidableEq, Repr

namespace TypedId

variable {kind : EntityKind}

/-- Without further word a typed ID is null. -/
instance : Inhabited (TypedId kind) :=
  ⟨⟨default⟩⟩

/-- The typed ID with given fields. -/
def of
    (shard realm num : Nat) :
    Except IdError (TypedId kind) :=
  (EntityId.of shard realm num).map mk

/-- The typed ID of a text. -/
def ofText
    (raw : String) :
    Except IdError (TypedId kind) :=
  (EntityId.ofText raw).map mk

/-- Read a typed ID through a codec. -/
def parse
    (codec : Codec)
    (raw : Option String)
    (options : ParseOptions)
    (now : Int) :
    Codec.Answer (Except IdError (TypedId kind)) :=
  let answer := codec.parse raw options now
  ⟨answer.value.map mk, answer.codec, answer.events⟩

/-- Read a typed ID from a document. -/
def ofDocument
    (d : Document) :
    Except Mismatch (TypedId kind) :=
  (EntityId.ofDocument d).map mk

/-- The text of a typed ID. -/
def text
    (t : TypedId kind) :
    String :=
  t.entityId.text

/-- The document of a typed ID. -/
def document
    (t : TypedId kind) :
    Document :=
  t.entityId.document

end TypedId
end LedgerEntity
