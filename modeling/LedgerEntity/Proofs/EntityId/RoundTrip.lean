import LedgerEntity.Proofs.Codec.DottedInput
import LedgerEntity.Proofs.Codec.IntegerInput
import LedgerEntity.Proofs.Document.ReadBack
import LedgerEntity.TypedId

/-!
# IDs in documents, there and back

What is written for an ID is read as the same ID, alone, in a list, and under each
kind of entity.

A place is written as its canonical text, which denotes the place, and the null ID
as the absent value.  Texts in documents denote what a codec without a cache reads
in shard zero.  They never denote the null ID, so nothing but the absent value is
read as it, and only the null ID is written as it.  Hence every accepted spelling
of an ID is turned into the canonical text by reading and writing once, and stays
as it is from then on.
-/

namespace LedgerEntity
namespace EntityId

/-- What a writer of another data format hands over for an ID. -/
def offered : EntityId → Offered
  | null => .none
  | present p => .text p.text

/-- Whether an offered value is absent, inside any number of optionals. -/
def Offered.isAbsent : Offered → Bool
  | .none => true
  | .unit => true
  | .some inner => inner.isAbsent
  | _ => false

section Reading

variable {id : EntityId}
variable {raw : String}

theorem ofDocument_document
    (id : EntityId) :
    ofDocument id.document = .ok id := by
  cases id with
  | null => rfl
  | present p => exact ofTextValue_eq_ok_iff.2 (Fields.decode_text_place _ _ p)

theorem ofOffered_offered
    (id : EntityId) :
    ofOffered id.offered = .ok id := by
  cases id with
  | null => rfl
  | present p => exact ofTextValue_eq_ok_iff.2 (Fields.decode_text_place _ _ p)

/-- A text denotes the ID of a place, which is written as the text of the place. -/
theorem exists_place_of_ofTextValue
    (h : ofTextValue raw = .ok id) :
    ∃ p : Place, id = .present p ∧ id.document = .text p.fields.text := by
  obtain ⟨p, rfl, -⟩ := decode_eq_ok_iff.1 (ofTextValue_eq_ok_iff.1 h)
  exact ⟨p, rfl, rfl⟩

theorem ofTextValue_ne_ok_null :
    ofTextValue raw ≠ .ok null := by
  intro h
  exact decode_ne_ok_null raw default 0 (ofTextValue_eq_ok_iff.1 h)

theorem document_eq_null_iff :
    id.document = .null ↔ id = null := by
  cases id with
  | null => exact iff_of_true rfl rfl
  | present p => simp [document]

/-- An offered value is read as the null ID exactly if it is absent. -/
theorem ofOffered_eq_ok_null_iff
    (o : Offered) :
    ofOffered o = .ok null ↔ o.isAbsent = true := by
  induction o with
  | text s => simpa [ofOffered, Offered.isAbsent] using ofTextValue_ne_ok_null
  | character c => simpa [ofOffered, Offered.isAbsent] using ofTextValue_ne_ok_null
  | unsigned n => simpa [ofOffered, Offered.isAbsent] using ofTextValue_ne_ok_null
  | signed n => simpa [ofOffered, Offered.isAbsent] using ofTextValue_ne_ok_null
  | none => simp [ofOffered, Offered.isAbsent]
  | unit => simp [ofOffered, Offered.isAbsent]
  | some inner ih => exact ih
  | bytes => simp [ofOffered, Offered.isAbsent]
  | bool b => simp [ofOffered, Offered.isAbsent]
  | wrapped inner => simp [ofOffered, Offered.isAbsent]

/-- A text is read from a document as a codec without a cache reads it in shard zero. -/
theorem ofTextValue_eq_ok_iff_parse
    (now : Int) :
    ofTextValue raw = .ok id ↔
      (Codec.parse ⟨0, none⟩ (some raw) {} now).value = .ok id := by
  have hvalue := Codec.value_parsePresent_withoutCache ⟨0, none⟩ raw {} now
  change (Codec.parse ⟨0, none⟩ (some raw) {} now).value = _ at hvalue
  rw [ofTextValue_eq_ok_iff, hvalue]
  cases decode raw default 0 with
  | ok id' => simp
  | error rejection => simp

end Reading

section Lists

/-- Items that are read back one by one are read back as a list. -/
theorem mapM_map_eq_ok
    {α β ε : Type}
    {write : α → β}
    {read : β → Except ε α}
    (h : ∀ a, read (write a) = .ok a)
    (items : List α) :
    (items.map write).mapM read = .ok items := by
  have hread : read ∘ write = fun a => pure a := funext h
  rw [List.mapM_map, hread, List.mapM_pure, List.map_id']
  rfl

theorem listOfDocument_listDocument
    (ids : List EntityId) :
    listOfDocument (listDocument ids) = .ok ids :=
  mapM_map_eq_ok ofDocument_document ids

theorem plain_document
    (id : EntityId) :
    Document.Plain id.document := by
  cases id with
  | null => exact .null
  | present p => exact .text p.text

theorem plain_listDocument
    (ids : List EntityId) :
    Document.Plain (listDocument ids) :=
  .list (List.forall_mem_map.2 fun id _ => id.plain_document)

end Lists

end EntityId

namespace TypedId

variable {kind : EntityKind}

theorem ofDocument_document
    (t : TypedId kind) :
    ofDocument t.document = .ok t := by
  rw [ofDocument, document, EntityId.ofDocument_document]
  rfl

/-- The documents of typed IDs are those of the plain IDs. -/
theorem list_map_document
    (ts : List (TypedId kind)) :
    Document.list (ts.map document) = EntityId.listDocument (ts.map entityId) := by
  rw [EntityId.listDocument, List.map_map]
  rfl

end TypedId

namespace EntityId

/--
Reading is the inverse of writing, and writing what was read from a text makes the
text canonical.

Every ID is read back from its document, from what a writer of another format
hands over, and from its JSON text; so is every list of IDs, in order, and so are
typed IDs of every kind.  A text in a document is accepted exactly if a codec
without a cache reads it in shard zero, with the same ID.  That ID is written as
the canonical text of its place, which is read and written as it is.  The null ID
is written as the absent value and no other ID is; it is read from absent values
and never from a text or a number.
-/
theorem writing_and_reading :
    (∀ id : EntityId,
      ofDocument id.document = .ok id ∧
      ofOffered id.offered = .ok id ∧
      (Document.read? id.document.compact).map ofDocument = some (.ok id))
      ∧
    (∀ ids : List EntityId,
      listOfDocument (listDocument ids) = .ok ids ∧
      (Document.read? (listDocument ids).compact).map listOfDocument = some (.ok ids))
      ∧
    (∀ (kind : EntityKind) (t : TypedId kind),
      TypedId.ofDocument t.document = .ok t ∧
      (Document.read? t.document.compact).map TypedId.ofDocument = some (.ok t))
      ∧
    (∀ (kind : EntityKind) (ts : List (TypedId kind)),
      (ts.map TypedId.document).mapM TypedId.ofDocument = .ok ts ∧
      Document.read? (Document.list (ts.map TypedId.document)).compact =
        some (.list (ts.map TypedId.document)))
      ∧
    (∀ raw : String,
      Document.read? (Document.text raw).compact = some (.text raw) ∧
      (∀ id now,
        ofDocument (.text raw) = .ok id ↔
          (Codec.parse ⟨0, none⟩ (some raw) {} now).value = .ok id) ∧
      ∀ id, ofDocument (.text raw) = .ok id →
        ∃ p : Place, id = .present p ∧
          id.document = .text p.fields.text ∧
          ∃ again, ofDocument (.text p.fields.text) = .ok again ∧
            again.document = .text p.fields.text)
      ∧
    (∀ id : EntityId, id.document = .null ↔ id = .null)
      ∧
    (∀ raw, ofDocument (.text raw) ≠ .ok .null)
      ∧
    (∀ n, ofDocument (.integer n) ≠ .ok .null)
      ∧
    (∀ o, ofOffered o = .ok .null ↔ o.isAbsent = true) := by
  refine
    ⟨?_, ?_, ?_, ?_, ?_, fun _ => document_eq_null_iff, fun _ => ofTextValue_ne_ok_null,
      fun _ => ofTextValue_ne_ok_null, ofOffered_eq_ok_null_iff⟩
  · intro id
    refine ⟨ofDocument_document id, ofOffered_offered id, ?_⟩
    rw [id.plain_document.read?_compact, Option.map_some, ofDocument_document]
  · intro ids
    refine ⟨listOfDocument_listDocument ids, ?_⟩
    rw [(plain_listDocument ids).read?_compact, Option.map_some, listOfDocument_listDocument]
  · intro kind t
    refine ⟨t.ofDocument_document, ?_⟩
    rw [TypedId.document, t.entityId.plain_document.read?_compact, Option.map_some]
    exact congrArg some t.ofDocument_document
  · intro kind ts
    refine ⟨mapM_map_eq_ok TypedId.ofDocument_document ts, ?_⟩
    rw [TypedId.list_map_document, (plain_listDocument _).read?_compact]
  · intro raw
    refine
      ⟨(Document.Plain.text raw).read?_compact, fun _ => ofTextValue_eq_ok_iff_parse, ?_⟩
    intro id h
    obtain ⟨p, rfl, hdocument⟩ := exists_place_of_ofTextValue h
    exact ⟨p, rfl, hdocument, .present p, ofDocument_document (.present p), hdocument⟩

/--
Short, packed and zero-padded forms and an address are written as one and the same
text.
-/
theorem writing_and_reading_spellings :
    let id : EntityId := .present ⟨0, 0, 1001, by decide⟩
    let spellings :=
      ["0.1001", "1001", "00.000.01001", "00000000000000000000000000000000000003e9"]
    (∀ raw ∈ spellings, ofDocument (.text raw) = .ok id) ∧
    (∀ raw ∈ spellings, ∃ p : Place, id = .present p ∧ id.document = .text p.fields.text) ∧
    id.document = .text "0.0.1001" ∧
    Document.read? (Document.text "\"\x01").compact = some (.text "\"\x01") := by
  intro id spellings
  have hid : ∀ raw ∈ spellings, ofDocument (.text raw) = .ok id := by
    simp only [spellings, List.forall_mem_cons, List.not_mem_nil, false_imp_iff,
      implies_true, and_true]
    exact ⟨rfl, rfl, rfl, rfl⟩
  obtain ⟨-, -, -, -, htexts, -⟩ := writing_and_reading
  refine ⟨hid, ?_, rfl, (htexts _).1⟩
  intro raw hraw
  obtain ⟨p, hp, hdocument, -⟩ := (htexts raw).2.2 id (hid raw hraw)
  exact ⟨p, hp, hdocument⟩

end EntityId
end LedgerEntity
