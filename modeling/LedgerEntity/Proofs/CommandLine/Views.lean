import LedgerEntity.CommandLine.Report
import LedgerEntity.Proofs.ContractReference.Grammar
import LedgerEntity.Proofs.Document.ReadBack
import LedgerEntity.Proofs.EntityId.PackedOrder
import LedgerEntity.Proofs.Text.TableLines

/-!
# Views

What a report shows for each of its rows.

The view of an ID has the input as it was given, and every representation of the
place: its fields, the canonical text, the number that the fields make, and the
address.  The null ID has none of them, and the place of zeros has no text.  The
view of a reference has its qualifiers and its target.  The cells of a table say
the same, without the fields of an ID and with the input of a reference.

A view is a plain document.  For references this needs that a value spells no
number beyond a word of 64 bits.  Hence a JSON report denotes the list of the views
again, and a table displays the cells row by row.
-/

namespace LedgerEntity

section Definitions

/-- An ID in every representation, with the text it was read from. -/
def EntityId.view
    (input : String) :
    EntityId → Document
  | null =>
      .object
        [ ("input", .text input), ("shard", .null), ("realm", .null), ("num", .null),
          ("entity_id", .null), ("encoded_id", .null), ("evm_address", .null) ]
  | present p =>
      .object
        [ ("input", .text input), ("shard", .integer p.shard.toNat),
          ("realm", .integer p.realm.toNat), ("num", .integer p.num.toNat),
          ("entity_id", if p.fields = ⟨0, 0, 0⟩ then .null else .text p.fields.text),
          ("encoded_id", .integer p.fields.packedNumber),
          ("evm_address", .text p.address.text) ]

/-- A target by its num or by its address. -/
def ContractTarget.view : ContractTarget → Document
  | num n => .object [("num", .integer n)]
  | create2 a => .object [("create2_evm_address", .text a.text)]

/-- A number that may be missing. -/
def viewOfNumber? : Option Nat → Document
  | none => .null
  | some n => .integer n

/-- A reference by its qualifiers and its target. -/
def ContractReference.view
    (r : ContractReference) :
    Document :=
  .object
    [ ("shard", viewOfNumber? r.shard), ("realm", viewOfNumber? r.realm),
      ("target", r.target.view) ]

/-- What a table shows of an ID, with the text it was read from. -/
def EntityId.cells
    (input : String) :
    EntityId → List String
  | null => [input, "-", "-", "-"]
  | present p =>
      [ input, if p.fields = ⟨0, 0, 0⟩ then "-" else p.fields.text,
        Decimal.text p.fields.packedNumber, p.address.text ]

/-- What a table shows of a target. -/
def ContractTarget.cells : ContractTarget → List String
  | num n => [Decimal.text n, "-"]
  | create2 a => ["-", a.text]

/-- What a table shows of a number that may be missing. -/
def cellOfNumber? : Option Nat → String
  | none => "-"
  | some n => Decimal.text n

/-- What a table shows of a reference, with the value it was read from. -/
def ContractReference.cells
    (value : String)
    (r : ContractReference) :
    List String :=
  [value, cellOfNumber? r.shard, cellOfNumber? r.realm] ++ r.target.cells

/-- The output of a report: JSON text of the list of views, or a table of the rows. -/
inductive CommandLine.Printed
    (views : List Document)
    (rows : List (List String)) :
    CommandLine.Format → String → Prop
  | json
      {output : String}
      (hread : Document.read? output = some (.list views)) :
      Printed views rows .json output
  | table
      {text : String}
      (htable : Table.Displays text rows) :
      Printed views rows .table (text ++ "\n")

end Definitions

section Plainness

/-- Words of 64 bits are plain documents. -/
theorem Document.Plain.natCast
    {n : Nat}
    (h : n < 2 ^ 64) :
    Document.Plain (.integer n) :=
  .integer (by omega) (by omega)

theorem EntityId.plain_view
    (input : String)
    (id : EntityId) :
    Document.Plain (id.view input) := by
  cases id with
  | null =>
      refine .object (by simp) ?_
      simp only [List.forall_mem_cons, List.not_mem_nil, false_imp_iff, implies_true,
        and_true]
      exact ⟨.text input, .null, .null, .null, .null, .null, .null⟩
  | present p =>
      have hshard := p.shard.toNat_lt
      have hrealm := p.realm.toNat_lt
      have hnum := p.num.toNat_lt
      have hpacked := p.packedNumber_le
      have htext :
          Document.Plain (if p.fields = ⟨0, 0, 0⟩ then .null else .text p.fields.text) := by
        split
        · exact .null
        · exact .text _
      refine .object (by simp) ?_
      simp only [List.forall_mem_cons, List.not_mem_nil, false_imp_iff, implies_true,
        and_true]
      exact
        ⟨.text input, .natCast (by omega), .natCast (by omega), .natCast (by omega), htext,
          .natCast (by omega), .text _⟩

theorem ContractTarget.Spelled.plain_view
    {cs : List Char}
    {target : ContractTarget}
    (h : target.Spelled cs) :
    Document.Plain target.view := by
  cases target with
  | num n => exact .object (by simp) (List.forall_mem_singleton.2 (.natCast h.num_lt))
  | create2 a => exact .object (by simp) (List.forall_mem_singleton.2 (.text a.text))

theorem ContractReference.Spelled.plain_view
    {cs : List Char}
    {r : ContractReference}
    (h : r.Spelled cs) :
    Document.Plain r.view := by
  have hparts :
      Document.Plain (viewOfNumber? r.shard) ∧ Document.Plain (viewOfNumber? r.realm) ∧
        Document.Plain r.target.view := by
    cases h with
    | bare hlast => exact ⟨.null, .null, hlast.plain_view⟩
    | inRealm hr hlast => exact ⟨.null, .natCast hr.lt, hlast.plain_view⟩
    | inShard hs hr hlast =>
        exact ⟨.natCast hs.lt, .natCast hr.lt, hlast.plain_view⟩
  obtain ⟨hshard, hrealm, htarget⟩ := hparts
  refine .object (by simp) ?_
  simp only [List.forall_mem_cons, List.not_mem_nil, false_imp_iff, implies_true, and_true]
  exact ⟨hshard, hrealm, htarget⟩

end Plainness

namespace CommandLine

section Reports

theorem isAllZero_present_iff
    (p : Place) :
    (EntityId.present p).isAllZero = true ↔ p.fields = ⟨0, 0, 0⟩ := by
  simp [EntityId.isAllZero, Place.fields, ← UInt16.toNat_inj, ← UInt32.toNat_inj, and_assoc]

/-- Every place but that of zeros has a text to show. -/
theorem displayText?_present
    (p : Place) :
    (EntityId.present p).displayText? =
      if p.fields = ⟨0, 0, 0⟩ then none else some p.fields.text := by
  rw [EntityId.displayText?]
  simp only [isAllZero_present_iff]
  rfl

/-- A row of a report of IDs shows the view of its ID. -/
theorem IdRow.document_eq_view
    (row : IdRow) :
    row.document = row.id.view row.input := by
  obtain ⟨input, id⟩ := row
  cases id with
  | null => rfl
  | present p =>
      have htext :
          Document.ofText? (EntityId.present p).displayText? =
            if p.fields = ⟨0, 0, 0⟩ then .null else .text p.fields.text := by
        rw [displayText?_present]
        split <;> rfl
      have hpacked :
          ((IdRow.packed? ⟨input, .present p⟩).map Document.integer).getD .null =
            .integer p.fields.packedNumber :=
        congrArg Document.integer p.toInt_packed
      rw [document, htext, hpacked]
      rfl

theorem IdRow.cells_eq
    (row : IdRow) :
    row.cells = row.id.cells row.input := by
  obtain ⟨input, id⟩ := row
  cases id with
  | null => rfl
  | present p =>
      have htext :
          cellOf (EntityId.present p).displayText? =
            if p.fields = ⟨0, 0, 0⟩ then "-" else p.fields.text := by
        rw [displayText?_present]
        split <;> rfl
      have hpacked :
          cellOf ((IdRow.packed? ⟨input, .present p⟩).map Decimal.intText) =
            Decimal.text p.fields.packedNumber :=
        congrArg Decimal.intText p.toInt_packed
      rw [cells, htext, hpacked]
      rfl

theorem ContractRow.document_eq_view
    (row : ContractRow) :
    row.document = row.reference.view := by
  obtain ⟨input, shard, realm, target⟩ := row
  cases shard <;> cases realm <;> cases target <;> rfl

theorem ContractRow.cells_eq
    (row : ContractRow) :
    row.cells = row.reference.cells row.input := by
  obtain ⟨input, shard, realm, target⟩ := row
  cases shard <;> cases realm <;> cases target <;> rfl

theorem Printed.read?_eq
    {views : List Document}
    {rows : List (List String)}
    {output : String}
    (h : Printed views rows .json output) :
    Document.read? output = some (.list views) := by
  cases h with
  | json hread => exact hread

theorem printed_text
    {report : Report}
    {views : List Document}
    {heading : List String}
    {cells : List (List String)}
    (hjson : report.text .json = (Document.list views).pretty ++ "\n")
    (htable : report.text .table = Table.render heading cells ++ "\n")
    (hplain : Document.Plain (.list views))
    (format : Format) :
    Printed views (heading :: cells) format (report.text format) := by
  cases format with
  | json =>
      rw [hjson]
      exact .json hplain.read?_pretty_line
  | table =>
      rw [htable]
      exact .table (Table.displays_render heading cells)

/-- A report of IDs shows the view of each. -/
theorem printed_ids
    (rows : List IdRow)
    (format : Format) :
    Printed (rows.map fun row => row.id.view row.input)
      (IdRow.heading :: rows.map fun row => row.id.cells row.input) format
      ((Report.ids rows).text format) := by
  have hviews : rows.map IdRow.document = rows.map fun row => row.id.view row.input :=
    List.map_congr_left fun row _ => row.document_eq_view
  have hcells : rows.map IdRow.cells = rows.map fun row => row.id.cells row.input :=
    List.map_congr_left fun row _ => row.cells_eq
  have hplain : Document.Plain (.list (rows.map fun row => row.id.view row.input)) :=
    .list (List.forall_mem_map.2 fun row _ => row.id.plain_view row.input)
  refine printed_text ?_ ?_ hplain format
  · rw [← hviews]
    rfl
  · rw [← hcells]
    rfl

/-- A report of references that were read shows the view of each. -/
theorem printed_contracts
    {rows : List ContractRow}
    (h : ∀ row ∈ rows, ContractReference.ofText row.input = .ok row.reference)
    (format : Format) :
    Printed (rows.map fun row => row.reference.view)
      (ContractRow.heading :: rows.map fun row => row.reference.cells row.input) format
      ((Report.contracts rows).text format) := by
  have hviews : rows.map ContractRow.document = rows.map fun row => row.reference.view :=
    List.map_congr_left fun row _ => row.document_eq_view
  have hcells :
      rows.map ContractRow.cells = rows.map fun row => row.reference.cells row.input :=
    List.map_congr_left fun row _ => row.cells_eq
  have hplain : Document.Plain (.list (rows.map fun row => row.reference.view)) := by
    refine .list (List.forall_mem_map.2 fun row hrow => ?_)
    exact (ContractReference.ofText_eq_ok_iff_spelled.1 (h row hrow)).plain_view
  refine printed_text ?_ ?_ hplain format
  · rw [← hviews]
    rfl
  · rw [← hcells]
    rfl

end Reports

end CommandLine
end LedgerEntity
