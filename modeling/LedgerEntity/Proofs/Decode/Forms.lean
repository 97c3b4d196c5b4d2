import LedgerEntity.Proofs.Decode.Reference

/-!
# Forms of raw text

The three written forms that the decoder tells apart, each with its test and its
extraction.

No text has two forms, so it does not matter in which order the tests are made.
An extraction reads every text that its test admits: digits of the admitted
number always fit a word, and no admitted text is short of fields.  Only a packed
ID has a limit of its own, the largest value of 63 bits.  Hence the public tests
say exactly which texts are malformed, and whatever they admit is at worst out of
range.
-/

namespace LedgerEntity

/-- A written form of an entity ID. -/
inductive Form where
  | dotted
  | packed
  | address

namespace Form

/-- Whether a text has the form, as far as the flavor accepts it. -/
def admits
    (flavor : Flavor) :
    Form → List Char → Bool
  | dotted => Shape.isDotted
  | packed => Shape.isPacked
  | address => Shape.isAddress flavor

/-- The fields of a text in the form. -/
def extract
    (systemShard : UInt16) :
    Form → List Char → Except Rejection Fields
  | dotted => Fields.ofDotted systemShard
  | packed => Fields.ofPacked
  | address => Fields.ofAddress

/-- The fields of a text by the first of some forms that admits it. -/
def extractBy
    (flavor : Flavor)
    (systemShard : UInt16) :
    List Form → List Char → Except Rejection Fields
  | [], _ => .error .malformed
  | form :: later, cs =>
      if form.admits flavor cs then
        form.extract systemShard cs
      else
        extractBy flavor systemShard later cs

/-- Decoding by the first of some forms that admits the text. -/
def decodeBy
    (forms : List Form)
    (raw : String)
    (flavor : Flavor)
    (systemShard : UInt16) :
    Except Rejection EntityId := do
  let fields ← extractBy flavor systemShard forms raw.toList
  let place ← Place.ofFields? fields
  .ok (.present place)

variable {form form' : Form}
variable {flavor flavor' : Flavor}
variable {systemShard : UInt16}
variable {cs : List Char}

section Exclusion

/-- No text has two forms, under whatever flavors. -/
theorem eq_of_admits
    (h : form.admits flavor cs = true)
    (h' : form'.admits flavor' cs = true) :
    form = form' := by
  have hshort (flavor : Flavor) (haddress : Shape.isAddress flavor cs = true) :
      Shape.isDotted cs = false ∧ Shape.isPacked cs = false :=
    Shape.isDotted_isPacked_eq_false_of_length (Shape.le_length_of_isAddress haddress)
  cases form with
  | dotted =>
      cases form' with
      | dotted => rfl
      | packed => exact absurd h (by simp [admits, Shape.isDotted_eq_false_of_isPacked h'])
      | address => exact absurd h (by simp [admits, (hshort _ h').1])
  | packed =>
      cases form' with
      | dotted => exact absurd h' (by simp [admits, Shape.isDotted_eq_false_of_isPacked h])
      | packed => rfl
      | address => exact absurd h (by simp [admits, (hshort _ h').2])
  | address =>
      cases form' with
      | dotted => exact absurd h' (by simp [admits, (hshort _ h).1])
      | packed => exact absurd h' (by simp [admits, (hshort _ h).2])
      | address => rfl

end Exclusion

section Order

variable {forms : List Form}

theorem extractBy_of_admits
    (hmem : form ∈ forms)
    (h : form.admits flavor cs = true) :
    extractBy flavor systemShard forms cs = form.extract systemShard cs := by
  induction forms with
  | nil => simp at hmem
  | cons first later ih =>
      rw [extractBy]
      split
      · next hfirst => rw [eq_of_admits hfirst h]
      · next hfirst =>
          rcases List.mem_cons.1 hmem with rfl | hlater
          · exact absurd h hfirst
          · exact ih hlater

theorem extractBy_of_not_admits
    (h : ∀ form ∈ forms, ¬ form.admits flavor cs = true) :
    extractBy flavor systemShard forms cs = .error .malformed := by
  induction forms with
  | nil => rfl
  | cons first later ih =>
      obtain ⟨hfirst, hlater⟩ := List.forall_mem_cons.1 h
      rw [extractBy, if_neg hfirst, ih hlater]

/-- The order in which forms are tried does not matter. -/
theorem extractBy_perm
    {forms' : List Form}
    (hperm : forms.Perm forms') :
    extractBy flavor systemShard forms cs = extractBy flavor systemShard forms' cs := by
  by_cases hsome : ∃ form ∈ forms, form.admits flavor cs = true
  · obtain ⟨form, hmem, hadmits⟩ := hsome
    rw [extractBy_of_admits hmem hadmits, extractBy_of_admits (hperm.mem_iff.1 hmem) hadmits]
  · have hnone : ∀ form ∈ forms, ¬ form.admits flavor cs = true := by
      intro form hmem hadmits
      exact hsome ⟨form, hmem, hadmits⟩
    rw [extractBy_of_not_admits hnone,
      extractBy_of_not_admits fun form hmem => hnone form (hperm.mem_iff.2 hmem)]

/-- The decoder tries the dotted form first and the address last. -/
theorem extractBy_dotted_packed_address :
    extractBy flavor systemShard [dotted, packed, address] cs =
      extractFields cs flavor systemShard :=
  rfl

theorem decodeBy_perm
    (hperm : forms.Perm [dotted, packed, address])
    (raw : String) :
    decodeBy forms raw flavor systemShard = decode raw flavor systemShard := by
  rw [decodeBy, extractBy_perm hperm, extractBy_dotted_packed_address, decode]

end Order

section Extraction

theorem extractFields_of_admits
    (systemShard : UInt16)
    (h : form.admits flavor cs = true) :
    extractFields cs flavor systemShard = form.extract systemShard cs := by
  rw [← extractBy_dotted_packed_address]
  exact extractBy_of_admits (by cases form <;> simp) h

/-- A dotted text is extracted: it has two or three pieces, and each fits a word. -/
theorem exists_extract_dotted
    (systemShard : UInt16)
    (h : dotted.admits flavor cs = true) :
    ∃ f, dotted.extract systemShard cs = .ok f := by
  rcases Shape.isDotted_iff.1 h with
    ⟨realm, num, hrealm, hnum, rfl⟩ | ⟨shard, realm, num, hshard, hrealm, hnum, rfl⟩
  · exact ⟨_, Fields.ofDotted_short systemShard hrealm hnum⟩
  · exact ⟨_, Fields.ofDotted_full systemShard hshard hrealm hnum⟩

/-- An address is extracted: its last forty characters are three words of digits. -/
theorem exists_extract_address
    (systemShard : UInt16)
    (h : address.admits flavor cs = true) :
    ∃ f, address.extract systemShard cs = .ok f := by
  obtain ⟨front, ds, hfront, hds, rfl⟩ := Shape.isAddress_iff.1 h
  exact ⟨_, Fields.ofAddress_of_digits hds (Shape.withoutMark_lastPiece hfront hds)⟩

/-- A packed ID is extracted up to the largest value of 63 bits, and is too large above. -/
theorem extract_packed
    (systemShard : UInt16)
    (h : packed.admits flavor cs = true) :
    packed.extract systemShard cs =
      if 2 ^ 63 - 1 < decimalNumber cs then
        .error .outOfRange
      else
        .ok (packedFields (decimalNumber cs)) := by
  rw [extract, Fields.ofPacked_of_numeral (Shape.isPacked_iff.1 h), Fields.unpack_eq]

/-- Which packed IDs are extracted, and which are not. -/
theorem extract_packed_iff
    (systemShard : UInt16)
    (h : packed.admits flavor cs = true) :
    ((∃ f, packed.extract systemShard cs = .ok f) ↔ decimalNumber cs ≤ 2 ^ 63 - 1) ∧
    (packed.extract systemShard cs = .error .outOfRange ↔
      2 ^ 63 - 1 < decimalNumber cs) := by
  rw [extract_packed systemShard h]
  split
  · next hlarge =>
      exact ⟨iff_of_false (by simp) (not_le.2 hlarge), iff_of_true rfl hlarge⟩
  · next hfits =>
      exact ⟨iff_of_true ⟨_, rfl⟩ (not_lt.1 hfits), iff_of_false (by simp) hfits⟩

/-- The extraction of a text in some form never fails for its shape. -/
theorem extract_ne_malformed
    (h : form.admits flavor cs = true) :
    form.extract systemShard cs ≠ .error .malformed := by
  cases form with
  | dotted =>
      obtain ⟨f, hextract⟩ := exists_extract_dotted systemShard h
      simp [hextract]
  | packed =>
      rw [extract_packed systemShard h]
      split <;> simp
  | address =>
      obtain ⟨f, hextract⟩ := exists_extract_address systemShard h
      simp [hextract]

theorem extractFields_eq_malformed_iff :
    extractFields cs flavor systemShard = .error .malformed ↔
      ∀ form : Form, ¬ form.admits flavor cs = true := by
  constructor
  · intro h form hadmits
    rw [extractFields_of_admits systemShard hadmits] at h
    exact extract_ne_malformed hadmits h
  · intro h
    rw [← extractBy_dotted_packed_address]
    exact extractBy_of_not_admits fun form _ => h form

/-- The public tests refuse exactly the texts without a form. -/
theorem not_admits_iff
    {raw : String} :
    (∀ form : Form, ¬ form.admits flavor raw.toList = true) ↔
      isEntityIdText raw = false ∧ isAddressText raw flavor = false := by
  rw [isEntityIdText, isAddressText, Bool.or_eq_false_iff]
  constructor
  · intro h
    exact
      ⟨⟨Bool.eq_false_iff.2 (h dotted), Bool.eq_false_iff.2 (h packed)⟩,
        Bool.eq_false_iff.2 (h address)⟩
  · rintro ⟨⟨hdotted, hpacked⟩, haddress⟩ form
    cases form with
    | dotted => exact Bool.eq_false_iff.1 hdotted
    | packed => exact Bool.eq_false_iff.1 hpacked
    | address => exact Bool.eq_false_iff.1 haddress

theorem decode_eq_malformed_iff
    {raw : String} :
    decode raw flavor systemShard = .error .malformed ↔
      isEntityIdText raw = false ∧ isAddressText raw flavor = false := by
  rw [← not_admits_iff, decode_eq_error_iff, extractFields_eq_malformed_iff]
  simp

/-- A text in some form is extracted, and then at worst a field is too large. -/
theorem extract_cases_of_admits
    {raw : String}
    (h : form.admits flavor raw.toList = true) :
    (form.extract systemShard raw.toList = .error .outOfRange ∧
      decode raw flavor systemShard = .error .outOfRange)
      ∨
    (∃ f, form.extract systemShard raw.toList = .ok f ∧ ¬ f.InRange ∧
      decode raw flavor systemShard = .error .outOfRange)
      ∨
    (∃ place : Place, form.extract systemShard raw.toList = .ok place.fields ∧
      decode raw flavor systemShard = .ok (.present place)) := by
  have hfields := extractFields_of_admits systemShard h
  cases hextract : form.extract systemShard raw.toList with
  | error rejection =>
      cases rejection with
      | malformed => exact absurd hextract (extract_ne_malformed h)
      | outOfRange =>
          left
          exact ⟨rfl, decode_of_extractFields_error (hfields.trans hextract)⟩
  | ok f =>
      right
      by_cases hrange : f.InRange
      · right
        have hplace := (Place.fields_ofFields f hrange).symm
        refine ⟨Place.ofFields f hrange, congrArg _ hplace, decode_of_extractFields ?_⟩
        rw [hfields, hextract, ← hplace]
      · left
        exact ⟨f, rfl, hrange, decode_of_not_inRange (hfields.trans hextract) hrange⟩

end Extraction

/--
The forms exclude each other, and an extraction reads all that its test admits.

Hence any order of the tests gives the same decoder, and a text is malformed exactly
if the public tests refuse it.  A dotted text and an address are always extracted,
and a packed ID is unless its value is above the largest one of 63 bits.  What is
extracted denotes the place of its fields, unless a field is too large.
-/
theorem exclusive_and_readable
    (raw : String) :
    (∀ form form' : Form,
      form.admits .any raw.toList = true → form'.admits .any raw.toList = true →
        form = form')
      ∧
    ∀ (flavor : Flavor) (systemShard : UInt16),
      (∀ forms, forms.Perm [dotted, packed, address] →
        decodeBy forms raw flavor systemShard = decode raw flavor systemShard)
        ∧
      (decode raw flavor systemShard = .error .malformed ↔
        isEntityIdText raw = false ∧ isAddressText raw flavor = false)
        ∧
      (dotted.admits flavor raw.toList = true →
        ∃ f, dotted.extract systemShard raw.toList = .ok f)
        ∧
      (address.admits flavor raw.toList = true →
        ∃ f, address.extract systemShard raw.toList = .ok f)
        ∧
      (packed.admits flavor raw.toList = true →
        ((∃ f, packed.extract systemShard raw.toList = .ok f) ↔
          decimalNumber raw.toList ≤ 2 ^ 63 - 1) ∧
        (packed.extract systemShard raw.toList = .error .outOfRange ↔
          2 ^ 63 - 1 < decimalNumber raw.toList))
        ∧
      (∀ form : Form, form.admits flavor raw.toList = true →
        (form.extract systemShard raw.toList = .error .outOfRange ∧
          decode raw flavor systemShard = .error .outOfRange)
          ∨
        (∃ f, form.extract systemShard raw.toList = .ok f ∧ ¬ f.InRange ∧
          decode raw flavor systemShard = .error .outOfRange)
          ∨
        (∃ place : Place, form.extract systemShard raw.toList = .ok place.fields ∧
          decode raw flavor systemShard = .ok (.present place))) := by
  refine ⟨fun _ _ => eq_of_admits, ?_⟩
  intro flavor systemShard
  exact
    ⟨fun _ hperm => decodeBy_perm hperm raw, decode_eq_malformed_iff,
      exists_extract_dotted systemShard, exists_extract_address systemShard,
      extract_packed_iff systemShard, fun _ => extract_cases_of_admits⟩

/--
`0.0.1001` is extracted and denotes its place.  Nineteen nines have the packed form
only, and are out of range in every order of tests.
-/
theorem exclusive_and_readable_dotted_and_nines :
    let short := "0.0.1001"
    let nines := "9999999999999999999"
    dotted.admits .any short.toList = true ∧
    dotted.extract 7 short.toList = .ok ⟨0, 0, 1001⟩ ∧
    decode short .any 7 = .ok (.present ⟨0, 0, 1001, by decide⟩) ∧
    packed.admits .any nines.toList = true ∧
    [address, packed, dotted].Perm [dotted, packed, address] ∧
    (∀ form : Form, form.admits .any nines.toList = true → form = packed) ∧
    isEntityIdText nines = true ∧
    packed.extract 7 nines.toList = .error .outOfRange ∧
    decodeBy [address, packed, dotted] nines .any 7 = .error .outOfRange := by
  intro short nines
  have hdotted : dotted.admits .any short.toList = true := by decide
  have hpacked : packed.admits .any nines.toList = true := by decide
  have hperm : [address, packed, dotted].Perm [dotted, packed, address] :=
    List.reverse_perm [dotted, packed, address]
  have hlarge : 2 ^ 63 - 1 < decimalNumber nines.toList := by decide
  obtain ⟨-, hshort⟩ := exclusive_and_readable short
  obtain ⟨hexclusive, hnines⟩ := exclusive_and_readable nines
  obtain ⟨-, -, -, -, -, hdenotes⟩ := hshort .any 7
  obtain ⟨horder, -, -, -, hlimit, houtcome⟩ := hnines .any 7
  have htooLarge := (hlimit hpacked).2.2 hlarge
  have hdecode : decode nines .any 7 = .error .outOfRange := by
    rcases houtcome packed hpacked with ⟨-, h⟩ | ⟨f, hf, -, -⟩ | ⟨place, hplace, -⟩
    · exact h
    · cases htooLarge.symm.trans hf
    · cases htooLarge.symm.trans hplace
  have hfields : dotted.extract 7 "0.0.1001".toList = .ok ⟨0, 0, 1001⟩ := by cbv
  have hplace : decode short .any 7 = .ok (.present ⟨0, 0, 1001, by decide⟩) := by
    rcases hdenotes dotted hdotted with ⟨h, -⟩ | ⟨f, hf, hrange, -⟩ | ⟨place, hf, h⟩
    · cases hfields.symm.trans h
    · cases hfields.symm.trans hf
      exact absurd (by decide) hrange
    · rw [h]
      have hsame := Except.ok.inj (hf.symm.trans hfields)
      exact congrArg _ (congrArg _ (Place.eq_of_fields_eq hsame))
  exact
    ⟨hdotted, hfields, hplace, hpacked, hperm,
      fun form h => hexclusive form packed h hpacked, by decide, htooLarge,
      (horder _ hperm).trans hdecode⟩

end Form
end LedgerEntity
