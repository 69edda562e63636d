import DocIndex.Proofs.Search.Running

/-!
What a search can find a document by. The terms of a document in a field are the tokens that the
field's tokenizer makes of the value, less those that are too long to be kept. A query that compiles
to a plan with a criterion is answered, and finds the committed documents that the criterion admits;
so what a query finds can be said in the terms of documents.
-/

namespace DocIndex

/-- An indexed field of a document has a text value with a token that the index keeps. -/
def Document.HasToken [Segmenter] (schema : Schema) (document : Document) (id : FieldId)
    (token : Analysis.Token) : Prop :=
  ∃ field value, schema.field? id = some field ∧ field.indexed = true ∧
    document.value? id = some (.text value) ∧ token ∈ field.effectiveTokenizer.terms value

/-- A field of a document has a term, wherever in the value. -/
def Document.HasTerm [Segmenter] (schema : Schema) (document : Document) (id : FieldId)
    (term : String) :
    Prop :=
  ∃ position, document.HasToken schema id ⟨term, position⟩

/-- The tokens of a field are those of its value. -/
theorem Document.hasToken_iff [Segmenter] {schema : Schema} {document : Document} {id : FieldId}
    {field : FieldDef} {value : String} {token : Analysis.Token}
    (hfield : schema.field? id = some field) (hindexed : field.indexed = true)
    (hvalue : document.value? id = some (.text value)) :
    document.HasToken schema id token ↔ token ∈ field.effectiveTokenizer.terms value := by
  simp [HasToken, hfield, hindexed, hvalue]

theorem Occurrence.ofToken_injective : Function.Injective ofToken := by
  rintro ⟨text, position⟩ ⟨text', position'⟩ hequal
  simpa [ofToken] using hequal

section Entries

variable {schema : Schema} {document : Document} {id : FieldId}

theorem FieldDef.mem_occurrences_iff [Segmenter] {field : FieldDef} {value : FieldValue}
    {token : Analysis.Token} :
    .ofToken token ∈ field.occurrences value ↔
      field.indexed = true ∧ ∃ s, value = .text s ∧ token ∈ field.effectiveTokenizer.terms s := by
  unfold occurrences
  cases field.indexed with
  | false => simp
  | true =>
      cases value with
      | text s => simp [List.mem_map_of_injective Occurrence.ofToken_injective]
      | i64 _ | f64 _ => simp [Occurrence.ofToken]

theorem Entry.mem_occurrences_iff [Segmenter] {occurrence : Occurrence} :
    occurrence ∈ (Entry.ofDocument schema document).occurrences id ↔
      ∃ field value, schema.field? id = some field ∧ document.value? id = some value ∧
        occurrence ∈ field.occurrences value := by
  simp only [occurrences, ofDocument, Document.value?]
  induction document.values with
  | nil => simp
  | cons entry rest ih =>
      obtain ⟨first, value⟩ := entry
      have hkey : (indexValue schema first value).1 = first := by
        unfold indexValue
        split <;> rfl
      rw [List.map_cons, List.lookup_cons, List.lookup_cons, hkey]
      by_cases hid : id = first
      · subst hid
        simp only [beq_self_eq_true, indexValue]
        cases schema.field? id <;> simp
      · simpa only [beq_eq_false_iff_ne.mpr hid] using ih

theorem Entry.ofToken_mem_occurrences_iff [Segmenter] {token : Analysis.Token} :
    .ofToken token ∈ (Entry.ofDocument schema document).occurrences id ↔
      document.HasToken schema id token := by
  rw [mem_occurrences_iff]
  simp only [FieldDef.mem_occurrences_iff]
  constructor
  · rintro ⟨field, _, hfield, hvalue, hindexed, s, rfl, htoken⟩
    exact ⟨field, s, hfield, hindexed, hvalue, htoken⟩
  · rintro ⟨field, s, hfield, hindexed, hvalue, htoken⟩
    exact ⟨field, _, hfield, hvalue, hindexed, s, rfl, htoken⟩

theorem Entry.mem_positions_iff [Segmenter] {term : String} {position : Nat} :
    position ∈ (Entry.ofDocument schema document).positions id (.text term) ↔
      document.HasToken schema id ⟨term, position⟩ := by
  rw [← ofToken_mem_occurrences_iff, positions]
  simp only [List.mem_map, List.mem_filter, decide_eq_true_eq]
  constructor
  · rintro ⟨⟨_, _⟩, ⟨hmem, rfl⟩, rfl⟩
    exact hmem
  · intro hmem
    exact ⟨_, ⟨hmem, rfl⟩, rfl⟩

theorem Entry.mem_terms_iff [Segmenter] {term : String} :
    .text term ∈ (Entry.ofDocument schema document).terms id ↔
      document.HasTerm schema id term := by
  rw [terms, List.mem_map]
  constructor
  · rintro ⟨⟨_, position⟩, hmem, rfl⟩
    exact ⟨position, ofToken_mem_occurrences_iff.mp hmem⟩
  · rintro ⟨position, htoken⟩
    exact ⟨_, ofToken_mem_occurrences_iff.mpr htoken, rfl⟩

theorem Entry.has_iff [Segmenter] {term : String} :
    (Entry.ofDocument schema document).has id (.text term) = true ↔
      document.HasTerm schema id term := by
  rw [has, List.contains_iff_mem, mem_terms_iff]

/-- What no number fulfils is asked of the terms of a document. -/
theorem Entry.any_terms_iff [Segmenter] {holds : FieldValue → Bool}
    (hinteger : ∀ n, holds (.i64 n) = false) (hfloat : ∀ x, holds (.f64 x) = false) :
    ((Entry.ofDocument schema document).terms id).any holds = true ↔
      ∃ term, document.HasTerm schema id term ∧ holds (.text term) = true := by
  rw [List.any_eq_true]
  constructor
  · rintro ⟨term, hmem, hterm⟩
    cases term with
    | text term => exact ⟨term, mem_terms_iff.mp hmem, hterm⟩
    | i64 n => simp [hinteger] at hterm
    | f64 x => simp [hfloat] at hterm
  · rintro ⟨term, hmem, hterm⟩
    exact ⟨_, mem_terms_iff.mpr hmem, hterm⟩

end Entries

namespace Criterion

variable {entry : Entry} {must should : List Criterion}

theorem admits_should :
    (bool [] should []).admits entry = true ↔
      ∃ criterion ∈ should, criterion.admits entry = true := by
  simp [admits, admitsAny_iff, admitsAny]

theorem admits_must (hmust : must ≠ []) :
    (bool must [] []).admits entry = true ↔
      ∀ criterion ∈ must, criterion.admits entry = true := by
  simp [admits, admitsAll_iff, admitsAny, hmust]

end Criterion

namespace Index

variable {index : Index} {state : OpenIndex} {query : QueryDef} {plan : Plan}
  {criterion : Criterion}

/-- A query that compiles to a plan with a criterion finds what the criterion admits. -/
theorem finds_of_compile [Segmenter] (hopen : index.state = some state)
    (htextless : query.IsTextless)
    (hplan : Plan.compile state.schema index.settings.maxFuzzyDistance query = .ok plan)
    (hcriterion : plan.criterion state.schema = .ok criterion) :
    (∃ page, index.query query = .ok page) ∧
    ∀ document, document ∈ index.found query ↔
      document ∈ state.committed ∧
        criterion.admits (Entry.ofDocument state.schema document) = true := by
  have hshort : plan.IsShort := by
    by_contra hlong
    have hlowers := Plan.lowers_of_realizes query (Plan.compile_realizes hplan) htextless
    rw [hlowers.refused hlong] at hcriterion
    contradiction
  obtain ⟨⟨other, hother, hrunnable⟩, hanswered, -⟩ :=
    answer_of_compile hopen htextless hplan hshort none 0
  obtain rfl := Except.ok.inj (hother.symm.trans hcriterion)
  have hseeks : Seeks state.schema index.settings query other :=
    seeks_iff_plan.mpr ⟨⟨plan, hplan, hcriterion⟩, hrunnable.refusal?⟩
  exact ⟨hanswered, mem_found_iff hopen hseeks⟩

end Index

end DocIndex
