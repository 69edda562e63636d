import DocIndex.Proofs.Search.Terms

/-!
Searching for beginnings. A document is found if a term of one of the fields begins as is asked, in
lower case unless the field is raw, and no line ends in the rest of the term. A raw value of several
lines can therefore be missed. Beginnings that are too long are refused.
-/

namespace DocIndex

/-- A beginning as it is looked for in a field: in lower case, unless the field is raw. -/
def FieldDef.folded (field : FieldDef) (start : String) : String :=
  if field.effectiveTokenizer = .raw then start else Text.lower start

/-- A beginning is short enough to be looked up in some fields. -/
def Schema.Accepts (schema : Schema) (ids : List FieldId) (start : String) : Prop :=
  ∀ id ∈ ids, ∀ field, schema.field? id = some field →
    (field.folded start).utf8ByteSize ≤ Plan.prefixBound

/-- A term goes on in the line of its beginning. -/
theorem FieldValue.continues_iff {start term : String} :
    (FieldValue.text term).continues start = true ↔
      ∃ rest, term = start ++ rest ∧ '\n' ∉ rest.toList := by
  simp only [continues, Bool.and_eq_true, List.isPrefixOf_iff_prefix, List.all_eq_true,
    decide_eq_true_eq]
  constructor
  · rintro ⟨⟨rest, hrest⟩, hline⟩
    rw [← hrest, List.drop_left] at hline
    refine ⟨String.ofList rest, ?_, ?_⟩
    · rw [← String.toList_inj, String.toList_append, String.toList_ofList, hrest]
    · rw [String.toList_ofList]
      exact fun hmem => hline _ hmem rfl
  · rintro ⟨rest, rfl, hline⟩
    rw [String.toList_append, List.drop_left]
    exact ⟨List.prefix_append _ _, fun ch hch => ne_of_mem_of_not_mem hch hline⟩

theorem QueryDef.isTextless_startsWith (start : String) (names : List String) :
    (startsWith start names).IsTextless := by
  simp [IsTextless, clauses]

namespace Plan

variable {schema : Schema} {document : Document} {start : String} {ids : List FieldId}

theorem beginning_eq {id : FieldId} {field : FieldDef} (hfield : schema.field? id = some field) :
    beginning schema start id = ⟨id, field.folded start⟩ := by
  rw [beginning, hfield, Option.map_some, Option.getD_some, prefixClause, FieldDef.folded]
  by_cases hraw : field.effectiveTokenizer = .raw <;> simp [hraw]

theorem isShort_beginnings (hids : ∀ id ∈ ids, schema.Searchable id) :
    (Plan.startsWith (ids.map (beginning schema start))).IsShort ↔ schema.Accepts ids start := by
  simp only [IsShort, starts, List.forall_mem_map, Schema.Accepts]
  refine forall₂_congr fun id hid => ?_
  obtain ⟨field, hfield, -⟩ := hids id hid
  simp [beginning_eq hfield, hfield]

theorem admits_startsWith [Segmenter] {id : FieldId} :
    (Criterion.startsWith id start).admits (Entry.ofDocument schema document) = true ↔
      ∃ rest, document.HasTerm schema id (start ++ rest) ∧ '\n' ∉ rest.toList := by
  rw [Criterion.admits, Entry.any_terms_iff (fun _ => rfl) fun _ => rfl]
  simp only [FieldValue.continues_iff]
  constructor
  · rintro ⟨_, hterm, rest, rfl, hline⟩
    exact ⟨rest, hterm, hline⟩
  · rintro ⟨rest, hterm, hline⟩
    exact ⟨_, hterm, rest, rfl, hline⟩

theorem compile_startsWith {names : List String} (hstart : start ≠ "")
    (htargets : AreTargets schema names ids) (maxDistance : UInt8) :
    compile schema maxDistance (.startsWith start names) =
      .ok (.startsWith (ids.map (beginning schema start))) := by
  simp only [compile, ofQuery, ofPrefix, if_neg hstart, targets_of_areTargets htargets,
    prefixClauses_eq htargets.searchable]

end Plan

namespace Index

variable {index : Index} {state : OpenIndex} {start : String} {names : List String}
  {ids : List FieldId}

theorem finds_startsWith [Segmenter] (hopen : index.state = some state) (hstart : start ≠ "")
    (htargets : Plan.AreTargets state.schema names ids)
    (haccepts : state.schema.Accepts ids start) :
    (∃ page, index.query (.startsWith start names) = .ok page) ∧
    ∀ document, document ∈ index.found (.startsWith start names) ↔
      document ∈ state.committed ∧
      ∃ id ∈ ids, ∃ field, state.schema.field? id = some field ∧
        ∃ rest, document.HasTerm state.schema id (field.folded start ++ rest) ∧
          '\n' ∉ rest.toList := by
  have hshort := (Plan.isShort_beginnings htargets.searchable).mpr haccepts
  obtain ⟨hanswered, hfound⟩ := finds_of_compile hopen (QueryDef.isTextless_startsWith start names)
    (Plan.compile_startsWith hstart htargets _) (Plan.prefixCriteria_of_isShort hshort)
  refine ⟨hanswered, fun document => ?_⟩
  rw [hfound, Criterion.admits_should]
  simp only [List.map_map, List.mem_map, exists_exists_and_eq_and, Function.comp_apply]
  refine and_congr_right fun _ => exists_congr fun id => and_congr_right fun hid => ?_
  obtain ⟨field, hfield, -⟩ := htargets.searchable id hid
  simp [Plan.beginning_eq hfield, hfield, Plan.admits_startsWith]

/--
A document is found if in one of the fields a term begins as is asked and goes on in the same line,
whatever the characters of the beginning. Only beginnings that are too long for a field are refused.
-/
theorem found_startsWith [Segmenter] (hopen : index.state = some state) (hstart : start ≠ "")
    (htargets : Plan.AreTargets state.schema names ids) :
    (state.schema.Accepts ids start →
      (∃ page, index.query (.startsWith start names) = .ok page) ∧
      ∀ document, document ∈ index.found (.startsWith start names) ↔
        document ∈ state.committed ∧
        ∃ id ∈ ids, ∃ field, state.schema.field? id = some field ∧
          ∃ rest, document.HasTerm state.schema id (field.folded start ++ rest) ∧
            '\n' ∉ rest.toList) ∧
    (¬state.schema.Accepts ids start →
      index.query (.startsWith start names) = .error (.query (.unsearchable .prefixTooLong))) := by
  constructor
  · exact finds_startsWith hopen hstart htargets
  · intro hlong
    rw [← Plan.isShort_beginnings htargets.searchable] at hlong
    exact answer_of_not_isShort hopen (QueryDef.isTextless_startsWith start names)
      (Plan.compile_startsWith hstart htargets _) hlong none 0

end Index

/-- Mottos, which are kept whole. -/
def mottoDefinition : SchemaDef where
  fields := [{ name := "motto", kind := .text, tokenizer := some .raw }]

/-- The schema of a collection of mottos. -/
def mottoSchema : Schema :=
  ⟨mottoDefinition, by rfl⟩

def motto (text : String) : Document :=
  ⟨[(0, .text text)], []⟩

/-- What a collection holds: a motto of one line and one of two lines. -/
def mottoState : OpenIndex where
  schema := mottoSchema
  committed := [motto "Know thyself", motto "Know\nthyself"]
  buffer := none

/-- A collection of mottos that is open. -/
def openMottos : Index :=
  ⟨"mottos", {}, some mottoState⟩

section

attribute [local instance] Segmenter.byRuns

theorem mottos_found_by_beginning : openMottos.state = some mottoState ∧ "Know" ≠ "" ∧
    Plan.AreTargets mottoSchema ["motto"] [0] ∧ mottoSchema.Accepts [0] "Know" ∧
    motto "Know thyself" ∈ openMottos.found (.startsWith "Know" ["motto"]) := by
  have hopen : openMottos.state = some mottoState := rfl
  have hstart : "Know" ≠ "" := by decide
  have htargets : Plan.AreTargets mottoSchema ["motto"] [0] := Plan.areTargets_of_targets rfl
  have haccepts : mottoSchema.Accepts [0] "Know" := by
    intro id hid field hfield
    obtain rfl := List.mem_singleton.mp hid
    obtain rfl := Option.some.inj hfield
    decide
  refine ⟨hopen, hstart, htargets, haccepts, ?_⟩
  rw [((Index.found_startsWith hopen hstart htargets).1 haccepts).2]
  have hterm : (motto "Know thyself").HasTerm mottoSchema 0 ("Know" ++ " thyself") :=
    Entry.mem_terms_iff.mp (by decide)
  exact ⟨by decide, 0, List.mem_cons_self, _, rfl, " thyself", hterm, by decide⟩

/-- A line that ends after the beginning keeps a motto from being found. -/
theorem mottos_missed_by_beginning : openMottos.state = some mottoState ∧ "Know" ≠ "" ∧
    Plan.AreTargets mottoSchema ["motto"] [0] ∧
    motto "Know\nthyself" ∈ mottoState.committed ∧
    (motto "Know\nthyself").HasTerm mottoSchema 0 ("Know" ++ "\nthyself") ∧
    motto "Know\nthyself" ∉ openMottos.found (.startsWith "Know" ["motto"]) := by
  have hopen : openMottos.state = some mottoState := rfl
  have hstart : "Know" ≠ "" := by decide
  have htargets : Plan.AreTargets mottoSchema ["motto"] [0] := Plan.areTargets_of_targets rfl
  refine ⟨hopen, hstart, htargets, by decide, Entry.mem_terms_iff.mp (by decide), ?_⟩
  have hseeks : Seeks mottoSchema {} (.startsWith "Know" ["motto"])
      (.bool [] [.startsWith 0 "Know"] []) := ⟨rfl, rfl⟩
  rw [Index.mem_found_iff hopen hseeks]
  decide

end

end DocIndex
