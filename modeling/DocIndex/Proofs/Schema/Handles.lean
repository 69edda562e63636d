import DocIndex.Proofs.Query.Typing

/-!
The handles of the fields of a schema. A field is the same one whether it is come to by its place in
the definition, under its name, or by the handle that the index gave it, and so whoever holds a
handle of a schema can go to its field without another check.
-/

namespace DocIndex

/-- The fields went into an index in order, and each of their names was one that it admits. -/
def SchemaDef.IsAdmitted (definition : SchemaDef) : Prop :=
  ∀ before field after, definition.fields = before ++ field :: after →
    ∃ reached, Tables.addAll {} 0 before = some reached ∧
      reached.storage.map (·.1) = before.map (·.name) ∧
      field.name ≠ "" ∧ field.name.toList.head? ≠ some '-' ∧
      field.name ∉ reached.storage.map (·.1)

theorem SchemaDef.isAdmitted_of_tables? {definition : SchemaDef} {tables : Tables}
    (htables : definition.tables? = some tables) : definition.IsAdmitted := by
  intro before field after hfields
  rw [tables?, hfields] at htables
  obtain ⟨reached, hreached, hname⟩ := Tables.admitsName_of_addAll htables
  have hold : reached.Hold before := Tables.hold_empty.addAll hreached
  refine ⟨reached, hreached, ?_, admitsName_iff.mp hname⟩
  rw [hold.storage, List.map_map]
  rfl

namespace Schema

variable {schema : Schema}

theorem mem_fields_iff {compiled : CompiledField} :
    compiled ∈ schema.tables.fields ↔ schema.field? compiled.id = some compiled.definition := by
  rw [schema.tables_hold.fields, List.mem_mapIdx]
  constructor
  · rintro ⟨id, hid, rfl⟩
    exact List.getElem?_eq_getElem hid
  · intro hfield
    obtain ⟨hid, hdefinition⟩ := List.getElem?_eq_some_iff.mp hfield
    exact ⟨compiled.id, hid, by rw [hdefinition]⟩

theorem ofHandle?_eq_some_iff {id : FieldId} {compiled : CompiledField} :
    schema.tables.ofHandle? id = some compiled ↔
      compiled ∈ schema.tables.fields ∧ compiled.id = id := by
  rw [mem_fields_iff, schema.tables_hold.ofHandle?_eq, Option.map_eq_some_iff]
  constructor
  · rintro ⟨field, hfield, rfl⟩
    exact ⟨hfield, rfl⟩
  · rintro ⟨hfield, rfl⟩
    exact ⟨compiled.definition, hfield, rfl⟩

/-- Whatever a full-text query looks at is a field of the schema. -/
theorem exists_byHandle_of_targets {names : List String} {ids : List FieldId}
    (htargets : Plan.targets schema names = .ok ids) {id : FieldId} (hid : id ∈ ids) :
    ∃ field, Plan.byHandle schema id = .ok field := by
  obtain ⟨field, hfield, -⟩ := (Plan.areTargets_of_targets htargets).searchable id hid
  exact ⟨field, Plan.byHandle_of_field? hfield⟩

theorem defaultNames_of_listed {listed : Schema}
    (hlisted : listed.definition = { schema.definition with searchFields := schema.defaultNames }) :
    listed.defaultNames = schema.defaultNames := by
  by_cases hnone : schema.defaultNames = []
  · have hsearch : schema.definition.searchFields = [] := by
      rw [defaultNames] at hnone
      split at hnone
      · assumption
      · exact hnone
    have hsame : listed.definition = schema.definition := by rw [hlisted, hnone, ← hsearch]
    rw [defaultNames, defaultNames, fields, fields, hsame]
  · have hsearch : listed.definition.searchFields = schema.defaultNames := by rw [hlisted]
    rw [defaultNames, hsearch]
    split
    · exact absurd ‹_› hnone
    · rfl

/-- Default fields can be left out of a definition, or listed by their names. -/
theorem targets_of_listed {listed : Schema}
    (hlisted : listed.definition = { schema.definition with searchFields := schema.defaultNames }) :
    listed.targets = schema.targets := by
  have hnames : listed.Names = schema.Names := by
    unfold Names field? fields
    rw [hlisted]
  have hunique : Relator.RightUnique schema.Names := fun _ _ _ => Names.unique
  refine hunique.forall₂ ?_ schema.names_targets
  rw [← defaultNames_of_listed hlisted, ← hnames]
  exact listed.names_targets

theorem isValid_listed (schema : Schema) :
    { schema.definition with searchFields := schema.defaultNames : SchemaDef }.IsValid where
  named := schema.isValid.named
  unreserved := schema.isValid.unreserved
  distinct := schema.isValid.distinct
  tokenizers := schema.isValid.tokenizers
  searchable := by
    intro name hname
    rw [defaultNames] at hname
    split at hname
    · obtain ⟨field, hfield, rfl⟩ := List.mem_map.mp hname
      obtain ⟨hmem, hkept⟩ := List.mem_filter.mp hfield
      simp only [FieldDef.isTokenized, Bool.and_eq_true, decide_eq_true_eq] at hkept
      exact ⟨field, hmem, rfl, hkept.2.1, hkept.1⟩
    · exact schema.isValid.searchable name hname

/-- What a schema keeps of a definition. -/
structure Represents (schema : Schema) (definition : SchemaDef) : Prop where
  same : schema.definition = definition
  /-- Each field has its place in the definition as its handle. -/
  inOrder : schema.tables.fields = definition.fields.mapIdx fun place field => ⟨place, field⟩
  /-- A name leads to the field that has it. -/
  byName : ∀ name id field, schema.lookup? name = some (id, field) ↔
    definition.fields[id]? = some field ∧ field.name = name
  /-- A handle leads back to the field that was given it. -/
  byHandle : ∀ id compiled, schema.tables.ofHandle? id = some compiled ↔
    compiled ∈ schema.tables.fields ∧ compiled.id = id
  /-- No query is planned with a handle that leads nowhere. -/
  reached : ∀ names ids, Plan.targets schema names = .ok ids →
    ∀ id ∈ ids, ∃ field, Plan.byHandle schema id = .ok field
  /-- The index keeps the same fields in the same order. -/
  kept : schema.storage = definition.fields.map fun field => (field.name, field.storage)
  /-- Full-text queries look at indexed text fields by default. -/
  defaults : schema.AreDefaults schema.targets ∧ ∀ id ∈ schema.targets, schema.Searchable id
  /-- Default fields that are left out are as if their names had been listed. -/
  listed : definition.searchFields = [] → ∃ listed : Schema,
    { definition with
        searchFields := (definition.fields.filter fun field =>
          field.indexed && field.isTokenized).map (·.name) : SchemaDef }.compile = .ok listed ∧
      listed.targets = schema.targets
  /-- The index was given the fields one by one, and each under a name that it admits. -/
  admitted : definition.tables? = some schema.tables ∧ definition.IsAdmitted

/-- A definition that compiles is represented by what becomes of it. -/
theorem represents_of_compile {definition : SchemaDef} {schema : Schema}
    (hcompile : definition.compile = .ok schema) : schema.Represents definition := by
  obtain rfl : schema.definition = definition := SchemaDef.definition_of_compile hcompile
  have htables : schema.definition.tables? = some schema.tables := (Option.some_get _).symm
  exact {
    same := rfl
    inOrder := schema.tables_hold.fields
    byName := fun _ _ _ => lookup?_eq_some_iff
    byHandle := fun _ _ => ofHandle?_eq_some_iff
    reached := fun _ _ htargets _ hid => exists_byHandle_of_targets htargets hid
    kept := schema.storage_eq
    defaults := schema.targets_areDefaults
    listed := by
      intro hnone
      have hnames : schema.defaultNames = (schema.definition.fields.filter fun field =>
          field.indexed && field.isTokenized).map (·.name) := by
        rw [defaultNames, hnone]
        rfl
      obtain ⟨listed, hlisted, hdefinition⟩ := schema.isValid_listed.exists_schema
      exact ⟨listed, hnames ▸ hlisted, targets_of_listed hdefinition⟩
    admitted := ⟨htables, SchemaDef.isAdmitted_of_tables? htables⟩ }

theorem librarySchema_represents : libraryDefinition.compile = .ok librarySchema ∧
    librarySchema.Represents libraryDefinition :=
  ⟨SchemaDef.compile_of_check librarySchema.checked,
    represents_of_compile (SchemaDef.compile_of_check librarySchema.checked)⟩

end Schema

end DocIndex
