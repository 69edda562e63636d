import DocIndex.Schema.Tables
import DocIndex.Json.Mismatch

/-!
Schemas that have passed their checks. The checks go through the fields in order and then through
the default search fields in order, and the first violation is the error. What has passed goes
through when its fields are put into tables: the index admits the name of each in turn.
-/

namespace DocIndex

inductive SchemaError where
  | malformed (fault : Json.DecodeFault)
  | emptyName (position : Nat)
  | invalidName (name : String)
  | duplicateName (name : String)
  | tokenizerOnNonText (name : String)
  | unknownSearchField (name : String)
  | invalidSearchField (name : String)
deriving Repr

def SchemaError.message : SchemaError → String
  | .malformed fault => s!"Malformed schema: {fault.message}"
  | .emptyName position => s!"Field #{position} has an empty name"
  | .invalidName name => s!"Invalid field name '{name}': names must not start with '_' or '-'"
  | .duplicateName name => s!"Duplicate field name: {name}"
  | .tokenizerOnNonText name => s!"Tokenizer is only valid on text fields: {name}"
  | .unknownSearchField name => s!"Unknown search field: {name}"
  | .invalidSearchField name => s!"Search field must be an indexed text field: {name}"

/-- Names that begin like this are kept for the index itself. -/
def isReservedName (name : String) : Bool :=
  match name.toList with
  | '_' :: _ => true
  | '-' :: _ => true
  | _ => false

/-- Checks a field that stands at a position after fields with the given names. -/
def FieldDef.check (position : Nat) (earlier : List String) (field : FieldDef) :
    Except SchemaError Unit :=
  if field.name = "" then .error (.emptyName position)
  else if isReservedName field.name then .error (.invalidName field.name)
  else if field.name ∈ earlier then .error (.duplicateName field.name)
  else if field.tokenizer.isSome ∧ field.kind ≠ .text then .error (.tokenizerOnNonText field.name)
  else .ok ()

/-- Checks fields in order; `earlier` holds the names of the fields before them. -/
def checkFields (position : Nat) (earlier : List String) : List FieldDef → Except SchemaError Unit
  | [] => .ok ()
  | field :: rest =>
      match field.check position earlier with
      | .error fault => .error fault
      | .ok () => checkFields (position + 1) (field.name :: earlier) rest

/-- Checks the names of default search fields in order. -/
def checkSearchFields (fields : List FieldDef) : List String → Except SchemaError Unit
  | [] => .ok ()
  | name :: rest =>
      match fields.find? (·.name = name) with
      | none => .error (.unknownSearchField name)
      | some field =>
          if field.isSearchable then checkSearchFields fields rest
          else .error (.invalidSearchField name)

def SchemaDef.check (definition : SchemaDef) : Except SchemaError Unit :=
  match checkFields 0 [] definition.fields with
  | .error fault => .error fault
  | .ok () => checkSearchFields definition.fields definition.searchFields

/-- A schema definition that passes its checks. -/
structure Schema where
  definition : SchemaDef
  checked : definition.check = .ok ()

def SchemaDef.compile (definition : SchemaDef) : Except SchemaError Schema :=
  match h : definition.check with
  | .error fault => .error fault
  | .ok () => .ok ⟨definition, h⟩

theorem SchemaDef.compile_of_check {definition : SchemaDef} (hcheck : definition.check = .ok ()) :
    definition.compile = .ok ⟨definition, hcheck⟩ := by
  unfold compile
  split
  · rename_i hfault
    rw [hcheck] at hfault
    contradiction
  · rfl

theorem SchemaDef.compile_of_check_error {definition : SchemaDef} {fault : SchemaError}
    (hcheck : definition.check = .error fault) : definition.compile = .error fault := by
  unfold compile
  split
  · rename_i hother
    rw [Except.error.inj (hcheck.symm.trans hother)]
  · rename_i hok
    rw [hcheck] at hok
    contradiction

theorem SchemaDef.definition_of_compile {definition : SchemaDef} {schema : Schema}
    (hcompile : definition.compile = .ok schema) : schema.definition = definition := by
  unfold compile at hcompile
  split at hcompile
  · contradiction
  · obtain rfl := Except.ok.inj hcompile
    rfl

def SchemaDef.tables? (definition : SchemaDef) : Option Tables :=
  Tables.addAll {} 0 definition.fields

/-- The name of a field that passes its checks is one that an index of the earlier fields admits. -/
theorem FieldDef.admitsName_of_check {position : Nat} {earlier : List String} {field : FieldDef}
    (hcheck : field.check position earlier = .ok ()) {kept : List (String × FieldStorage)}
    (hkept : ∀ name, (kept.lookup name).isSome → name ∈ earlier) :
    admitsName kept field.name = true := by
  rw [check] at hcheck
  split at hcheck
  · contradiction
  · rename_i hempty
    split at hcheck
    · contradiction
    · rename_i hreserved
      split at hcheck
      · contradiction
      · rename_i hearlier
        have hnone : kept.lookup field.name = none := by
          rw [← Option.not_isSome_iff_eq_none]
          exact fun hsome => hearlier (hkept _ hsome)
        have hdash : field.name.toList.head? ≠ some '-' := by
          intro hhead
          obtain ⟨rest, hrest⟩ := List.head?_eq_some_iff.mp hhead
          exact hreserved (by simp [isReservedName, hrest])
        simp [admitsName, hempty, hdash, hnone]

/-- Fields that pass their checks can all be added. -/
theorem Tables.exists_addAll {position place : Nat} {earlier : List String}
    {fields : List FieldDef} (hcheck : checkFields position earlier fields = .ok ())
    {tables : Tables} (hkept : ∀ name, (tables.storage.lookup name).isSome → name ∈ earlier) :
    ∃ result, tables.addAll place fields = some result := by
  induction fields generalizing position place earlier tables with
  | nil => exact ⟨tables, rfl⟩
  | cons field rest ih =>
      rw [checkFields] at hcheck
      split at hcheck
      · contradiction
      · rename_i hfield
        have hname := FieldDef.admitsName_of_check hfield hkept
        rw [addAll, add, keepField, if_pos hname]
        refine ih hcheck fun name hsome => ?_
        rw [List.lookup_append, Option.isSome_or, Bool.or_eq_true] at hsome
        rcases hsome with hbefore | hlast
        · exact List.mem_cons_of_mem _ (hkept name hbefore)
        · by_cases hsame : name = field.name
          · exact hsame ▸ List.mem_cons_self
          · simp [List.lookup_cons, beq_eq_false_iff_ne.mpr hsame] at hlast

namespace Schema

theorem isSome_tables? (schema : Schema) : schema.definition.tables?.isSome = true := by
  have hchecked := schema.checked
  rw [SchemaDef.check] at hchecked
  split at hchecked
  · contradiction
  · rename_i hfields
    have htables : ∃ tables, schema.definition.tables? = some tables :=
      Tables.exists_addAll hfields fun name hname => by cases hname
    exact Option.isSome_iff_exists.mpr htables

/-- The tables of the fields. -/
def tables (schema : Schema) : Tables :=
  schema.definition.tables?.get schema.isSome_tables?

/-- The fields in order. -/
def fields (schema : Schema) : List FieldDef :=
  schema.definition.fields

def field? (schema : Schema) (id : FieldId) : Option FieldDef :=
  schema.fields[id]?

def find? (schema : Schema) (name : String) : Option FieldId :=
  (schema.tables.ofName? name).map (·.id)

def lookup? (schema : Schema) (name : String) : Option (FieldId × FieldDef) :=
  (schema.tables.ofName? name).map fun field => (field.id, field.definition)

/--
The fields that full-text queries look at when they name none: the declared search fields, or all
indexed and tokenized text fields.
-/
def targets (schema : Schema) : List FieldId :=
  schema.tables.targets schema.definition.searchFields

end Schema

/-- How the texts of the field at a position are indexed, if they are. -/
def Schema.indexing? (schema : Schema) (id : FieldId) : Option TextIndexing :=
  (schema.field? id).bind fun field =>
    match field.storage with
    | .text _ _ indexing => indexing
    | .number .. => none

/-- The fields as the index keeps them; two schemas with the same list can share an index. -/
def Schema.storage (schema : Schema) : List (String × FieldStorage) :=
  schema.tables.storage

end DocIndex
