import DocIndex.Proofs.Schema.Tables
import DocIndex.Proofs.Schema.Validity
import Mathlib.Data.List.Forall2
import Mathlib.Data.List.Sort

/-!
The fields of a schema. No two of them have the same name, so that a name stands for one position at
most, and full-text queries that name no field look at fields whose terms can be looked up.
-/

namespace DocIndex

namespace Schema

theorem isValid (schema : Schema) : schema.definition.IsValid :=
  SchemaDef.isValid_of_check schema.checked

theorem nodup_names (schema : Schema) : (schema.fields.map (·.name)).Nodup :=
  schema.isValid.distinct

/-- A name that is kept for the index itself is that of no field. -/
theorem name_ne_of_isReservedName (schema : Schema) {name : String}
    (hname : isReservedName name = true) : ∀ field ∈ schema.fields, field.name ≠ name := by
  rintro field hfield rfl
  exact schema.isValid.unreserved field hfield (isReservedName_iff.mp hname)

theorem field?_unique {schema : Schema} {id other : FieldId} {field another : FieldDef}
    (hfield : schema.field? id = some field) (hanother : schema.field? other = some another)
    (hname : field.name = another.name) : id = other := by
  have hid : id < (schema.fields.map (·.name)).length := by
    rw [List.length_map]
    exact (List.getElem?_eq_some_iff.mp hfield).1
  refine (List.getElem?_inj hid schema.nodup_names).mp ?_
  rw [field?] at hfield hanother
  rw [List.getElem?_map, List.getElem?_map, hfield, hanother, Option.map_some, Option.map_some,
    hname]

/-- A position is that of the one field of a name. -/
def Names (schema : Schema) (name : String) (id : FieldId) : Prop :=
  ∀ other, (∃ field, schema.field? other = some field ∧ field.name = name) ↔ other = id

theorem names_of_field? {schema : Schema} {id : FieldId} {field : FieldDef}
    (hfield : schema.field? id = some field) : schema.Names field.name id := by
  intro other
  constructor
  · rintro ⟨another, hanother, hname⟩
    exact field?_unique hanother hfield hname
  · rintro rfl
    exact ⟨field, hfield, rfl⟩

theorem Names.unique {schema : Schema} {name : String} {id other : FieldId}
    (hid : schema.Names name id) (hother : schema.Names name other) : id = other :=
  (hother id).mp ((hid id).mpr rfl)

/-- The tables of a schema hold its fields. -/
theorem tables_hold (schema : Schema) : schema.tables.Hold schema.fields :=
  Tables.hold_empty.addAll (Option.some_get schema.isSome_tables?).symm

theorem storage_eq (schema : Schema) :
    schema.storage = schema.fields.map fun field => (field.name, field.storage) :=
  schema.tables_hold.storage

theorem lookup?_eq_some_iff {schema : Schema} {name : String} {id : FieldId} {field : FieldDef} :
    schema.lookup? name = some (id, field) ↔ schema.field? id = some field ∧ field.name = name := by
  rw [lookup?, Option.map_eq_some_iff]
  constructor
  · rintro ⟨compiled, hcompiled, hpair⟩
    obtain ⟨rfl, rfl⟩ := Prod.mk.inj hpair
    exact (schema.tables_hold.ofName?_eq_some_iff schema.nodup_names).mp hcompiled
  · intro hfield
    exact ⟨⟨id, field⟩,
      (schema.tables_hold.ofName?_eq_some_iff schema.nodup_names).mpr hfield, rfl⟩

theorem find?_eq_some_iff {schema : Schema} {name : String} {id : FieldId} :
    schema.find? name = some id ↔ ∃ field, schema.field? id = some field ∧ field.name = name := by
  have hfound : schema.find? name = some id ↔ ∃ field, schema.lookup? name = some (id, field) := by
    simp [find?, lookup?]
  simp only [hfound, lookup?_eq_some_iff]

theorem find?_eq_none_iff {schema : Schema} {name : String} :
    schema.find? name = none ↔ ∀ field ∈ schema.fields, field.name ≠ name := by
  rw [Option.eq_none_iff_forall_ne_some]
  simp only [ne_eq, find?_eq_some_iff, not_exists, not_and]
  constructor
  · intro hnone field hfield
    obtain ⟨id, hid⟩ := List.mem_iff_getElem?.mp hfield
    exact hnone id field hid
  · intro hnone id field hid
    exact hnone field (List.mem_of_getElem? hid)

theorem lookup?_eq_some {schema : Schema} {name : String} {id : FieldId} {field : FieldDef}
    (hlookup : schema.lookup? name = some (id, field)) :
    schema.field? id = some field ∧ schema.Names name id := by
  obtain ⟨hfield, rfl⟩ := lookup?_eq_some_iff.mp hlookup
  exact ⟨hfield, names_of_field? hfield⟩

def declared (schema : Schema) (name : String) : List FieldDef :=
  schema.fields.filter (·.name = name)

/-- A field is found under its name. -/
theorem lookup?_of_field? {schema : Schema} {id : FieldId} {field : FieldDef}
    (hfield : schema.field? id = some field) :
    schema.lookup? field.name = some (id, field) :=
  lookup?_eq_some_iff.mpr ⟨hfield, rfl⟩

theorem declared_of_lookup?_none {schema : Schema} {name : String}
    (hlookup : schema.lookup? name = none) : schema.declared name = [] := by
  rw [declared, List.filter_eq_nil_iff]
  intro field hfield hname
  obtain ⟨id, hid⟩ := List.mem_iff_getElem?.mp hfield
  rw [← decide_eq_true_eq.mp hname, lookup?_of_field? hid] at hlookup
  contradiction

/-- A field is the only one that is declared under its name. -/
theorem declared_of_field? {schema : Schema} {id : FieldId} {field : FieldDef}
    (hfield : schema.field? id = some field) : schema.declared field.name = [field] := by
  have hmem : field ∈ schema.fields := List.mem_of_getElem? hfield
  have hnodup : (schema.declared field.name).Nodup :=
    (List.Nodup.of_map _ schema.nodup_names).filter _
  rw [← List.perm_singleton, List.perm_ext_iff_of_nodup hnodup (List.nodup_singleton field)]
  intro other
  rw [declared, List.mem_filter, decide_eq_true_eq, List.mem_singleton]
  constructor
  · rintro ⟨hother, hname⟩
    exact List.inj_on_of_nodup_map schema.nodup_names hother hmem hname
  · rintro rfl
    exact ⟨hmem, rfl⟩

theorem declared_of_lookup? {schema : Schema} {name : String} {id : FieldId} {field : FieldDef}
    (hlookup : schema.lookup? name = some (id, field)) : schema.declared name = [field] := by
  obtain ⟨hfield, hnames⟩ := lookup?_eq_some hlookup
  obtain ⟨another, hanother, rfl⟩ := (hnames id).mpr rfl
  obtain rfl := Option.some.inj (hfield.symm.trans hanother)
  exact declared_of_field? hfield

/-- A position is that of a text field whose terms can be looked up. -/
def Searchable (schema : Schema) (id : FieldId) : Prop :=
  ∃ field, schema.field? id = some field ∧ field.isSearchable = true

/-- The declared search fields in order, or all fields that are indexed and cut into terms. -/
def AreDefaults (schema : Schema) (ids : List FieldId) : Prop :=
  match schema.definition.searchFields with
  | [] => ids.Pairwise (· < ·) ∧ ∀ id, id ∈ ids ↔
      ∃ field, schema.field? id = some field ∧ field.indexed = true ∧ field.isTokenized = true
  | names => List.Forall₂ schema.Names names ids

/-- A schema has one list of default fields. -/
theorem AreDefaults.unique {schema : Schema} {ids others : List FieldId}
    (hids : schema.AreDefaults ids) (hothers : schema.AreDefaults others) : ids = others := by
  unfold AreDefaults at hids hothers
  generalize schema.definition.searchFields = names at hids hothers
  cases names with
  | nil =>
      apply hids.1.eq_of_mem_iff hothers.1
      intro id
      rw [hids.2, hothers.2]
  | cons name rest =>
      have hunique : Relator.RightUnique schema.Names := fun _ _ _ => Names.unique
      exact hunique.forall₂ hids hothers

/-- The names of the default fields: those that are declared, or of all that are cut into terms. -/
def defaultNames (schema : Schema) : List String :=
  match schema.definition.searchFields with
  | [] => (schema.fields.filter fun field => field.indexed && field.isTokenized).map (·.name)
  | names => names

/-- The positions of the fields that satisfy a condition. -/
def positionsWhere (keeps : FieldDef → Bool) (schema : Schema) : List FieldId :=
  (schema.fields.zipIdx.filter fun entry => keeps entry.1).map (·.2)

theorem mem_positionsWhere {schema : Schema} {keeps : FieldDef → Bool} {id : FieldId} :
    id ∈ schema.positionsWhere keeps ↔ ∃ field, schema.field? id = some field ∧ keeps field := by
  simp [positionsWhere, List.mem_zipIdx_iff_getElem?, field?]

theorem pairwise_positionsWhere (schema : Schema) (keeps : FieldDef → Bool) :
    (schema.positionsWhere keeps).Pairwise (· < ·) := by
  have hzip : (schema.fields.zipIdx.map (·.2)).Pairwise (· < ·) := by
    rw [List.zipIdx_map_snd]
    exact List.pairwise_lt_range'
  exact hzip.sublist (List.filter_sublist.map _)

theorem targets_of_nil {schema : Schema} (hnone : schema.definition.searchFields = []) :
    schema.targets =
      schema.positionsWhere fun field => field.indexed && field.isTokenized := by
  rw [targets, hnone, Tables.targets, schema.tables_hold.fields, List.mapIdx_eq_zipIdx_map,
    List.filter_map, List.map_map]
  rfl

theorem targets_of_cons {schema : Schema} {name : String} {rest : List String}
    (hsome : schema.definition.searchFields = name :: rest) :
    schema.targets = (name :: rest).filterMap schema.find? := by
  rw [targets, hsome]
  rfl

theorem filterMap_find?_of_searchable {schema : Schema} {names : List String}
    (hnames : ∀ name ∈ names, ∃ field ∈ schema.fields,
      field.name = name ∧ field.kind = .text ∧ field.indexed = true) :
    List.Forall₂ schema.Names names (names.filterMap schema.find?) ∧
      ∀ id ∈ names.filterMap schema.find?, schema.Searchable id := by
  induction names with
  | nil => simp
  | cons name rest ih =>
      obtain ⟨field, hfield, rfl, hsearchable⟩ := hnames name List.mem_cons_self
      obtain ⟨id, hget⟩ := List.mem_iff_getElem?.mp hfield
      have hid : schema.find? field.name = some id := find?_eq_some_iff.mpr ⟨field, hget, rfl⟩
      obtain ⟨hrest, hall⟩ := ih fun other hother => hnames other (List.mem_cons_of_mem _ hother)
      rw [List.filterMap_cons_some hid]
      refine ⟨.cons (names_of_field? hget) hrest, ?_⟩
      intro other hother
      rcases List.mem_cons.mp hother with rfl | hmem
      · exact ⟨field, hget, FieldDef.isSearchable_iff.mpr hsearchable⟩
      · exact hall other hmem

/-- The default fields are what a schema says they are, and their terms can be looked up. -/
theorem targets_areDefaults (schema : Schema) :
    schema.AreDefaults schema.targets ∧ ∀ id ∈ schema.targets, schema.Searchable id := by
  have hdeclared := schema.isValid.searchable
  unfold AreDefaults
  cases hnames : schema.definition.searchFields with
  | nil =>
      rw [targets_of_nil hnames]
      refine ⟨⟨pairwise_positionsWhere schema _, ?_⟩, ?_⟩
      · intro id
        simp only [mem_positionsWhere, Bool.and_eq_true]
      · intro id hid
        obtain ⟨field, hfield, hkeeps⟩ := mem_positionsWhere.mp hid
        refine ⟨field, hfield, ?_⟩
        simp only [FieldDef.isTokenized, FieldDef.isSearchable, Bool.and_eq_true] at hkeeps ⊢
        exact ⟨hkeeps.2.1, hkeeps.1⟩
  | cons name rest =>
      rw [targets_of_cons hnames]
      exact filterMap_find?_of_searchable (hnames ▸ hdeclared)

theorem names_positionsWhere (schema : Schema) (keeps : FieldDef → Bool) :
    List.Forall₂ schema.Names ((schema.fields.filter keeps).map (·.name))
      (schema.positionsWhere keeps) := by
  have hfields : schema.fields.filter keeps =
      (schema.fields.zipIdx.filter fun entry => keeps entry.1).map (·.1) := by
    conv_lhs => rw [← List.zipIdx_map_fst 0 schema.fields, List.filter_map]
    rfl
  rw [hfields, positionsWhere, List.map_map, List.forall₂_map_left_iff,
    List.forall₂_map_right_iff, List.forall₂_same]
  intro entry hentry
  exact names_of_field? (List.mem_zipIdx_iff_getElem?.mp (List.mem_of_mem_filter hentry))

/-- The default fields have the default names. -/
theorem names_targets (schema : Schema) :
    List.Forall₂ schema.Names schema.defaultNames schema.targets := by
  have hdefaults := schema.targets_areDefaults.1
  unfold AreDefaults at hdefaults
  unfold defaultNames
  cases hsearch : schema.definition.searchFields with
  | cons name rest =>
      rw [hsearch] at hdefaults
      exact hdefaults
  | nil =>
      rw [targets_of_nil hsearch]
      exact names_positionsWhere schema _

end Schema

/-- For novels: titles as text, and years that have a column. -/
def libraryDefinition : SchemaDef where
  fields := [{ name := "title", kind := .text }, { name := "year", kind := .i64, fast := true }]

def librarySchema : Schema :=
  ⟨libraryDefinition, by rfl⟩

end DocIndex
