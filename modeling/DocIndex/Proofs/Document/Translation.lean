import DocIndex.Proofs.Document.Row
import DocIndex.Proofs.Lookup
import DocIndex.Proofs.Query.Rules
import DocIndex.Proofs.Text.Bytes

/-!
Translating documents. The text of an object becomes a document if every field that it gives a value
takes that value; the document then has these values in the order of the fields, and the keys that
are not declared, in the order of their bytes. A strict translation refuses an undeclared key before
it looks at any value, and differs in nothing else. The order of the members means nothing.
-/

namespace DocIndex

/-- A field of some kind makes a typed value of a JSON value. -/
inductive FieldKind.Means : FieldKind → Json → FieldValue → Prop where
  | text (s : String) : Means .text (.string s) (.text s)
  | i64 (n : Int64) : Means .i64 (.integer n.toInt) (.i64 n)
  /-- An integer becomes the nearest float. -/
  | nearest (n : Int) : Means .f64 (.integer n) (.f64 (Json.floatOfInteger n))
  | f64 (x : Float) : Means .f64 (.float x) (.f64 x)

/-- A field takes what the members of an object give it, if they give it anything. -/
def FieldDef.TakesFrom (members : List (String × Json)) (field : FieldDef) : Prop :=
  ∀ given, Json.Given members field.name given → field.kind.Takes given

/-- A key of an object is the name of no field. -/
def Schema.Undeclared (schema : Schema) (members : List (String × Json)) (key : String) : Prop :=
  (∃ member ∈ members, member.1 = key) ∧ ∀ field ∈ schema.fields, field.name ≠ key

namespace Document

/-- A document has what the members of an object give to the fields of a schema. -/
structure Translates (schema : Schema) (members : List (String × Json)) (document : Document) :
    Prop where
  /-- The values stand in the order of the fields, one for a field at most. -/
  inOrder : document.values.Pairwise fun a b => a.1 < b.1
  values : ∀ id value, (id, value) ∈ document.values ↔
    ∃ field given, schema.field? id = some field ∧ Json.Given members field.name given ∧
      field.kind.Means given value
  /-- The undeclared keys stand in the order of their bytes, each of them once. -/
  ascending : document.ignored.Pairwise fun a b => Text.bytes a < Text.bytes b
  ignored : ∀ key, key ∈ document.ignored ↔ schema.Undeclared members key

/-- The fault of the first field, in the order of the schema, that does not take its value. -/
def FirstMismatch (schema : Schema) (members : List (String × Json)) (fault : DocumentError) :
    Prop :=
  ∃ before field after given, schema.fields = before ++ field :: after ∧
    (∀ other ∈ before, other.TakesFrom members) ∧ Json.Given members field.name given ∧
    ¬field.kind.Takes given ∧ fault = .typeMismatch field.name field.kind given.canonical

/-- What comes of an object, by whether undeclared keys are refused. -/
structure IsTranslation (schema : Schema) (members : List (String × Json))
    (outcome : Bool → Except DocumentError Document) : Prop where
  succeeds : (∃ document, outcome false = .ok document) ↔
    ∀ field ∈ schema.fields, field.TakesFrom members
  translates : ∀ document, outcome false = .ok document ↔
    (∀ field ∈ schema.fields, field.TakesFrom members) ∧ Translates schema members document
  mismatch : ∀ fault, outcome false = .error fault ↔ FirstMismatch schema members fault
  strict : ∀ document, outcome true = .ok document ↔
    outcome false = .ok document ∧ document.ignored = []
  /-- Whatever else is wrong, the least undeclared key is refused. -/
  unknown : ∀ name, outcome true = .error (.unknownField name) ↔
    schema.Undeclared members name ∧
      ∀ key, schema.Undeclared members key → key ≠ name → Text.bytes name < Text.bytes key
  refused : (∃ key, schema.Undeclared members key) →
    ∃ name, outcome true = .error (.unknownField name)
  declared : (¬∃ key, schema.Undeclared members key) → outcome true = outcome false

end Document

/-! Values -/

theorem FieldKind.means_iff {kind : FieldKind} {json : Json} {value : FieldValue} :
    kind.Means json value ↔ FieldValue.ofJson? kind json = some value := by
  constructor
  · rintro (s | n | n | x)
    · rfl
    · have hrange : -(signWeight : Int) ≤ n.toInt ∧ n.toInt < (signWeight : Int) :=
        ⟨n.le_toInt, n.toInt_lt⟩
      simp only [FieldValue.ofJson?, Json.int64?, if_pos hrange, Int64.ofInt_toInt, Option.map_some]
    · rfl
    · rfl
  · intro hvalue
    cases kind with
    | text =>
        cases json <;> simp [FieldValue.ofJson?] at hvalue
        subst hvalue
        exact .text _
    | i64 =>
        cases json <;> simp [FieldValue.ofJson?, Json.int64?] at hvalue
        obtain ⟨⟨hlow, hhigh⟩, rfl⟩ := hvalue
        rename_i n
        have hmeans := Means.i64 (Int64.ofInt n)
        rw [Int64.toInt_ofInt_of_le hlow hhigh] at hmeans
        exact hmeans
    | f64 =>
        cases json <;> simp [FieldValue.ofJson?, Json.float?] at hvalue
        · subst hvalue
          exact .nearest _
        · subst hvalue
          exact .f64 _

theorem FieldKind.Means.unique {kind : FieldKind} {json : Json} {value other : FieldValue}
    (hvalue : kind.Means json value) (hother : kind.Means json other) : value = other :=
  Option.some.inj ((FieldKind.means_iff.mp hvalue).symm.trans (FieldKind.means_iff.mp hother))

theorem FieldKind.Means.ne_null {kind : FieldKind} {json : Json} {value : FieldValue}
    (hvalue : kind.Means json value) : json ≠ .null := by
  cases hvalue <;> simp

/-- Only values without parts become values of fields. -/
theorem FieldValue.ofJson?_canonical (kind : FieldKind) (json : Json) :
    ofJson? kind json.canonical = ofJson? kind json := by
  cases kind <;> cases json <;> rfl

theorem FieldDef.takesFrom_iff {members : List (String × Json)} {field : FieldDef} :
    field.TakesFrom members ↔ ∀ given, Json.Given members field.name given →
      ∃ value, field.kind.Means given value := by
  simp only [TakesFrom, FieldKind.takes_iff, FieldKind.means_iff]

namespace Json

variable {key : String} {members others : List (String × Json)}

theorem exists_lookup_iff :
    (∃ value, lookup key members = some value) ↔ ∃ member ∈ members, member.1 = key := by
  constructor
  · rintro ⟨value, hvalue⟩
    exact ⟨(key, value), mem_of_lookup hvalue, rfl⟩
  · rintro ⟨member, hmember, rfl⟩
    induction members with
    | nil => contradiction
    | cons first rest ih =>
        obtain ⟨k, v⟩ := first
        rw [lookup]
        split
        · exact ⟨v, rfl⟩
        · rename_i hkey
          rcases List.mem_cons.mp hmember with rfl | hrest
          · exact absurd rfl hkey
          · exact ih hrest

/-- The members of the canonical object with the same text. -/
abbrev canonicalized (members : List (String × Json)) : List (String × Json) :=
  sortMembers (canonicalMembers members)

/-- Under its key the canonical object has what the object gives, or `null`, or nothing. -/
theorem lookup_canonicalized {json : Json} :
    lookup key (canonicalized members) = some json ∧ json ≠ .null ↔
      ∃ given, Given members key given ∧ given.canonical = json := by
  rw [lookup_sortMembers_canonicalMembers, Option.map_eq_some_iff]
  constructor
  · rintro ⟨⟨given, hgiven, rfl⟩, hnull⟩
    exact ⟨given, given_iff.mpr ⟨hgiven, mt canonical_eq_null_iff.mpr hnull⟩, rfl⟩
  · rintro ⟨given, hgiven, rfl⟩
    obtain ⟨hlookup, hnull⟩ := given_iff.mp hgiven
    exact ⟨⟨given, hlookup, rfl⟩, mt canonical_eq_null_iff.mp hnull⟩

theorem mem_keys_canonicalized :
    (∃ member ∈ canonicalized members, member.1 = key) ↔ ∃ member ∈ members, member.1 = key := by
  rw [← exists_lookup_iff, lookup_sortMembers_canonicalMembers]
  simp only [Option.map_eq_some_iff]
  rw [exists_comm]
  simp only [exists_and_left, exists_eq', and_true, exists_lookup_iff, List.mem_reverse]

/-- The canonical object does not depend on the order of members with different keys. -/
theorem canonicalized_perm (hperm : members.Perm others) (hnodup : (members.map (·.1)).Nodup) :
    canonicalized members = canonicalized others := by
  apply (ascending_sortMembers _).ext (ascending_sortMembers _)
  intro key
  ext json
  rw [lookup_sortMembers_canonicalMembers, lookup_sortMembers_canonicalMembers]
  have hlookup : lookup key members.reverse = lookup key others.reverse := by
    ext value
    have hothers : (others.map (·.1)).Nodup := (hperm.map _).nodup_iff.mp hnodup
    rw [lookup_eq_some_iff_mem (by simpa using hnodup),
      lookup_eq_some_iff_mem (by simpa using hothers), List.mem_reverse, List.mem_reverse,
      hperm.mem_iff]
  rw [hlookup]

end Json

namespace Document

variable {schema : Schema} {members : List (String × Json)} {id : FieldId}
  {fields : List FieldDef} {values : List (FieldId × FieldValue)}

/-- The values stand in the order of the fields they are for. -/
theorem positions_sublist (hvalues : valuesFrom members id fields = .ok values) :
    (values.map (·.1)).Sublist (List.range' id fields.length) := by
  induction fields generalizing id values with
  | nil =>
      obtain rfl := Except.ok.inj hvalues
      exact .slnil
  | cons field rest ih =>
      obtain ⟨later, hlater, ⟨-, rfl⟩ | ⟨json, value, -, -, rfl⟩⟩ := valuesFrom_cons_eq_ok hvalues
      · exact (ih hlater).cons id
      · exact (ih hlater).cons_cons id

theorem mem_valuesFrom (hvalues : valuesFrom members id fields = .ok values) {other : FieldId}
    {value : FieldValue} :
    (other, value) ∈ values ↔ ∃ field json, (field, other) ∈ fields.zipIdx id ∧
      Json.lookup field.name members = some json ∧
      FieldValue.ofJson? field.kind json = some value := by
  induction fields generalizing id values with
  | nil =>
      obtain rfl := Except.ok.inj hvalues
      simp
  | cons first rest ih =>
      obtain ⟨later, hlater, ⟨hnone, rfl⟩ | ⟨json, found, hjson, hfound, rfl⟩⟩ :=
        valuesFrom_cons_eq_ok hvalues
      · rw [ih hlater]
        rcases hnone with hnone | hnone <;>
          simp [List.zipIdx_cons, or_and_right, exists_or, hnone, FieldValue.ofJson?_null]
      · rw [List.mem_cons, ih hlater]
        simp [List.zipIdx_cons, or_and_right, exists_or, hjson, hfound, eq_comm, and_assoc]

/-- Values are refused for the first field that does not take what it is given. -/
theorem valuesFrom_eq_error {fault : DocumentError}
    (hfault : valuesFrom members id fields = .error fault) :
    ∃ before field after json, fields = before ++ field :: after ∧
      (∃ values, valuesFrom members id before = .ok values) ∧
      Json.lookup field.name members = some json ∧ json ≠ .null ∧
      FieldValue.ofJson? field.kind json = none ∧
      fault = .typeMismatch field.name field.kind json := by
  induction fields generalizing id with
  | nil => contradiction
  | cons field rest ih =>
      rw [valuesFrom] at hfault
      split at hfault
      · rename_i hnone
        obtain ⟨before, other, after, json, rfl, ⟨values, hvalues⟩, hrest⟩ := ih hfault
        refine ⟨field :: before, other, after, json, rfl, ⟨values, ?_⟩, hrest⟩
        rw [valuesFrom, hnone]
        exact hvalues
      · rename_i hnull
        obtain ⟨before, other, after, json, rfl, ⟨values, hvalues⟩, hrest⟩ := ih hfault
        refine ⟨field :: before, other, after, json, rfl, ⟨values, ?_⟩, hrest⟩
        rw [valuesFrom, hnull]
        exact hvalues
      · rename_i json hnull hjson
        split at hfault
        · rename_i hvalue
          obtain rfl := Except.error.inj hfault
          exact ⟨[], field, rest, json, rfl, ⟨[], rfl⟩, hjson, hnull, hvalue, rfl⟩
        · rename_i value hvalue
          split at hfault
          · rename_i other hother
            obtain rfl := Except.error.inj hfault
            obtain ⟨before, other, after, found, rfl, ⟨values, hvalues⟩, hrest⟩ := ih hother
            refine ⟨field :: before, other, after, found, rfl, ⟨(id, value) :: values, ?_⟩, hrest⟩
            simp only [valuesFrom, hjson, hvalue, hvalues]
          · contradiction

/-- Fields of which there are values take what they are given. -/
theorem takesFrom_of_valuesFrom
    (hvalues : valuesFrom (Json.canonicalized members) id fields = .ok values) {field : FieldDef}
    (hfield : field ∈ fields) : field.TakesFrom members := by
  rw [FieldDef.takesFrom_iff]
  intro given hgiven
  obtain ⟨hlookup, hnull⟩ := Json.lookup_canonicalized.mpr ⟨given, hgiven, rfl⟩
  obtain ⟨value, hvalue⟩ := exists_of_valuesFrom hvalues hfield hlookup hnull
  rw [FieldValue.ofJson?_canonical] at hvalue
  exact ⟨value, FieldKind.means_iff.mpr hvalue⟩

theorem firstMismatch_of_valuesFrom {fault : DocumentError}
    (hfault : valuesFrom (Json.canonicalized members) id schema.fields = .error fault) :
    FirstMismatch schema members fault := by
  obtain ⟨before, field, after, json, hfields, ⟨values, hvalues⟩, hjson, hnull, hvalue, rfl⟩ :=
    valuesFrom_eq_error hfault
  obtain ⟨given, hgiven, rfl⟩ := Json.lookup_canonicalized.mp ⟨hjson, hnull⟩
  refine ⟨before, field, after, given, hfields, ?_, hgiven, ?_, rfl⟩
  · exact fun other hother => takesFrom_of_valuesFrom hvalues hother
  · rw [FieldKind.takes_iff, ← FieldValue.ofJson?_canonical, hvalue]
    simp

open Classical in
theorem find?_of_firstMismatch {before after : List FieldDef} {field : FieldDef} {given : Json}
    (hfields : fields = before ++ field :: after)
    (hbefore : ∀ other ∈ before, other.TakesFrom members)
    (hgiven : Json.Given members field.name given) (htakes : ¬field.kind.Takes given) :
    fields.find? (fun other => ¬other.TakesFrom members) = some field := by
  rw [List.find?_eq_some_iff_append]
  refine ⟨?_, before, after, hfields, ?_⟩
  · rw [decide_eq_true_eq]
    exact fun hall => htakes (hall given hgiven)
  · simpa using hbefore

/-- There is one such fault at most. -/
theorem FirstMismatch.unique {fault another : DocumentError}
    (hfault : FirstMismatch schema members fault)
    (hanother : FirstMismatch schema members another) : fault = another := by
  obtain ⟨before, field, after, given, hfields, hbefore, hgiven, htakes, rfl⟩ := hfault
  obtain ⟨before', field', after', given', hfields', hbefore', hgiven', htakes', rfl⟩ := hanother
  have hfirst := find?_of_firstMismatch hfields hbefore hgiven htakes
  obtain rfl : field = field' := Option.some.inj
    (hfirst.symm.trans (find?_of_firstMismatch hfields' hbefore' hgiven' htakes'))
  obtain rfl : given = given' := Option.some.inj
    ((Json.given_iff.mp hgiven).1.symm.trans (Json.given_iff.mp hgiven').1)
  rfl

theorem FirstMismatch.not_takesFrom {fault : DocumentError}
    (hfault : FirstMismatch schema members fault) :
    ¬∀ field ∈ schema.fields, field.TakesFrom members := by
  obtain ⟨before, field, after, given, hfields, -, hgiven, htakes, -⟩ := hfault
  intro hall
  have hfield : field ∈ schema.fields := by
    rw [hfields]
    exact List.mem_append_right _ List.mem_cons_self
  exact htakes (hall field hfield given hgiven)

/-! Undeclared keys -/

theorem mem_unknownKeys {key : String} :
    key ∈ unknownKeys schema (Json.canonicalized members) ↔ schema.Undeclared members key := by
  rw [unknownKeys, List.mem_filter, List.mem_map, Json.mem_keys_canonicalized]
  simp [Schema.Undeclared, Schema.find?_eq_none_iff]

theorem ascending_unknownKeys (schema : Schema) (members : List (String × Json)) :
    (unknownKeys schema (Json.canonicalized members)).Pairwise
      fun a b => Text.bytes a < Text.bytes b := by
  apply List.Pairwise.filter
  rw [List.pairwise_map]
  exact (Json.ascending_sortMembers _).imp Text.bytes_lt

/-! Documents -/

/-- Lists in strict order with the same entries are equal. -/
theorem eq_of_pairwise {α : Type} {before : α → α → Prop}
    (hasymm : ∀ a b, before a b → ¬before b a) {as bs : List α} (has : as.Pairwise before)
    (hbs : bs.Pairwise before) (hmem : ∀ a, a ∈ as ↔ a ∈ bs) : as = bs :=
  have : Std.Asymm before := ⟨hasymm⟩
  has.eq_of_mem_iff hbs hmem

/-- The value of a field is what the object gives to it. -/
theorem Translates.value?_eq_some_iff {document : Document}
    (hdocument : Translates schema members document) {field : FieldDef}
    (hfield : schema.field? id = some field) {value : FieldValue} :
    document.value? id = some value ↔
      ∃ given, Json.Given members field.name given ∧ field.kind.Means given value := by
  have hnodup : (document.values.map (·.1)).Nodup :=
    List.pairwise_map.mpr (hdocument.inOrder.imp Nat.ne_of_lt)
  rw [value?, lookup_eq_some_iff_mem hnodup, hdocument.values]
  simp [hfield]

/-- An object has one translation at most. -/
theorem Translates.unique {document another : Document}
    (hdocument : Translates schema members document)
    (hanother : Translates schema members another) : document = another := by
  obtain ⟨values, ignored⟩ := document
  obtain ⟨values', ignored'⟩ := another
  congr 1
  · apply eq_of_pairwise _ hdocument.inOrder hanother.inOrder
    · rintro ⟨id, value⟩
      rw [hdocument.values, hanother.values]
    · exact fun a b => Nat.lt_asymm
  · apply eq_of_pairwise _ hdocument.ascending hanother.ascending
    · intro key
      rw [hdocument.ignored, hanother.ignored]
    · exact fun a b => List.lt_asymm

theorem translates_of_valuesFrom
    (hvalues : valuesFrom (Json.canonicalized members) 0 schema.fields = .ok values) :
    Translates schema members ⟨values, unknownKeys schema (Json.canonicalized members)⟩ where
  inOrder := by
    have hpositions : (List.range' 0 schema.fields.length).Pairwise (· < ·) :=
      List.pairwise_lt_range'
    exact List.pairwise_map.mp (hpositions.sublist (positions_sublist hvalues))
  values id value := by
    rw [mem_valuesFrom hvalues]
    simp only [List.mem_zipIdx_iff_getElem?, FieldKind.means_iff]
    constructor
    · rintro ⟨field, json, hfield, hjson, hvalue⟩
      have hnull : json ≠ .null := by
        rintro rfl
        rw [FieldValue.ofJson?_null] at hvalue
        contradiction
      obtain ⟨given, hgiven, rfl⟩ := Json.lookup_canonicalized.mp ⟨hjson, hnull⟩
      rw [FieldValue.ofJson?_canonical] at hvalue
      exact ⟨field, given, hfield, hgiven, hvalue⟩
    · rintro ⟨field, given, hfield, hgiven, hvalue⟩
      obtain ⟨hjson, -⟩ := Json.lookup_canonicalized.mpr ⟨given, hgiven, rfl⟩
      rw [← FieldValue.ofJson?_canonical] at hvalue
      exact ⟨field, given.canonical, hfield, hjson, hvalue⟩
  ascending := ascending_unknownKeys schema members
  ignored _ := mem_unknownKeys

theorem ofMembers_false (schema : Schema) (members : List (String × Json)) :
    ofMembers schema members false =
      (valuesFrom members 0 schema.fields).map fun values =>
        ⟨values, unknownKeys schema members⟩ := by
  simp only [ofMembers]
  cases valuesFrom members 0 schema.fields <;> rfl

theorem ofMembers_true_of_nil (hnone : unknownKeys schema members = []) :
    ofMembers schema members true = ofMembers schema members false := by
  simp only [ofMembers, hnone]

theorem ofMembers_true_of_cons {name : String} {rest : List String}
    (hsome : unknownKeys schema members = name :: rest) :
    ofMembers schema members true = .error (.unknownField name) := by
  simp only [ofMembers, hsome]

/-- Leniently there is a document if every field takes what it is given, and it is the one. -/
theorem ofMembers_false_eq_ok_iff {document : Document} :
    ofMembers schema (Json.canonicalized members) false = .ok document ↔
      (∀ field ∈ schema.fields, field.TakesFrom members) ∧
        Translates schema members document := by
  rw [ofMembers_false, map_eq_ok_iff]
  constructor
  · rintro ⟨values, hvalues, rfl⟩
    exact ⟨fun field => takesFrom_of_valuesFrom hvalues, translates_of_valuesFrom hvalues⟩
  · rintro ⟨htakes, hdocument⟩
    cases hvalues : valuesFrom (Json.canonicalized members) 0 schema.fields with
    | error fault => exact absurd htakes (firstMismatch_of_valuesFrom hvalues).not_takesFrom
    | ok values => exact ⟨values, rfl, (translates_of_valuesFrom hvalues).unique hdocument⟩

/-- Leniently there is no fault but that of the first field that does not take its value. -/
theorem ofMembers_false_eq_error_iff {fault : DocumentError} :
    ofMembers schema (Json.canonicalized members) false = .error fault ↔
      FirstMismatch schema members fault := by
  rw [ofMembers_false]
  cases hvalues : valuesFrom (Json.canonicalized members) 0 schema.fields with
  | ok values =>
      have htakes : ∀ field ∈ schema.fields, field.TakesFrom members :=
        fun field => takesFrom_of_valuesFrom hvalues
      simp only [Except.map, reduceCtorEq, false_iff]
      exact fun hfault => hfault.not_takesFrom htakes
  | error other =>
      have hother := firstMismatch_of_valuesFrom hvalues
      simp only [Except.map, Except.error.injEq]
      constructor
      · rintro rfl
        exact hother
      · exact hother.unique

theorem ignored_of_ofMembers_false {document : Document}
    (hdocument : ofMembers schema members false = .ok document) :
    document.ignored = unknownKeys schema members := by
  rw [ofMembers_false, map_eq_ok_iff] at hdocument
  obtain ⟨values, -, rfl⟩ := hdocument
  rfl

/-- Strictly there is the same document, unless a key is undeclared. -/
theorem ofMembers_true_eq_ok_iff {document : Document} :
    ofMembers schema members true = .ok document ↔
      ofMembers schema members false = .ok document ∧ document.ignored = [] := by
  cases hkeys : unknownKeys schema members with
  | nil =>
      rw [ofMembers_true_of_nil hkeys]
      constructor
      · exact fun hdocument => ⟨hdocument, (ignored_of_ofMembers_false hdocument).trans hkeys⟩
      · exact And.left
  | cons name rest =>
      rw [ofMembers_true_of_cons hkeys]
      simp only [reduceCtorEq, false_iff, not_and]
      intro hdocument
      rw [ignored_of_ofMembers_false hdocument, hkeys]
      exact List.cons_ne_nil _ _

/-- Strictly the least of the undeclared keys is refused, whatever the values. -/
theorem ofMembers_true_eq_unknown_iff {name : String} :
    ofMembers schema (Json.canonicalized members) true = .error (.unknownField name) ↔
      schema.Undeclared members name ∧
        ∀ key, schema.Undeclared members key → key ≠ name →
          Text.bytes name < Text.bytes key := by
  have hordered := ascending_unknownKeys schema members
  simp only [← mem_unknownKeys]
  cases hkeys : unknownKeys schema (Json.canonicalized members) with
  | nil =>
      rw [ofMembers_true_of_nil hkeys, ofMembers_false_eq_error_iff]
      simp only [List.not_mem_nil, false_and, iff_false]
      rintro ⟨-, field, -, given, -, -, -, -, hfault⟩
      contradiction
  | cons first rest =>
      rw [hkeys, List.pairwise_cons] at hordered
      rw [ofMembers_true_of_cons hkeys, Except.error.injEq, DocumentError.unknownField.injEq]
      constructor
      · rintro rfl
        refine ⟨List.mem_cons_self, ?_⟩
        intro key hkey hne
        exact hordered.1 key ((List.mem_cons.mp hkey).resolve_left hne)
      · rintro ⟨hname, hleast⟩
        rcases List.mem_cons.mp hname with rfl | hrest
        · rfl
        · by_contra hne
          have hfirst := hleast first List.mem_cons_self hne
          exact List.lt_asymm hfirst (hordered.1 name hrest)

/-- The members of an object, whatever their order, come to a translation. -/
theorem isTranslation_ofMembers (schema : Schema) (members : List (String × Json)) :
    IsTranslation schema members (ofMembers schema (Json.canonicalized members)) where
  succeeds := by
    simp only [ofMembers_false_eq_ok_iff, exists_and_left, and_iff_left_iff_imp]
    intro htakes
    cases hvalues : valuesFrom (Json.canonicalized members) 0 schema.fields with
    | error fault => exact absurd htakes (firstMismatch_of_valuesFrom hvalues).not_takesFrom
    | ok values => exact ⟨_, translates_of_valuesFrom hvalues⟩
  translates _ := ofMembers_false_eq_ok_iff
  mismatch _ := ofMembers_false_eq_error_iff
  strict _ := ofMembers_true_eq_ok_iff
  unknown _ := ofMembers_true_eq_unknown_iff
  refused := by
    rintro ⟨key, hkey⟩
    rw [← mem_unknownKeys] at hkey
    obtain ⟨name, rest, hkeys⟩ := List.exists_cons_of_ne_nil (List.ne_nil_of_mem hkey)
    exact ⟨name, ofMembers_true_of_cons hkeys⟩
  declared hnone := by
    apply ofMembers_true_of_nil
    rw [List.eq_nil_iff_forall_not_mem]
    exact fun key hkey => hnone ⟨key, mem_unknownKeys.mp hkey⟩

theorem ofText_of_read {text : String} (hread : Json.read text = .ok (.object members)) :
    ofText schema text = ofMembers schema (Json.canonicalized members) := by
  funext strict
  simp only [ofText, Json.parse, hread, Except.map, Json.canonical]

/--
A text that holds an object is translated as the object says, and a text that holds none is refused.
Two objects whose members differ in nothing but their order are translated alike.
-/
theorem ofText_isTranslation (schema : Schema) (text : String) :
    (∀ members, Json.read text = .ok (.object members) →
      IsTranslation schema members (ofText schema text)) ∧
    (∀ json, Json.read text = .ok json → (∀ members, json ≠ .object members) →
      ∀ strict, ofText schema text strict = .error (.notAnObject json.canonical)) ∧
    (∀ fault, Json.read text = .error fault →
      ∀ strict, ofText schema text strict = .error (.malformed fault)) ∧
    ∀ other members others, Json.read text = .ok (.object members) →
      Json.read other = .ok (.object others) → members.Perm others →
      (members.map (·.1)).Nodup → ofText schema other = ofText schema text := by
  refine ⟨?_, ?_, ?_, ?_⟩
  · intro members hread
    rw [ofText_of_read hread]
    exact isTranslation_ofMembers schema members
  · intro json hread hobject strict
    simp only [ofText, Json.parse, hread, Except.map]
    cases json with
    | object members => exact absurd rfl (hobject members)
    | null | bool | integer | float | string | array => rfl
  · intro fault hread strict
    simp only [ofText, Json.parse, hread, Except.map]
  · intro other members others hread hother hperm hnodup
    rw [ofText_of_read hread, ofText_of_read hother, Json.canonicalized_perm hperm hnodup]

end Document

/-- A novel for a library, with two keys that a library does not declare. -/
def mobyText : String :=
  "\x7b\"year\": 1851, \"pages\": 635, \"title\": \"Moby-Dick\", \"author\": null\x7d"

/-- The same object, written from its end. -/
def mobyReversed : String :=
  "\x7b\"author\": null, \"title\": \"Moby-Dick\", \"pages\": 635, \"year\": 1851\x7d"

def mobyMembers : List (String × Json) :=
  [("year", .integer 1851), ("pages", .integer 635), ("title", .string "Moby-Dick"),
    ("author", .null)]

def mobyDocument : Document :=
  ⟨[(0, .text "Moby-Dick"), (1, .i64 1851)], ["author", "pages"]⟩

theorem moby_translated : Json.read mobyText = .ok (.object mobyMembers) ∧
    Json.read mobyReversed = .ok (.object mobyMembers.reverse) ∧
    Document.ofText librarySchema mobyReversed false = .ok mobyDocument ∧
    Document.Translates librarySchema mobyMembers mobyDocument ∧
    Document.ofText librarySchema mobyText true = .error (.unknownField "author") := by
  have hread : Json.read mobyText = .ok (.object mobyMembers) := rfl
  have hreversed : Json.read mobyReversed = .ok (.object mobyMembers.reverse) := rfl
  obtain ⟨htext, -, -, hperm⟩ := Document.ofText_isTranslation librarySchema mobyText
  have hsame := hperm _ _ _ hread hreversed (List.reverse_perm _).symm (by decide)
  have hlenient : Document.ofText librarySchema mobyText false = .ok mobyDocument :=
    toOption_eq_some_iff.mp (by decide +kernel)
  have hauthor : librarySchema.Undeclared mobyMembers "author" := by
    simp [Schema.Undeclared, mobyMembers, Schema.fields, librarySchema, libraryDefinition]
  refine ⟨hread, hreversed, ?_, ?_, ?_⟩
  · rw [hsame]
    exact hlenient
  · exact (((htext _ hread).translates _).mp hlenient).2
  · refine ((htext _ hread).unknown _).mpr ⟨hauthor, ?_⟩
    rintro key ⟨⟨member, hmember, rfl⟩, hfields⟩ hne
    apply Text.bytes_lt
    simp only [mobyMembers, List.mem_cons, List.not_mem_nil, or_false] at hmember
    rcases hmember with rfl | rfl | rfl | rfl
    · exact absurd rfl (hfields _ (List.mem_cons_of_mem _ List.mem_cons_self))
    · decide
    · exact absurd rfl (hfields _ List.mem_cons_self)
    · exact absurd rfl hne

end DocIndex
