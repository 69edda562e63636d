import DocIndex.Proofs.Document.Translation
import DocIndex.Proofs.Index.Exporting
import DocIndex.Proofs.Json.ShortFloats

/-!
Rows that are taken in again as documents. The text of a row is read as the row, up to its floats,
and the row gives to each field what the document has of it. So the document comes back with the
same texts and integers under the same fields, and with each float as it is read from its own text;
the score, which no field can be named after, is ignored.
-/

namespace DocIndex

namespace FieldValue

def mapFloat (f : Float → Float) : FieldValue → FieldValue
  | .f64 x => .f64 (f x)
  | .text s => .text s
  | .i64 n => .i64 n

/-- The value is no float that has no number. -/
def IsFinite (value : FieldValue) : Prop :=
  ∀ x, value = .f64 x → x.isFinite = true

/-- A finite value has its kind after its float was replaced within its JSON. -/
theorem means_mapFloats {value : FieldValue} (hvalue : value.IsFinite) (f : Float → Float) :
    value.kind.Means (value.toJson.mapFloats f) (value.mapFloat f) := by
  cases value with
  | text s => exact .text s
  | i64 n => exact .i64 n
  | f64 x =>
      rw [toJson, Json.ofFloat, if_pos (hvalue x rfl)]
      exact .f64 (f x)

theorem nesting_toJson (value : FieldValue) : value.toJson.nesting = 0 := by
  cases value with
  | text | i64 => rfl
  | f64 x =>
      rw [toJson, Json.ofFloat]
      split <;> rfl

theorem proper_toJson (value : FieldValue) : value.toJson.Proper := by
  cases value with
  | text s => exact Json.proper_string s
  | i64 n => exact Json.proper_integer (Json.isWord_toInt n)
  | f64 x =>
      rw [toJson, Json.ofFloat]
      split
      · rename_i hx
        exact Json.proper_float hx
      · exact Json.proper_null

end FieldValue

/-- What a field makes of a value that was read. -/
theorem FieldKind.Means.isFinite {kind : FieldKind} {json : Json} {value : FieldValue}
    (hvalue : kind.Means json value) (hjson : json.Proper) :
    value.kind = kind ∧ value.IsFinite := by
  cases hvalue with
  | text | i64 => exact ⟨rfl, fun x hx => by contradiction⟩
  | nearest n =>
      refine ⟨rfl, fun x hx => ?_⟩
      obtain rfl := FieldValue.f64.inj hx
      exact Json.isFinite_floatOfInteger n
  | f64 y =>
      refine ⟨rfl, fun x hx => ?_⟩
      obtain rfl := FieldValue.f64.inj hx
      exact hjson (.float y) (by simp [Json.parts])

namespace Document

variable {schema : Schema} {document : Document}

/-- The values stand in the order of the fields, and are such as come from texts. -/
structure IsTyped (schema : Schema) (document : Document) : Prop where
  inOrder : document.values.Pairwise fun a b => a.1 < b.1
  typed : ∀ id value, (id, value) ∈ document.values →
    ∃ field, schema.field? id = some field ∧ value.kind = field.kind ∧ value.IsFinite

theorem isTyped_of_ofText {text : String}
    (hdocument : ofText schema text false = .ok document) : document.IsTyped schema := by
  obtain ⟨members, hread, -⟩ := ofText_eq_ok hdocument
  have htranslation := (ofText_isTranslation schema text).1 members hread
  obtain ⟨-, htranslates⟩ := (htranslation.translates document).mp hdocument
  refine ⟨htranslates.inOrder, fun id value hvalue => ?_⟩
  obtain ⟨field, given, hfield, hgiven, hmeans⟩ := (htranslates.values id value).mp hvalue
  obtain ⟨before, after, rfl, -⟩ := hgiven
  have hproper := (Json.proper_of_read hread).member _
    (List.mem_append_right before List.mem_cons_self)
  exact ⟨field, hfield, hmeans.isFinite hproper⟩

theorem IsTyped.value?_eq_some_iff (hdocument : document.IsTyped schema) {id : FieldId}
    {value : FieldValue} : document.value? id = some value ↔ (id, value) ∈ document.values :=
  lookup_eq_some_iff_mem (List.pairwise_map.mpr (hdocument.inOrder.imp Nat.ne_of_lt))

/-! The row as an object -/

/-- Each member of a row is a value of some kind. -/
theorem exists_toJson_of_mem_rowMembers {score : Float32} {member : String × Json}
    (hmember : member ∈ document.rowMembers schema score) :
    ∃ value : FieldValue, member.2 = value.toJson := by
  rcases List.mem_append.mp hmember with hstored | hscore
  · obtain ⟨id, field, -, -, -, hshown⟩ := Schema.mem_storedMembers.mp hstored
    obtain ⟨value, -, hshown⟩ := Option.bind_eq_some_iff.mp hshown
    rw [FieldValue.shown?] at hshown
    split at hshown
    · exact ⟨value, (Option.some.inj hshown).symm⟩
    · contradiction
  · obtain rfl := List.mem_singleton.mp hscore
    exact ⟨.f64 score.toFloat, rfl⟩

/-- What the text of a row is read as. -/
def rereadMembers (schema : Schema) (document : Document) (score : Float32) :
    List (String × Json) :=
  Json.mapFloatsOfMembers Json.reread (Json.sortMembers (document.rowMembers schema score))

theorem read_row (schema : Schema) (document : Document) (score : Float32) :
    Json.read (document.row schema score).compact =
      .ok (.object (document.rereadMembers schema score)) := by
  have hscalar {member : String × Json}
      (hmember : member ∈ Json.sortMembers (document.rowMembers schema score)) :
      ∃ value : FieldValue, member.2 = value.toJson :=
    exists_toJson_of_mem_rowMembers
      ((Json.sortMembers_perm (document.nodup_rowMembers schema score)).mem_iff.mp hmember)
  apply Json.read_compact_of_proper
  · apply Json.proper_object
    intro member hmember
    obtain ⟨value, hvalue⟩ := hscalar hmember
    rw [hvalue]
    exact value.proper_toJson
  · have hflat : Json.nestingOfMembers
        (Json.sortMembers (document.rowMembers schema score)) = 0 := by
      apply Json.nestingOfMembers_eq_zero
      intro member hmember
      obtain ⟨value, hvalue⟩ := hscalar hmember
      rw [hvalue, value.nesting_toJson]
    show Json.nestingOfMembers (Json.sortMembers (document.rowMembers schema score)) + 1 ≤ _
    rw [hflat]
    decide

theorem keys_rereadMembers (schema : Schema) (document : Document) (score : Float32) :
    (document.rereadMembers schema score).map (·.1) =
      (Json.sortMembers (document.rowMembers schema score)).map (·.1) := by
  rw [rereadMembers, Json.mapFloatsOfMembers_eq_map, List.map_map]
  rfl

/-- What is read of a row gives each key what the row shows under it. -/
theorem given_rereadMembers_iff {score : Float32} {key : String} {given : Json} :
    Json.Given (document.rereadMembers schema score) key given ↔
      given ≠ .null ∧ ∃ json, (key, json) ∈ document.rowMembers schema score ∧
        json.mapFloats Json.reread = given := by
  have hnodup : ((document.rereadMembers schema score).map (·.1)).Nodup := by
    rw [keys_rereadMembers]
    exact (Json.ascending_sortMembers _).nodup_keys
  rw [Json.given_iff, Json.lookup_reverse hnodup, rereadMembers, Json.lookup_mapFloatsOfMembers,
    Option.map_eq_some_iff, and_comm]
  simp only [Json.lookup_sortMembers_eq_some_iff (document.nodup_rowMembers schema score)]

/-- Of a stored field that is what the document has of it. -/
theorem IsTyped.given_iff (hdocument : document.IsTyped schema) {score : Float32} {id : FieldId}
    {field : FieldDef} (hfield : schema.field? id = some field) (hstored : field.stored = true)
    {given : Json} :
    Json.Given (document.rereadMembers schema score) field.name given ↔
      ∃ value, (id, value) ∈ document.values ∧ value.toJson.mapFloats Json.reread = given := by
  rw [given_rereadMembers_iff]
  constructor
  · rintro ⟨-, json, hmember, rfl⟩
    rcases List.mem_append.mp hmember with hshown | hscore
    · obtain ⟨other, another, hother, hname, -, hshown⟩ := Schema.mem_storedMembers.mp hshown
      obtain rfl := Schema.field?_unique hother hfield hname
      obtain ⟨value, hvalue, hshown⟩ := Option.bind_eq_some_iff.mp hshown
      rw [FieldValue.shown?] at hshown
      split at hshown
      · obtain rfl := Option.some.inj hshown
        exact ⟨value, hdocument.value?_eq_some_iff.mp hvalue, rfl⟩
      · contradiction
    · have hname := (Prod.mk.inj (List.mem_singleton.mp hscore)).1
      exact absurd hname
        (schema.name_ne_of_isReservedName (by decide) field (List.mem_of_getElem? hfield))
  · rintro ⟨value, hvalue, rfl⟩
    obtain ⟨another, hanother, hkind, hfinite⟩ := hdocument.typed id value hvalue
    obtain rfl := Option.some.inj (hanother.symm.trans hfield)
    refine ⟨(FieldValue.means_mapFloats hfinite _).ne_null, value.toJson, ?_, rfl⟩
    refine List.mem_append_left _ (Schema.mem_storedMembers.mpr ?_)
    refine ⟨id, another, hfield, rfl, hstored, ?_⟩
    rw [hdocument.value?_eq_some_iff.mpr hvalue, Option.bind_some, FieldValue.shown?,
      if_pos hkind]

/-- The document that comes of a row. -/
def reread (document : Document) : Document where
  values := document.values.map fun entry => (entry.1, entry.2.mapFloat Json.reread)
  ignored := [scoreKey]

theorem IsTyped.translates (hdocument : document.IsTyped schema)
    (hall : ∀ field ∈ schema.fields, field.stored = true) (score : Float32) :
    Translates schema (document.rereadMembers schema score) document.reread where
  inOrder := List.pairwise_map.mpr hdocument.inOrder
  values id value := by
    rw [reread, List.mem_map]
    constructor
    · rintro ⟨⟨other, found⟩, hfound, heq⟩
      obtain ⟨rfl, rfl⟩ := Prod.mk.inj heq
      obtain ⟨field, hfield, hkind, hfinite⟩ := hdocument.typed _ _ hfound
      have hstored := hall field (List.mem_of_getElem? hfield)
      exact ⟨field, _, hfield, (hdocument.given_iff hfield hstored).mpr ⟨found, hfound, rfl⟩,
        hkind ▸ FieldValue.means_mapFloats hfinite _⟩
    · rintro ⟨field, given, hfield, hgiven, hmeans⟩
      have hstored := hall field (List.mem_of_getElem? hfield)
      obtain ⟨found, hfound, rfl⟩ := (hdocument.given_iff hfield hstored).mp hgiven
      obtain ⟨another, hanother, hkind, hfinite⟩ := hdocument.typed id found hfound
      obtain rfl := Option.some.inj (hanother.symm.trans hfield)
      have hsame := hmeans.unique (hkind ▸ FieldValue.means_mapFloats hfinite _)
      exact ⟨(id, found), hfound, by rw [hsame]⟩
  ascending := List.pairwise_singleton _ _
  ignored key := by
    have hperm := (Json.sortMembers_perm (document.nodup_rowMembers schema score)).map (·.1)
    rw [keys_rowMembers, ← keys_rereadMembers] at hperm
    have hkeys : (∃ member ∈ document.rereadMembers schema score, member.1 = key) ↔
        key ∈ document.shownNames schema ∨ key = scoreKey := by
      rw [← List.mem_map, hperm.mem_iff, List.mem_append, List.mem_singleton]
    rw [reread, List.mem_singleton, Schema.Undeclared, hkeys]
    constructor
    · rintro rfl
      exact ⟨.inr rfl, schema.name_ne_of_isReservedName (by decide)⟩
    · rintro ⟨hname | hscore, hnone⟩
      · obtain ⟨field, hfield, rfl⟩ := exists_field_of_mem_shownNames hname
        exact absurd rfl (hnone field hfield)
      · exact hscore

/-- The text of a row of stored fields is taken in as the document that comes of the row. -/
theorem IsTyped.ofText_row (hdocument : document.IsTyped schema)
    (hall : ∀ field ∈ schema.fields, field.stored = true) (score : Float32) :
    ofText schema (document.row schema score).compact false = .ok document.reread := by
  have hread := document.read_row schema score
  have htranslation := (ofText_isTranslation schema _).1 _ hread
  refine (htranslation.translates document.reread).mpr ⟨?_, hdocument.translates hall score⟩
  intro field hmem
  rw [FieldDef.takesFrom_iff]
  intro given hgiven
  obtain ⟨id, hfield⟩ := List.mem_iff_getElem?.mp hmem
  obtain ⟨value, hvalue, rfl⟩ := (hdocument.given_iff hfield (hall field hmem)).mp hgiven
  obtain ⟨another, hanother, hkind, hfinite⟩ := hdocument.typed id value hvalue
  obtain rfl := Option.some.inj (hanother.symm.trans hfield)
  exact ⟨_, hkind ▸ FieldValue.means_mapFloats hfinite _⟩

/-- Values come back unchanged just when each float does. -/
theorem reread_eq_iff : document.reread = ⟨document.values, [scoreKey]⟩ ↔
    ∀ id x, (id, .f64 x) ∈ document.values → Json.reread x = x := by
  rw [reread, Document.mk.injEq, and_iff_left rfl]
  constructor
  · intro hsame id x hx
    have hentry := List.map_eq_map_iff.mp (hsame.trans (List.map_id _).symm) _ hx
    exact FieldValue.f64.inj (Prod.mk.inj hentry).2
  · intro hfloats
    refine (List.map_congr_left ?_).trans (List.map_id _)
    rintro ⟨id, value⟩ hvalue
    cases value with
    | text | i64 => rfl
    | f64 x => simp [FieldValue.mapFloat, hfloats id x hvalue]

end Document

/--
Let all fields be stored, and search for anything. Each row within the text of the answer that shows
a document that came from a text can be taken in as a document again. This has the same fields in
the same order with the same texts and integers, each float is what its own text is read as, and
nothing but the score is ignored. So it has the values of the first document just when all of their
floats are read as themselves, and all short floats are.
-/
theorem Index.rows_reimported [Segmenter] {index : Index} {state : OpenIndex} {text output : String}
    (hstate : index.state = some state) (hsearch : index.searchText text = .ok output)
    (hall : ∀ field ∈ state.schema.fields, field.stored = true) :
    ∃ (page : Page) (hits : List Hit) (counts : List Char), index.search text = .ok page ∧
      (hits.map (·.2)).Subperm state.committed ∧ page.rows = rowsOf state.schema hits ∧
      output.toList = "\x7b\"results\":[".toList ++
        ([','].intercalate (page.rows.map fun row => row.compact.toList) ++ ']' :: counts) ∧
      ∀ hit ∈ hits, ∀ source, Document.ofText state.schema source false = .ok hit.2 →
        let row := (hit.2.row state.schema hit.1).compact
        Document.ofText state.schema row false =
          .ok ⟨hit.2.values.map fun entry => (entry.1, entry.2.mapFloat Json.reread),
            [scoreKey]⟩ ∧
        (Document.ofText state.schema row false = .ok ⟨hit.2.values, [scoreKey]⟩ ↔
          ∀ id x, (id, .f64 x) ∈ hit.2.values → Json.reread x = x) ∧
        ∀ id x, (id, .f64 x) ∈ hit.2.values → Json.IsShort x → Json.reread x = x := by
  obtain ⟨page, hits, hpage, rfl, hcommitted, hrows⟩ := page_of_searchText hstate hsearch
  obtain ⟨counts, htext⟩ := page.toList_toText
  refine ⟨page, hits, counts, hpage, hcommitted, hrows, htext, ?_⟩
  rintro ⟨score, document⟩ - source hsource row
  have htyped := Document.isTyped_of_ofText hsource
  have hrow := htyped.ofText_row hall score
  refine ⟨hrow, ?_, fun id x hx => ?_⟩
  · rw [hrow, Except.ok.injEq, Document.reread_eq_iff]
  · obtain ⟨-, -, -, hfinite⟩ := htyped.typed id _ hx
    exact Json.reread_of_isShort (hfinite x rfl)

def heightSchema : Schema where
  definition :=
    { fields := [{ name := "label", kind := .text }, { name := "height", kind := .f64 }] }
  checked := rfl

def labelled (label : String) (height : Float) : Document :=
  ⟨[(0, .text label), (1, .f64 height)], []⟩

section

attribute [local instance] Segmenter.byRuns

/-- A half is short, so it is read as itself. -/
theorem mast_reimported : ∃ (output : String) (score : Float32) (counts : List Char),
    (Index.shelfIndex heightSchema (labelled "mast" 0.5)).searchText Index.allText = .ok output ∧
    output.toList = "\x7b\"results\":[".toList ++
      (((labelled "mast" 0.5).row heightSchema score).compact.toList ++ ']' :: counts) ∧
    Document.ofText heightSchema "\x7b\"height\": 0.5, \"label\": \"mast\"\x7d" false =
      .ok (labelled "mast" 0.5) ∧
    Document.ofText heightSchema ((labelled "mast" 0.5).row heightSchema score).compact false =
      .ok ⟨(labelled "mast" 0.5).values, ["_score"]⟩ := by
  obtain ⟨page, score, hpage, hsearch, hrows⟩ :=
    @Index.shelf_searched _ heightSchema (labelled "mast" 0.5) (by decide +kernel)
  obtain ⟨found, hits, counts, hfound, hcommitted, hshown, htext, hreimported⟩ :=
    Index.rows_reimported rfl hsearch (by decide)
  obtain rfl := Except.ok.inj (hpage.symm.trans hfound)
  obtain ⟨shown, rfl⟩ := Index.hits_of_rows hcommitted hshown (congrArg List.length hrows)
  have hsource : Document.ofText heightSchema
      "\x7b\"height\": 0.5, \"label\": \"mast\"\x7d" false = .ok (labelled "mast" 0.5) :=
    toOption_eq_some_iff.mp (by decide +kernel)
  obtain ⟨-, hsame, hshort⟩ := hreimported _ List.mem_cons_self _ hsource
  refine ⟨_, shown, counts, hsearch, ?_, hsource, hsame.mpr ?_⟩
  · rw [htext, hshown, rowsOf, List.map_singleton, List.map_singleton, List.intercalate_singleton]
  · intro id x hx
    refine hshort id x hx ?_
    obtain ⟨-, rfl⟩ : id = 1 ∧ x = 0.5 := by simpa [labelled] using hx
    decide +kernel

end

/-- The float closest to 12.070162795213857, which is read as the one before it. -/
def misread : Float :=
  .ofBits 0x402823ec60bdadce

section

attribute [local instance] Segmenter.byRuns

/-- With all its digits the height is read, with those of the row it is missed. -/
theorem height_not_reimported : ∃ (output : String) (score : Float32) (counts : List Char),
    (Index.shelfIndex heightSchema (labelled "mast" misread)).searchText Index.allText =
      .ok output ∧
    output.toList = "\x7b\"results\":[".toList ++
      (((labelled "mast" misread).row heightSchema score).compact.toList ++ ']' :: counts) ∧
    Document.ofText heightSchema
      "\x7b\"label\": \"mast\", \"height\": 12.0701627952138570\x7d" false =
      .ok (labelled "mast" misread) ∧
    Document.ofText heightSchema ((labelled "mast" misread).row heightSchema score).compact
      false ≠ .ok ⟨(labelled "mast" misread).values, ["_score"]⟩ := by
  obtain ⟨page, score, -, hsearch, hrows⟩ :=
    @Index.shelf_searched _ heightSchema (labelled "mast" misread) (by decide +kernel)
  obtain ⟨counts, htext⟩ := page.toList_toText
  have hsource : Document.ofText heightSchema
      "\x7b\"label\": \"mast\", \"height\": 12.0701627952138570\x7d" false =
      .ok (labelled "mast" misread) :=
    toOption_eq_some_iff.mp (by decide +kernel)
  refine ⟨_, score, counts, hsearch, ?_, hsource, ?_⟩
  · rw [htext, hrows, List.map_singleton, List.intercalate_singleton]
  · rw [(Document.isTyped_of_ofText hsource).ofText_row (by decide) score]
    intro hsame
    have hread : Json.reread misread = misread :=
      Document.reread_eq_iff.mp (Except.ok.inj hsame) 1 misread (by simp [labelled])
    exact absurd hread (by decide +kernel)

end

end DocIndex
