import DocIndex.Proofs.Json.Members
import DocIndex.Proofs.Json.Proper
import DocIndex.Proofs.Schema.Fields
import DocIndex.Search.Page

/-!
Rows of documents. Beside the score a row shows what the text of its document gives to the stored
fields, and nothing else. A store that keeps the values of stored fields only gives back a document
with the same row.
-/

namespace DocIndex

/-! What an object gives to its keys -/

/-- The last member with the key has the value, which is not `null`. -/
def Json.Given (members : List (String × Json)) (key : String) (value : Json) : Prop :=
  ∃ before after, members = before ++ (key, value) :: after ∧
    (∀ member ∈ after, member.1 ≠ key) ∧ value ≠ .null

/-- How a field of some kind shows a value that was given to it. -/
inductive FieldKind.Shows : FieldKind → Json → Json → Prop where
  | text (s : String) : Shows .text (.string s) (.string s)
  | i64 {n : Int} (hlow : -(signWeight : Int) ≤ n) (hhigh : n < (signWeight : Int)) :
      Shows .i64 (.integer n) (.integer n)
  /-- An integer is shown as the nearest float. -/
  | nearest (n : Int) : Shows .f64 (.integer n) (.float (Json.floatOfInteger n))
  | f64 (x : Float) : Shows .f64 (.float x) (.float x)

namespace FieldKind.Shows

variable {kind : FieldKind} {given value other : Json}

theorem unique (hvalue : kind.Shows given value) (hother : kind.Shows given other) :
    value = other := by
  cases hvalue <;> cases hother <;> rfl

theorem ne_null (hvalue : kind.Shows given value) : value ≠ .null := by
  cases hvalue <;> simp

end FieldKind.Shows

/-- Members in ascending order show what an object gives to the stored fields, and nothing else. -/
structure ShowsGiven (fields : List FieldDef) (members shown : List (String × Json)) : Prop where
  ascending : Json.Ascending shown
  complete : ∀ field ∈ fields, field.stored = true → ∀ given,
    Json.Given members field.name given →
      ∃ value, Json.lookup field.name shown = some value ∧ field.kind.Shows given value
  sound : ∀ key value, Json.lookup key shown = some value →
    ∃ field ∈ fields, field.name = key ∧ field.stored = true ∧
      ∃ given, Json.Given members key given ∧ field.kind.Shows given value

namespace ShowsGiven

variable {fields : List FieldDef} {members shown another : List (String × Json)}

theorem lookup_of_lookup (hshown : ShowsGiven fields members shown)
    (hanother : ShowsGiven fields members another) {key : String} {value : Json}
    (hfound : Json.lookup key shown = some value) : Json.lookup key another = some value := by
  obtain ⟨field, hfield, rfl, hstored, given, hgiven, hvalue⟩ := hshown.sound key value hfound
  obtain ⟨other, hother, hshows⟩ := hanother.complete field hfield hstored given hgiven
  rw [hother, hvalue.unique hshows]

/-- There is one such list at most. -/
theorem unique (hshown : ShowsGiven fields members shown)
    (hanother : ShowsGiven fields members another) : shown = another := by
  apply hshown.ascending.ext hanother.ascending
  intro key
  ext value
  exact ⟨hshown.lookup_of_lookup hanother, hanother.lookup_of_lookup hshown⟩

theorem ne_null (hshown : ShowsGiven fields members shown) {member : String × Json}
    (hmember : member ∈ shown) : member.2 ≠ .null := by
  obtain ⟨field, -, -, -, given, -, hshows⟩ :=
    hshown.sound _ _ (Json.lookup_of_mem hshown.ascending hmember)
  exact hshows.ne_null

end ShowsGiven

/-- The row of a document that the text of an object means. -/
structure IsRow (fields : List FieldDef) (members : List (String × Json)) (score : Float32)
    (shown : List (String × Json)) : Prop where
  ascending : Json.Ascending shown
  score : Json.lookup scoreKey shown = some (scoreJson score)
  /-- No field can be taken for the score. -/
  apart : ∀ field ∈ fields, field.name ≠ scoreKey
  present : ∀ member ∈ shown, member.1 ≠ scoreKey → member.2 ≠ .null
  /-- What the row shows beside the score is the one object that shows what was given. -/
  given : ∀ others, ShowsGiven fields members others ↔
    others = shown.filter fun member => member.1 ≠ scoreKey

/-! Values of fields -/

theorem Json.isFinite_floatOfInteger (n : Int) : (floatOfInteger n).isFinite = true := by
  cases n with
  | ofNat n => exact (Decimal.endsBy_toFloat _).isFinite
  | negSucc n => exact Decimal.isFinite_neg (Decimal.endsBy_toFloat _).isFinite

/-- A value that a field takes is shown by it. -/
theorem FieldValue.shows_of_ofJson? {kind : FieldKind} {given : Json} {value : FieldValue}
    (hgiven : given.Proper) (hvalue : ofJson? kind given.canonical = some value) :
    ∃ shown, value.shown? kind = some shown ∧ kind.Shows given shown := by
  cases kind with
  | text =>
      cases given <;> simp [Json.canonical, ofJson?] at hvalue
      subst hvalue
      exact ⟨_, rfl, .text _⟩
  | i64 =>
      cases given <;> simp [Json.canonical, ofJson?, Json.int64?] at hvalue
      obtain ⟨⟨hlow, hhigh⟩, rfl⟩ := hvalue
      refine ⟨_, rfl, ?_⟩
      rw [toJson, Int64.toInt_ofInt_of_le hlow hhigh]
      exact .i64 hlow hhigh
  | f64 =>
      cases given <;> simp [Json.canonical, ofJson?, Json.float?] at hvalue
      · subst hvalue
        refine ⟨_, rfl, ?_⟩
        rw [toJson, Json.ofFloat, if_pos (Json.isFinite_floatOfInteger _)]
        exact .nearest _
      · rename_i x
        subst hvalue
        have hfinite : x.isFinite = true := hgiven (.float x) (by simp [Json.parts])
        refine ⟨_, rfl, ?_⟩
        rw [toJson, Json.ofFloat, if_pos hfinite]
        exact .f64 x

theorem FieldValue.ofJson?_null (kind : FieldKind) : ofJson? kind .null = none := by
  cases kind <;> rfl

/-! Documents -/

namespace Document

section

variable {members : List (String × Json)} {id : FieldId} {fields : List FieldDef}
  {values : List (FieldId × FieldValue)}

/-- What the first of some fields adds to the values of the later ones. -/
theorem valuesFrom_cons_eq_ok {field : FieldDef}
    (hvalues : valuesFrom members id (field :: fields) = .ok values) :
    ∃ later, valuesFrom members (id + 1) fields = .ok later ∧
      ((Json.lookup field.name members = none ∨ Json.lookup field.name members = some .null) ∧
          values = later ∨
        ∃ json value, Json.lookup field.name members = some json ∧
          FieldValue.ofJson? field.kind json = some value ∧ values = (id, value) :: later) := by
  rw [valuesFrom] at hvalues
  split at hvalues
  · rename_i hnone
    exact ⟨values, hvalues, .inl ⟨.inl hnone, rfl⟩⟩
  · rename_i hnull
    exact ⟨values, hvalues, .inl ⟨.inr hnull, rfl⟩⟩
  · rename_i json _ hjson
    split at hvalues
    · contradiction
    · rename_i value hvalue
      split at hvalues
      · contradiction
      · rename_i later hlater
        exact ⟨later, hlater, .inr ⟨json, value, hjson, hvalue, (Except.ok.inj hvalues).symm⟩⟩

theorem lookup_valuesFrom_of_lt (hvalues : valuesFrom members id fields = .ok values)
    {other : FieldId} (hother : other < id) : values.lookup other = none := by
  induction fields generalizing id values with
  | nil =>
      obtain rfl := Except.ok.inj hvalues
      rfl
  | cons field rest ih =>
      obtain ⟨later, hlater, ⟨-, rfl⟩ | ⟨json, value, -, -, rfl⟩⟩ := valuesFrom_cons_eq_ok hvalues
      · exact ih hlater (Nat.lt_succ_of_lt hother)
      · rw [List.lookup_cons, beq_false_of_ne hother.ne]
        exact ih hlater (Nat.lt_succ_of_lt hother)

theorem lookup_valuesFrom (hvalues : valuesFrom members id fields = .ok values) {position : Nat}
    {field : FieldDef} (hfield : fields[position]? = some field) :
    values.lookup (id + position) =
      (Json.lookup field.name members).bind (FieldValue.ofJson? field.kind) := by
  induction fields generalizing id values position with
  | nil => contradiction
  | cons first rest ih =>
      obtain ⟨later, hlater, hfirst⟩ := valuesFrom_cons_eq_ok hvalues
      cases position with
      | zero =>
          obtain rfl := Option.some.inj hfield
          obtain ⟨hnone | hnull, rfl⟩ | ⟨json, value, hjson, hvalue, rfl⟩ := hfirst
          · rw [hnone, Nat.add_zero, lookup_valuesFrom_of_lt hlater (Nat.lt_succ_self id)]
            rfl
          · rw [hnull, Nat.add_zero, lookup_valuesFrom_of_lt hlater (Nat.lt_succ_self id),
              Option.bind_some, FieldValue.ofJson?_null]
          · rw [hjson, Nat.add_zero, List.lookup_cons_self, Option.bind_some, hvalue]
      | succ position =>
          have hrest := ih hlater hfield
          rw [Nat.add_right_comm] at hrest
          obtain ⟨-, rfl⟩ | ⟨json, value, -, -, rfl⟩ := hfirst
          · exact hrest
          · have hne : id + (position + 1) ≠ id :=
              Nat.ne_of_gt (Nat.lt_add_of_pos_right position.succ_pos)
            rw [List.lookup_cons, beq_false_of_ne hne]
            exact hrest

/-- Every field takes the value that it is given. -/
theorem exists_of_valuesFrom (hvalues : valuesFrom members id fields = .ok values)
    {field : FieldDef} (hfield : field ∈ fields) {json : Json}
    (hjson : Json.lookup field.name members = some json) (hnull : json ≠ .null) :
    ∃ value, FieldValue.ofJson? field.kind json = some value := by
  induction fields generalizing id values with
  | nil => contradiction
  | cons first rest ih =>
      obtain ⟨later, hlater, hfirst⟩ := valuesFrom_cons_eq_ok hvalues
      rcases List.mem_cons.mp hfield with rfl | hrest
      · obtain ⟨hnone | hnone, -⟩ | ⟨found, value, hfound, hvalue, -⟩ := hfirst
        · rw [hjson] at hnone
          contradiction
        · exact absurd (Option.some.inj (hjson.symm.trans hnone)) hnull
        · obtain rfl := Option.some.inj (hjson.symm.trans hfound)
          exact ⟨value, hvalue⟩
      · exact ih hlater hrest

end

end Document

/-! Rows -/

def FieldStorage.kind : FieldStorage → FieldKind
  | .text _ _ _ => .text
  | .number kind _ _ _ => kind

def FieldStorage.stored : FieldStorage → Bool
  | .text stored _ _ => stored
  | .number _ _ _ stored => stored

theorem FieldDef.kind_storage (field : FieldDef) : field.storage.kind = field.kind := by
  unfold storage
  cases field.kind <;> rfl

theorem FieldDef.stored_storage (field : FieldDef) : field.storage.stored = field.stored := by
  unfold storage
  cases field.kind <;> rfl

def shownMember? (document : Document) : (String × FieldStorage) × FieldId → Option (String × Json)
  | ((name, storage), id) =>
      if storage.stored then
        ((document.value? id).bind (FieldValue.shown? storage.kind)).map (name, ·)
      else none

theorem storedMembers_eq_filterMap (document : Document) (id : FieldId) (fields : List FieldDef) :
    storedMembers document id fields =
      ((fields.map fun field => (field.name, field.storage)).zipIdx id).filterMap
        (shownMember? document) := by
  induction fields generalizing id with
  | nil => rfl
  | cons field rest ih =>
      rw [storedMembers, ih, List.map_cons, List.zipIdx_cons, List.filterMap_cons, shownMember?,
        field.kind_storage, field.stored_storage]
      cases field.stored with
      | false => rfl
      | true =>
          cases (document.value? id).bind (FieldValue.shown? field.kind) <;> rfl

namespace Schema

variable {schema another : Schema} {document back : Document}

theorem storedMembers_eq (schema : Schema) (document : Document) :
    storedMembers document 0 schema.fields =
      schema.storage.zipIdx.filterMap (shownMember? document) := by
  rw [storage_eq]
  exact storedMembers_eq_filterMap document 0 schema.fields

/-- Schemas that can share an index show the same rows. -/
theorem row_of_storage_eq (hstorage : schema.storage = another.storage) (document : Document)
    (score : Float32) : document.row schema score = document.row another score := by
  rw [Document.row, Document.row, storedMembers_eq, storedMembers_eq, hstorage]

/-- Schemas that can share an index have fields that show the same. -/
theorem exists_of_storage_eq (hstorage : schema.storage = another.storage) {field : FieldDef}
    (hfield : field ∈ schema.fields) :
    ∃ other ∈ another.fields,
      other.name = field.name ∧ other.kind = field.kind ∧ other.stored = field.stored := by
  have hmember := List.mem_map_of_mem (f := fun field => (field.name, field.storage)) hfield
  rw [← storage_eq, hstorage, storage_eq] at hmember
  obtain ⟨other, hother, heq⟩ := List.mem_map.mp hmember
  obtain ⟨hname, hsame⟩ := Prod.mk.inj heq
  refine ⟨other, hother, hname, ?_, ?_⟩
  · rw [← other.kind_storage, hsame, field.kind_storage]
  · rw [← other.stored_storage, hsame, field.stored_storage]

theorem showsGiven_of_storage_eq (hstorage : schema.storage = another.storage)
    {members shown : List (String × Json)} (hshown : ShowsGiven schema.fields members shown) :
    ShowsGiven another.fields members shown where
  ascending := hshown.ascending
  complete field hfield hstored := by
    obtain ⟨other, hother, hname, hkind, hsame⟩ := exists_of_storage_eq hstorage.symm hfield
    rw [← hname, ← hkind]
    exact hshown.complete other hother (hsame.trans hstored)
  sound key value hfound := by
    obtain ⟨field, hfield, hname, hstored, given, hgiven, hshows⟩ := hshown.sound key value hfound
    obtain ⟨other, hother, hother_name, hkind, hsame⟩ := exists_of_storage_eq hstorage hfield
    refine ⟨other, hother, hother_name.trans hname, hsame.trans hstored, given, hgiven, ?_⟩
    rw [hkind]
    exact hshows

theorem isRow_of_storage_eq (hstorage : schema.storage = another.storage)
    {members shown : List (String × Json)} {score : Float32}
    (hrow : IsRow schema.fields members score shown) :
    IsRow another.fields members score shown where
  ascending := hrow.ascending
  score := hrow.score
  apart := another.name_ne_of_isReservedName (by decide)
  present := hrow.present
  given others := by
    rw [← hrow.given others]
    exact ⟨showsGiven_of_storage_eq hstorage.symm, showsGiven_of_storage_eq hstorage⟩

theorem mem_storage_iff {name : String} {storage : FieldStorage} {id : FieldId} :
    ((name, storage), id) ∈ schema.storage.zipIdx ↔
      ∃ field, schema.field? id = some field ∧ field.name = name ∧ field.storage = storage := by
  rw [List.mem_zipIdx_iff_getElem?, storage_eq, List.getElem?_map, Option.map_eq_some_iff]
  simp only [Prod.mk.injEq, field?]

/-- A store that keeps the values of stored fields and no others gives back the second document. -/
def Keeps (schema : Schema) (document back : Document) : Prop :=
  ∀ id field, schema.field? id = some field →
    back.value? id = if field.stored then document.value? id else none

/-- Of a document, a row shows no more than a store keeps. -/
theorem Keeps.row (hkeeps : schema.Keeps document back) (score : Float32) :
    back.row schema score = document.row schema score := by
  rw [Document.row, Document.row, storedMembers_eq, storedMembers_eq]
  congr 3
  apply List.filterMap_congr
  rintro ⟨⟨name, storage⟩, id⟩ hmember
  obtain ⟨field, hfield, rfl, rfl⟩ := mem_storage_iff.mp hmember
  rw [shownMember?, shownMember?, hkeeps id field hfield, field.stored_storage]
  split <;> rfl

/-- A document less all that a store does not keep of it. -/
def kept (schema : Schema) (document : Document) : Document where
  values := document.values.filter fun value => (schema.field? value.1).any (·.stored)
  ignored := []

theorem keeps_kept (schema : Schema) (document : Document) :
    schema.Keeps document (schema.kept document) := by
  intro id field hfield
  obtain ⟨values, ignored⟩ := document
  rw [Document.value?, Document.value?, kept]
  induction values with
  | nil => simp
  | cons value rest ih =>
      obtain ⟨other, v⟩ := value
      by_cases hid : id = other
      · subst hid
        by_cases hstored : field.stored = true
        · simp [hfield, hstored]
        · simpa [hfield, hstored] using ih
      · have hne : (id == other) = false := beq_false_of_ne hid
        rw [List.lookup_cons, hne, ← ih, List.filter_cons]
        split
        · rw [List.lookup_cons, hne]
        · rfl

theorem mem_storedMembers {key : String} {json : Json} :
    (key, json) ∈ storedMembers document 0 schema.fields ↔
      ∃ id field, schema.field? id = some field ∧ field.name = key ∧ field.stored = true ∧
        (document.value? id).bind (FieldValue.shown? field.kind) = some json := by
  rw [storedMembers_eq, List.mem_filterMap]
  constructor
  · rintro ⟨⟨⟨name, storage⟩, id⟩, hmember, hshown⟩
    obtain ⟨field, hfield, rfl, rfl⟩ := mem_storage_iff.mp hmember
    rw [shownMember?, field.stored_storage, field.kind_storage] at hshown
    split at hshown
    · rename_i hstored
      obtain ⟨found, hfound, heq⟩ := Option.map_eq_some_iff.mp hshown
      obtain ⟨rfl, rfl⟩ := Prod.mk.inj heq
      exact ⟨id, field, hfield, rfl, hstored, hfound⟩
    · contradiction
  · rintro ⟨id, field, hfield, rfl, hstored, hshown⟩
    refine ⟨((field.name, field.storage), id), mem_storage_iff.mpr ⟨field, hfield, rfl, rfl⟩, ?_⟩
    rw [shownMember?, field.stored_storage, field.kind_storage, if_pos hstored, hshown]
    rfl

theorem nodup_storedMembers (schema : Schema) (document : Document) :
    ((storedMembers document 0 schema.fields).map (·.1)).Nodup := by
  have hsublist (id : FieldId) (fields : List FieldDef) :
      ((storedMembers document id fields).map (·.1)).Sublist (fields.map (·.name)) := by
    induction fields generalizing id with
    | nil => exact .slnil
    | cons field rest ih =>
        rw [storedMembers]
        split
        · exact (ih (id + 1)).cons_cons field.name
        · exact (ih (id + 1)).cons field.name
  exact schema.nodup_names.sublist (hsublist 0 schema.fields)

theorem name_of_mem_storedMembers {member : String × Json}
    (hmember : member ∈ storedMembers document 0 schema.fields) : member.1 ≠ scoreKey := by
  obtain ⟨id, field, hfield, hname, -⟩ := mem_storedMembers.mp hmember
  rw [← hname]
  exact schema.name_ne_of_isReservedName (by decide) field (List.mem_of_getElem? hfield)

/-- Beside the score a row shows the stored members. -/
theorem filter_row (schema : Schema) (document : Document) (score : Float32) :
    (Json.sortMembers
        (storedMembers document 0 schema.fields ++ [(scoreKey, scoreJson score)])).filter
          (fun member => member.1 ≠ scoreKey) =
      Json.sortMembers (storedMembers document 0 schema.fields) := by
  rw [Json.filter_sortMembers fun key => key ≠ scoreKey, List.filter_append,
    List.filter_eq_self.mpr, List.filter_eq_nil_iff.mpr, List.append_nil]
  · simp
  · intro member hmember
    exact decide_eq_true (name_of_mem_storedMembers hmember)

end Schema

theorem Json.given_iff {members : List (String × Json)} {key : String} {value : Json} :
    Given members key value ↔ lookup key members.reverse = some value ∧ value ≠ .null := by
  rw [lookup_eq_some_iff]
  constructor
  · rintro ⟨before, after, rfl, hafter, hnull⟩
    exact ⟨⟨after.reverse, before.reverse, by simp, by simpa using hafter⟩, hnull⟩
  · rintro ⟨⟨before, after, hmembers, hbefore⟩, hnull⟩
    refine ⟨after.reverse, before.reverse, ?_, by simpa using hbefore, hnull⟩
    rw [← List.reverse_reverse members, hmembers]
    simp

theorem Json.canonical_eq_null_iff {value : Json} : value.canonical = .null ↔ value = .null := by
  cases value <;> simp [canonical]

namespace Document

variable {schema : Schema} {members : List (String × Json)} {values : List (FieldId × FieldValue)}

/-- The stored members of a document are what the object it comes from gives to the fields. -/
theorem showsGiven (hproper : (Json.object members).Proper)
    (hvalues : valuesFrom (Json.sortMembers (Json.canonicalMembers members)) 0 schema.fields =
      .ok values) (ignored : List String) :
    ShowsGiven schema.fields members
      (Json.sortMembers (storedMembers ⟨values, ignored⟩ 0 schema.fields)) where
  ascending := Json.ascending_sortMembers _
  complete field hfield hstored given hgiven := by
    obtain ⟨id, hid⟩ := List.mem_iff_getElem?.mp hfield
    obtain ⟨hlookup, hnull⟩ := Json.given_iff.mp hgiven
    have hcanonical := Json.lookup_sortMembers_canonicalMembers field.name members
    rw [hlookup, Option.map_some] at hcanonical
    obtain ⟨value, hvalue⟩ := exists_of_valuesFrom hvalues hfield hcanonical
      (mt Json.canonical_eq_null_iff.mp hnull)
    have hfound := lookup_valuesFrom hvalues hid
    rw [hcanonical, Option.bind_some, hvalue, Nat.zero_add] at hfound
    have hmember := List.mem_reverse.mp (Json.mem_of_lookup hlookup)
    obtain ⟨shown, hshown, hshows⟩ := FieldValue.shows_of_ofJson? (hproper.member _ hmember) hvalue
    refine ⟨shown, ?_, hshows⟩
    rw [Json.lookup_sortMembers_eq_some_iff (Schema.nodup_storedMembers schema _),
      Schema.mem_storedMembers]
    refine ⟨id, field, hid, rfl, hstored, ?_⟩
    rw [value?, hfound, Option.bind_some, hshown]
  sound key shown hlookup := by
    rw [Json.lookup_sortMembers_eq_some_iff (Schema.nodup_storedMembers schema _),
      Schema.mem_storedMembers] at hlookup
    obtain ⟨id, field, hfield, rfl, hstored, hshown⟩ := hlookup
    obtain ⟨value, hvalue, hshown⟩ := Option.bind_eq_some_iff.mp hshown
    have hfound := lookup_valuesFrom hvalues hfield
    rw [value?] at hvalue
    rw [Nat.zero_add, hvalue, Json.lookup_sortMembers_canonicalMembers] at hfound
    obtain ⟨json, hjson, htaken⟩ := Option.bind_eq_some_iff.mp hfound.symm
    obtain ⟨given, hgiven, rfl⟩ := Option.map_eq_some_iff.mp hjson
    have hnull : given ≠ .null := by
      rintro rfl
      rw [Json.canonical, FieldValue.ofJson?_null] at htaken
      contradiction
    have hmember := List.mem_reverse.mp (Json.mem_of_lookup hgiven)
    obtain ⟨other, hother, hshows⟩ := FieldValue.shows_of_ofJson? (hproper.member _ hmember) htaken
    obtain rfl := Option.some.inj (hshown.symm.trans hother)
    exact ⟨field, List.mem_of_getElem? hfield, rfl, hstored, given,
      Json.given_iff.mpr ⟨hgiven, hnull⟩, hshows⟩

theorem ofMembers_eq_ok {found : List (String × Json)} {strict : Bool} {document : Document}
    (hdocument : ofMembers schema found strict = .ok document) :
    valuesFrom found 0 schema.fields = .ok document.values := by
  unfold ofMembers at hdocument
  dsimp only at hdocument
  split at hdocument
  · contradiction
  · split at hdocument
    · contradiction
    · rename_i values hvalues
      obtain rfl := Except.ok.inj hdocument
      exact hvalues

theorem ofText_eq_ok {text : String} {strict : Bool} {document : Document}
    (hdocument : ofText schema text strict = .ok document) :
    ∃ members, Json.read text = .ok (.object members) ∧
      valuesFrom (Json.sortMembers (Json.canonicalMembers members)) 0 schema.fields =
        .ok document.values := by
  unfold ofText at hdocument
  split at hdocument
  · contradiction
  · rename_i found hparse
    obtain ⟨json, hread, hcanonical⟩ := map_eq_ok_iff.mp hparse
    cases json with
    | object members =>
        obtain rfl := Json.object.inj hcanonical
        exact ⟨members, hread, ofMembers_eq_ok hdocument⟩
    | null | bool | integer | float | string | array => simp [Json.canonical] at hcanonical
  · contradiction

/-- A document that a text means has the row of the object that the text holds. -/
theorem isRow_of_ofText {text : String} {strict : Bool} {document : Document}
    (hdocument : ofText schema text strict = .ok document) :
    ∃ members, Json.read text = .ok (.object members) ∧ ∀ score, ∃ shown,
      document.row schema score = .object shown ∧ IsRow schema.fields members score shown := by
  obtain ⟨members, hread, hvalues⟩ := ofText_eq_ok hdocument
  have hgiven : ShowsGiven schema.fields members
      (Json.sortMembers (storedMembers document 0 schema.fields)) :=
    showsGiven (Json.proper_of_read hread) hvalues document.ignored
  refine ⟨members, hread, fun score => ⟨_, rfl, ?_⟩⟩
  have hfilter := Schema.filter_row schema document score
  constructor
  · exact Json.ascending_sortMembers _
  · rw [Json.lookup_sortMembers, List.reverse_append]
    exact if_pos rfl
  · exact schema.name_ne_of_isReservedName (by decide)
  · intro member hmember hname
    apply hgiven.ne_null
    rw [← hfilter]
    exact List.mem_filter.mpr ⟨hmember, decide_eq_true hname⟩
  · intro others
    rw [hfilter]
    constructor
    · exact fun hothers => hothers.unique hgiven
    · rintro rfl
      exact hgiven

end Document

end DocIndex
