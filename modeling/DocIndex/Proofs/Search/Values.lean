import DocIndex.Proofs.Document.Translation
import DocIndex.Proofs.Json.Reading
import DocIndex.Proofs.Search.Beginnings

/-!
Searching for a value. A field is asked for a value as it would be given it: what a document may
give to the field can be sought in it, and what may not be given is refused for the same reason. A
number is a term of its own, and so is a text that is kept whole; so the documents that are found
are those with the very value, neither a part of it nor another writing of it.
-/

namespace DocIndex

/-! Terms that are whole values -/

/-- A value is a term that the field makes of this value and of no other. -/
def FieldDef.KeepsWhole [Segmenter] (field : FieldDef) (value : FieldValue) : Prop :=
  ∀ other, value ∈ (field.occurrences other).map (·.term) ↔ other = value

namespace FieldDef

variable {field : FieldDef} {value : FieldValue}

theorem keepsWhole_of_number [Segmenter] (hindexed : field.indexed = true)
    (hnumber : value.kind ≠ .text) :
    field.KeepsWhole value := by
  intro other
  cases other with
  | text s =>
      simp only [occurrences, hindexed, List.map_map, List.mem_map, Function.comp_apply,
        Occurrence.ofToken]
      constructor
      · rintro ⟨token, -, rfl⟩
        exact absurd rfl hnumber
      · rintro rfl
        exact absurd rfl hnumber
  | i64 n => simp [occurrences, hindexed, eq_comm]
  | f64 x => simp [occurrences, hindexed, eq_comm]

theorem keepsWhole_of_raw [Segmenter] {s : String} (hindexed : field.indexed = true)
    (hraw : field.effectiveTokenizer = .raw) (hshort : s.utf8ByteSize ≤ Analysis.termBound) :
    field.KeepsWhole (.text s) := by
  intro other
  cases other with
  | text t =>
      simp only [occurrences, hindexed, hraw, Tokenizer.terms, Tokenizer.analyze, Analysis.whole,
        List.map_map, List.mem_map, List.mem_filter, List.mem_singleton, decide_eq_true_eq,
        Function.comp_apply, Occurrence.ofToken, FieldValue.text.injEq]
      constructor
      · rintro ⟨_, ⟨rfl, -⟩, rfl⟩
        rfl
      · rintro rfl
        exact ⟨_, ⟨rfl, hshort⟩, rfl⟩
  | i64 n => simp [occurrences, hindexed]
  | f64 x => simp [occurrences, hindexed]

end FieldDef

/-- Such a value is a term of the documents that have the value. -/
theorem Entry.has_iff_value [Segmenter] {schema : Schema} {document : Document} {id : FieldId}
    {field : FieldDef} {value : FieldValue} (hfield : schema.field? id = some field)
    (hwhole : field.KeepsWhole value) :
    (Entry.ofDocument schema document).has id value = true ↔
      document.value? id = some value := by
  rw [has, List.contains_iff_mem, terms, List.mem_map]
  simp only [mem_occurrences_iff]
  constructor
  · rintro ⟨occurrence, ⟨_, other, hsame, hother, hmem⟩, rfl⟩
    obtain rfl := Option.some.inj (hfield.symm.trans hsame)
    rw [hother, (hwhole other).mp (List.mem_map_of_mem hmem)]
  · intro hvalue
    obtain ⟨occurrence, hmem, hterm⟩ := List.mem_map.mp ((hwhole value).mpr rfl)
    exact ⟨occurrence, ⟨field, value, hfield, hvalue, hmem⟩, hterm⟩

/-! Asking for a value and giving it -/

namespace Plan

variable {schema : Schema} {id : FieldId} {field : FieldDef} {sought : Json} {cap : UInt8}

theorem compile_term (hfield : schema.field? id = some field) (hindexed : field.indexed = true) :
    compile schema cap (.term field.name sought) =
      match FieldValue.ofJson? field.kind sought with
      | some value => .ok (.term id value)
      | none => .error (.valueMismatch field.name field.kind sought) := by
  simp only [compile, ofQuery, ofTerm, Schema.lookup?_of_field? hfield, hindexed,
    termValue?_eq_ofJson?]
  rfl

/-- A query for a value is accepted if the field makes a value of it, and looks for that value. -/
theorem compile_term_eq_ok_iff (hfield : schema.field? id = some field)
    (hindexed : field.indexed = true) {plan : Plan} :
    compile schema cap (.term field.name sought) = .ok plan ↔
      ∃ value, field.kind.Means sought value ∧ plan = .term id value := by
  simp only [compile_term hfield hindexed, FieldKind.means_iff]
  cases FieldValue.ofJson? field.kind sought <;> simp [eq_comm]

theorem compile_term_of_refused (hfield : schema.field? id = some field)
    (hindexed : field.indexed = true) (hrefused : ¬field.kind.Takes sought) :
    compile schema cap (.term field.name sought) =
      .error (.valueMismatch field.name field.kind sought) := by
  rw [FieldKind.takes_iff, ← Option.isSome_iff_exists, Option.not_isSome_iff_eq_none] at hrefused
  rw [compile_term hfield hindexed, hrefused]

end Plan

/--
A text gives a value to a field, and nothing else in it is refused: the other fields take what they
are given, and where undeclared keys are refused there are none.
-/
def Schema.Offers (schema : Schema) (field : FieldDef) (given : Json) (strict : Bool)
    (text : String) : Prop :=
  ∃ members, Json.read text = .ok (.object members) ∧ Json.Given members field.name given ∧
    (∀ other ∈ schema.fields, other ≠ field → other.TakesFrom members) ∧
    (strict = true → ¬∃ key, schema.Undeclared members key)

/--
A query for a value and a document with it come out alike: either both are accepted, and mean the
same value of the field, or both are refused, and name the same field, its kind and that of the
value.
-/
inductive SameOutcome (id : FieldId) (field : FieldDef) (sought : Json) :
    Except QueryError Plan → Except DocumentError Document → Prop where
  | taken {value : FieldValue} {document : Document} (hmeans : field.kind.Means sought value)
      (hvalue : document.value? id = some value) :
      SameOutcome id field sought (.ok (.term id value)) (.ok document)
  | refused {found : Json} (hrefused : ¬field.kind.Takes sought)
      (hfound : found.kindName = sought.kindName) :
      SameOutcome id field sought (.error (.valueMismatch field.name field.kind sought))
        (.error (.typeMismatch field.name field.kind found))

theorem Json.kindName_canonical (json : Json) : json.canonical.kindName = json.kindName := by
  cases json <;> rfl

section Offers

variable {schema : Schema} {id : FieldId} {field : FieldDef} {given : Json}
  {members : List (String × Json)}

theorem Json.Given.unique {key : String} {other : Json} (hgiven : Given members key given)
    (hother : Given members key other) : given = other :=
  Option.some.inj ((given_iff.mp hgiven).1.symm.trans (given_iff.mp hother).1)

theorem FieldDef.takesFrom_of_given (hgiven : Json.Given members field.name given) :
    field.TakesFrom members ↔ field.kind.Takes given := by
  constructor
  · exact fun hall => hall given hgiven
  · intro htakes other hother
    exact hgiven.unique hother ▸ htakes

/-- A value is offered by the text of an object that gives nothing else. -/
theorem Schema.offers_of_read {text : String} (hfield : field ∈ schema.fields)
    (hread : Json.read text = .ok (.object [(field.name, given)])) (hnull : given ≠ .null)
    (strict : Bool) : schema.Offers field given strict text := by
  have hgiven : Json.Given [(field.name, given)] field.name given :=
    ⟨[], [], rfl, by simp, hnull⟩
  refine ⟨[(field.name, given)], hread, hgiven, ?_, ?_⟩
  · rintro other hother hne value ⟨before, after, hmembers, -⟩
    have hmem : (other.name, value) ∈ [(field.name, given)] := by simp [hmembers]
    have hname : other.name = field.name := congrArg Prod.fst (List.mem_singleton.mp hmem)
    exact absurd (List.inj_on_of_nodup_map schema.nodup_names hother hfield hname) hne
  · rintro - ⟨key, ⟨member, hmember, rfl⟩, hundeclared⟩
    obtain rfl := List.mem_singleton.mp hmember
    exact hundeclared field hfield rfl

/-- Any value without floats can be offered. -/
theorem Schema.offers_compact (hfield : field ∈ schema.fields) (hlegible : given.Legible)
    (hnesting : given.nesting < Json.maxDepth) (hnull : given ≠ .null) (strict : Bool) :
    schema.Offers field given strict (Json.object [(field.name, given)]).compact := by
  refine offers_of_read hfield ?_ hnull strict
  apply Json.read_compact
  · exact Json.legible_object (by simpa using hlegible)
  · simpa [Json.nesting, Json.nestingOfMembers, Json.nestingOfMember] using hnesting

/-- Where the other fields are content, the one field decides. -/
theorem Document.outcome_of_given (hfield : schema.field? id = some field)
    (hgiven : Json.Given members field.name given)
    (hothers : ∀ other ∈ schema.fields, other ≠ field → other.TakesFrom members)
    {outcome : Bool → Except DocumentError Document}
    (houtcome : IsTranslation schema members outcome) :
    (field.kind.Takes given → ∃ document value, outcome false = .ok document ∧
      document.value? id = some value ∧ field.kind.Means given value) ∧
    (¬field.kind.Takes given →
      outcome false = .error (.typeMismatch field.name field.kind given.canonical)) := by
  have hmem : field ∈ schema.fields := List.mem_of_getElem? hfield
  constructor
  · intro htakes
    have hall : ∀ other ∈ schema.fields, other.TakesFrom members := by
      intro other hother
      by_cases hsame : other = field
      · rw [hsame, FieldDef.takesFrom_of_given hgiven]
        exact htakes
      · exact hothers other hother hsame
    obtain ⟨document, hdocument⟩ := houtcome.succeeds.mpr hall
    obtain ⟨value, hvalue⟩ := FieldKind.takes_iff.mp htakes
    have hmeans := FieldKind.means_iff.mpr hvalue
    have htranslates := ((houtcome.translates document).mp hdocument).2
    refine ⟨document, value, hdocument, ?_, hmeans⟩
    exact (htranslates.value?_eq_some_iff hfield).mpr ⟨given, hgiven, hmeans⟩
  · intro hrefused
    obtain ⟨before, after, hfields⟩ := List.append_of_mem hmem
    have hnodup : schema.fields.Nodup := List.Nodup.of_map _ schema.nodup_names
    rw [hfields, List.nodup_middle, List.nodup_cons, List.mem_append, not_or] at hnodup
    refine (houtcome.mismatch _).mpr ⟨before, field, after, given, hfields, ?_, hgiven, hrefused,
      rfl⟩
    intro other hother
    apply hothers other (by simp [hfields, hother])
    rintro rfl
    exact hnodup.1.1 hother

/-- A value that is sought in an indexed field fares as it does in the text of a document. -/
theorem Schema.Offers.sameOutcome {sought : Json} {strict : Bool} {text : String} {cap : UInt8}
    (hoffers : schema.Offers field sought strict text) (hfield : schema.field? id = some field)
    (hindexed : field.indexed = true) :
    SameOutcome id field sought (Plan.compile schema cap (.term field.name sought))
      (Document.ofText schema text strict) := by
  obtain ⟨members, hread, hgiven, hothers, hstrict⟩ := hoffers
  have htranslation := (Document.ofText_isTranslation schema text).1 members hread
  have hlenient : Document.ofText schema text strict = Document.ofText schema text false := by
    cases strict with
    | false => rfl
    | true => exact htranslation.declared (hstrict rfl)
  obtain ⟨htaken, hrefused⟩ := Document.outcome_of_given hfield hgiven hothers htranslation
  rw [hlenient]
  by_cases htakes : field.kind.Takes sought
  · obtain ⟨document, value, hdocument, hvalue, hmeans⟩ := htaken htakes
    rw [hdocument, (Plan.compile_term_eq_ok_iff hfield hindexed).mpr ⟨value, hmeans, rfl⟩]
    exact .taken hmeans hvalue
  · rw [hrefused htakes, Plan.compile_term_of_refused hfield hindexed htakes]
    exact .refused htakes sought.kindName_canonical

end Offers

namespace Index

variable {index : Index} {state : OpenIndex} {id : FieldId} {field : FieldDef} {sought : Json}

/-- A value that is a term of its own finds the documents that have it. -/
theorem finds_value [Segmenter] (hopen : index.state = some state)
    (hfield : state.schema.field? id = some field) (hindexed : field.indexed = true)
    {value : FieldValue} (hmeans : field.kind.Means sought value)
    (hwhole : field.KeepsWhole value) :
    (∃ page, index.query (.term field.name sought) = .ok page) ∧
    ∀ document, document ∈ index.found (.term field.name sought) ↔
      document ∈ state.committed ∧ document.value? id = some value := by
  have htextless : (QueryDef.term field.name sought).IsTextless := by
    simp [QueryDef.IsTextless, QueryDef.clauses]
  have hplan : Plan.compile state.schema index.settings.maxFuzzyDistance
      (.term field.name sought) = .ok (.term id value) :=
    (Plan.compile_term_eq_ok_iff hfield hindexed).mpr ⟨value, hmeans, rfl⟩
  obtain ⟨hanswered, hfound⟩ := finds_of_compile hopen htextless hplan rfl
  refine ⟨hanswered, fun document => ?_⟩
  rw [hfound, Criterion.admits, Entry.has_iff_value hfield hwhole]

/--
Looking up a value in an indexed field of integers or of texts that are kept whole. What can be
sought there is what a document can give, with the same typed value, and the rest is refused alike;
the documents that are found are those that have the value, each as often as it was committed,
unless the value is a text that is too long to be kept.
-/
theorem found_value [Segmenter] (hopen : index.state = some state)
    (hfield : state.schema.field? id = some field) (hindexed : field.indexed = true)
    (hkind : field.kind = .i64 ∨ field.kind = .text ∧ field.effectiveTokenizer = .raw) :
    (∀ text strict, state.schema.Offers field sought strict text →
      SameOutcome id field sought
        (Plan.compile state.schema index.settings.maxFuzzyDistance (.term field.name sought))
        (Document.ofText state.schema text strict)) ∧
    (∀ plan, Plan.compile state.schema index.settings.maxFuzzyDistance
        (.term field.name sought) = .ok plan ↔
      ∃ value, field.kind.Means sought value ∧ plan = .term id value) ∧
    ∀ value, field.kind.Means sought value →
      (∀ s, value = .text s → s.utf8ByteSize ≤ Analysis.termBound) →
      (∃ page, index.query (.term field.name sought) = .ok page) ∧
      (∀ document, document ∈ index.found (.term field.name sought) ↔
        document ∈ state.committed ∧ document.value? id = some value) ∧
      ∃ hits, index.ranking (.term field.name sought) = .ok hits ∧
        ∀ document ∈ index.found (.term field.name sought),
          (hits.map (·.2)).count document = state.committed.count document := by
  refine ⟨?_, ?_, ?_⟩
  · exact fun text strict hoffers => hoffers.sameOutcome hfield hindexed
  · exact fun plan => Plan.compile_term_eq_ok_iff hfield hindexed
  · intro value hmeans hshort
    have hwhole : field.KeepsWhole value := by
      rcases hkind with hinteger | ⟨htext, hraw⟩
      · rw [hinteger] at hmeans
        cases hmeans
        exact FieldDef.keepsWhole_of_number hindexed (by simp [FieldValue.kind])
      · rw [htext] at hmeans
        cases hmeans
        exact FieldDef.keepsWhole_of_raw hindexed hraw (hshort _ rfl)
    obtain ⟨hanswered, hfound⟩ := finds_value hopen hfield hindexed hmeans hwhole
    exact ⟨hanswered, hfound, exists_ranking_of_answered hopen hanswered⟩

end Index

def mottoField : FieldDef where
  name := "motto"
  kind := .text
  tokenizer := some .raw

section

attribute [local instance] Segmenter.byRuns

theorem motto_found_whole : openMottos.state = some mottoState ∧
    mottoSchema.field? 0 = some mottoField ∧ mottoField.indexed = true ∧
    (mottoField.kind = .i64 ∨ mottoField.kind = .text ∧ mottoField.effectiveTokenizer = .raw) ∧
    SameOutcome 0 mottoField (.integer 7)
      (Plan.compile mottoSchema openMottos.settings.maxFuzzyDistance (.term "motto" (.integer 7)))
      (Document.ofText mottoSchema (Json.object [("motto", .integer 7)]).compact true) ∧
    motto "Know thyself" ∈ openMottos.found (.term "motto" (.string "Know thyself")) ∧
    motto "Know\nthyself" ∉ openMottos.found (.term "motto" (.string "Know thyself")) := by
  have hopen : openMottos.state = some mottoState := rfl
  have hfield : mottoSchema.field? 0 = some mottoField := rfl
  have hkind : mottoField.kind = .i64 ∨
      mottoField.kind = .text ∧ mottoField.effectiveTokenizer = .raw := .inr ⟨rfl, rfl⟩
  obtain ⟨-, -, hfound⟩ := Index.found_value hopen hfield rfl hkind
  have hshort : ∀ s, FieldValue.text "Know thyself" = .text s →
      s.utf8ByteSize ≤ Analysis.termBound := by
    rintro _ ⟨rfl⟩
    decide
  obtain ⟨-, hmem, -⟩ := hfound _ (.text "Know thyself") hshort
  have hlegible : (Json.integer 7).Legible := Json.legible_integer (Json.isWord_natCast (by decide))
  have hoffers : mottoSchema.Offers mottoField (.integer 7) true
      (Json.object [("motto", .integer 7)]).compact :=
    Schema.offers_compact List.mem_cons_self hlegible (by decide) (by simp) true
  refine ⟨hopen, hfield, rfl, hkind, ?_, (hmem _).mpr ⟨List.mem_cons_self, rfl⟩, ?_⟩
  · exact (Index.found_value hopen hfield rfl hkind).1 _ _ hoffers
  · intro hfar
    obtain ⟨-, hvalue⟩ := (hmem _).mp hfar
    simp [motto, Document.value?] at hvalue

end

end DocIndex
