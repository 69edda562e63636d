import DocIndex.Proofs.Document.Translation
import DocIndex.Proofs.Search.Terms

/-!
Ranges of integers. A range finds the documents with an integer that is not below its least bound
and not above its greatest one, up to the ends of the 64 bits; a bound that is left out bounds
nothing. Documents without a value are in no range. So ranges can be cut in two between any two
integers.
-/

namespace DocIndex

/-! Values in a range -/

theorem Int64.add_one_le_iff {a b n : Int64} (hlt : a < b) : a + 1 ≤ n ↔ a < n := by
  rw [Int64.lt_iff_toInt_lt] at hlt
  have hsum : (a + 1).toInt = a.toInt + 1 := by
    have hlow := a.le_toInt
    have hhigh := b.toInt_lt
    rw [Int64.toInt_add]
    apply Int.bmod_eq_of_le <;> simp <;> omega
  rw [Int64.le_iff_toInt_le, Int64.lt_iff_toInt_lt, hsum]
  exact Int.add_one_le_iff

theorem ValueRange.holds_integers_iff {min max : Option Int64} {value : FieldValue} :
    (integers min max).holds value = true ↔
      ∃ n, value = .i64 n ∧ (∀ least ∈ min, least ≤ n) ∧ ∀ greatest ∈ max, n ≤ greatest := by
  have hlow (n : Int64) : min.getD Int64.minValue ≤ n ↔ ∀ least ∈ min, least ≤ n := by
    cases min <;> simp [Int64.minValue_le]
  have hhigh (n : Int64) : n ≤ max.getD Int64.maxValue ↔ ∀ greatest ∈ max, n ≤ greatest := by
    cases max <;> simp [Int64.le_maxValue]
  cases value with
  | i64 n => simp [holds, integers, between, FieldValue.atMost, hlow, hhigh]
  | text s => simp [holds, integers, between, FieldValue.atMost]
  | f64 x => simp [holds, integers, between, FieldValue.atMost]

theorem Criterion.admits_valueRange [Segmenter] {schema : Schema} {document : Document}
    {id : FieldId} {range : ValueRange} :
    (valueRange id range).admits (Entry.ofDocument schema document) = true ↔
      ∃ value, document.value? id = some value ∧ range.holds value = true := by
  rw [admits, Option.any_eq_true_iff_get]
  simp only [Entry.ofDocument, Option.isSome_iff_exists]
  constructor
  · rintro ⟨⟨value, hvalue⟩, hholds⟩
    refine ⟨value, hvalue, ?_⟩
    simpa [hvalue] using hholds
  · rintro ⟨value, hvalue, hholds⟩
    exact ⟨⟨value, hvalue⟩, by simpa [hvalue] using hholds⟩

/-- A range that holds values of one kind admits the documents with such a value in it. -/
theorem Criterion.admits_valueRange_iff [Segmenter] {α : Type} {make : α → FieldValue}
    {within : α → Prop} {schema : Schema} {document : Document} {id : FieldId} {range : ValueRange}
    (hrange : ∀ {value}, range.holds value = true ↔ ∃ a, value = make a ∧ within a) :
    (valueRange id range).admits (Entry.ofDocument schema document) = true ↔
      ∃ a, document.value? id = some (make a) ∧ within a := by
  rw [admits_valueRange]
  simp only [hrange]
  constructor
  · rintro ⟨_, hvalue, a, rfl, hwithin⟩
    exact ⟨a, hvalue, hwithin⟩
  · rintro ⟨a, hvalue, hwithin⟩
    exact ⟨_, hvalue, a, rfl, hwithin⟩

namespace Plan

variable {schema : Schema} {id : FieldId} {field : FieldDef} {cap : UInt8}

theorem rangeField_of_field? (hfield : schema.field? id = some field)
    (hfast : field.fast = true) : rangeField schema field.name field.kind = .ok id := by
  simp [rangeField, Schema.lookup?_of_field? hfield, hfast]

theorem checkIntegers_of_uncrossed {min max : Option Int64}
    (hbounds : ∀ least ∈ min, ∀ greatest ∈ max, ¬greatest < least) :
    checkIntegers min max = .ok () := by
  unfold checkIntegers
  split
  · rename_i least greatest
    exact if_neg (hbounds least rfl greatest rfl)
  · rfl

theorem compile_rangeI64 (hfield : schema.field? id = some field) (hkind : field.kind = .i64)
    (hfast : field.fast = true) {min max : Option Int64}
    (hbounds : ∀ least ∈ min, ∀ greatest ∈ max, ¬greatest < least) :
    compile schema cap (.rangeI64 field.name min max) = .ok (.rangeI64 id min max) := by
  have hrange := rangeField_of_field? hfield hfast
  rw [hkind] at hrange
  simp only [compile, ofQuery, hrange, checkIntegers_of_uncrossed hbounds]

end Plan

namespace Index

variable {index : Index} {state : OpenIndex} {id : FieldId} {field : FieldDef}

theorem finds_integers [Segmenter] (hopen : index.state = some state)
    (hfield : state.schema.field? id = some field) (hkind : field.kind = .i64)
    (hfast : field.fast = true) {min max : Option Int64}
    (hbounds : ∀ least ∈ min, ∀ greatest ∈ max, ¬greatest < least) :
    (∃ page, index.query (.rangeI64 field.name min max) = .ok page) ∧
    ∀ document, document ∈ index.found (.rangeI64 field.name min max) ↔
      document ∈ state.committed ∧ ∃ n, document.value? id = some (.i64 n) ∧
        (∀ least ∈ min, least ≤ n) ∧ ∀ greatest ∈ max, n ≤ greatest := by
  have htextless : (QueryDef.rangeI64 field.name min max).IsTextless := by
    simp [QueryDef.IsTextless, QueryDef.clauses]
  obtain ⟨hanswered, hfound⟩ := finds_of_compile hopen htextless
    (Plan.compile_rangeI64 hfield hkind hfast hbounds) rfl
  refine ⟨hanswered, fun document => ?_⟩
  rw [hfound, Criterion.admits_valueRange_iff ValueRange.holds_integers_iff]

/-- Bounds between which nothing is left are refused, so that nothing is found. -/
theorem uncrossed_of_found [Segmenter] (hopen : index.state = some state) {name : String}
    {min max : Option Int64} {document : Document}
    (hfound : document ∈ index.found (.rangeI64 name min max)) :
    ∀ least ∈ min, ∀ greatest ∈ max, ¬greatest < least := by
  obtain ⟨hits, hranking, -⟩ := hfound
  obtain ⟨criterion, hseeks, -⟩ := (ranking_eq_ok_iff hopen).mp hranking
  obtain ⟨⟨plan, hplan, -⟩, -⟩ := seeks_iff_plan.mp hseeks
  cases Plan.compile_realizes hplan with
  | rangeI64 _ _ _ _ hbounds => exact hbounds

/-- What is not given to a field is in no range of it. -/
theorem notMem_found_of_not_given [Segmenter] (hopen : index.state = some state)
    (hfield : state.schema.field? id = some field) (hkind : field.kind = .i64)
    (hfast : field.fast = true) {members : List (String × Json)} {document : Document}
    (htranslates : Document.Translates state.schema members document)
    (hnone : ¬∃ given, Json.Given members field.name given) (min max : Option Int64) :
    document ∉ index.found (.rangeI64 field.name min max) := by
  intro hmem
  obtain ⟨-, hfound⟩ := finds_integers hopen hfield hkind hfast (uncrossed_of_found hopen hmem)
  obtain ⟨-, n, hvalue, -⟩ := (hfound document).mp hmem
  obtain ⟨given, hgiven, -⟩ := (htranslates.value?_eq_some_iff hfield).mp hvalue
  exact hnone ⟨given, hgiven⟩

/-- What is found between two bounds, as a set. -/
theorem found_integers_eq [Segmenter] (hopen : index.state = some state)
    (hfield : state.schema.field? id = some field) (hkind : field.kind = .i64)
    (hfast : field.fast = true) {least greatest : Int64} (hle : least ≤ greatest) :
    index.found (.rangeI64 field.name (some least) (some greatest)) =
      {document | document ∈ state.committed ∧
        ∃ n, document.value? id = some (.i64 n) ∧ least ≤ n ∧ n ≤ greatest} := by
  have hbounds : ∀ a ∈ some least, ∀ b ∈ some greatest, ¬b < a := by
    rintro a ⟨rfl⟩ b ⟨rfl⟩
    exact Int64.not_lt.mpr hle
  ext document
  rw [(finds_integers hopen hfield hkind hfast hbounds).2]
  simp

/--
A range of integers, on a field that is fast, finds the documents with an integer within its bounds,
bounds included, each as often as it was committed. A document of a text that gives nothing to the
field is never found; without bounds all others are. Cut in two between `b` and `b + 1`, a range
finds in its parts what it finds whole, and nothing in both.
-/
theorem found_integers [Segmenter] (hopen : index.state = some state)
    (hfield : state.schema.field? id = some field) (hkind : field.kind = .i64)
    (hfast : field.fast = true) :
    (∀ min max, (∀ least ∈ min, ∀ greatest ∈ max, ¬greatest < least) →
      (∃ page, index.query (.rangeI64 field.name min max) = .ok page) ∧
      (∀ document, document ∈ index.found (.rangeI64 field.name min max) ↔
        document ∈ state.committed ∧ ∃ n, document.value? id = some (.i64 n) ∧
          (∀ least ∈ min, least ≤ n) ∧ ∀ greatest ∈ max, n ≤ greatest) ∧
      ∃ hits, index.ranking (.rangeI64 field.name min max) = .ok hits ∧
        ∀ document ∈ index.found (.rangeI64 field.name min max),
          (hits.map (·.2)).count document = state.committed.count document) ∧
    (∀ text strict members document, Json.read text = .ok (.object members) →
      Document.ofText state.schema text strict = .ok document →
      (¬∃ given, Json.Given members field.name given) →
      ∀ min max, document ∉ index.found (.rangeI64 field.name min max)) ∧
    (∀ document, document ∈ index.found (.rangeI64 field.name none none) ↔
      document ∈ state.committed ∧ ∃ n, document.value? id = some (.i64 n)) ∧
    ∀ a b c, a ≤ b → b < c →
      Disjoint (index.found (.rangeI64 field.name (some a) (some b)))
        (index.found (.rangeI64 field.name (some (b + 1)) (some c))) ∧
      index.found (.rangeI64 field.name (some a) (some b)) ∪
          index.found (.rangeI64 field.name (some (b + 1)) (some c)) =
        index.found (.rangeI64 field.name (some a) (some c)) := by
  refine ⟨?_, ?_, ?_, ?_⟩
  · intro min max hbounds
    obtain ⟨hanswered, hfound⟩ := finds_integers hopen hfield hkind hfast hbounds
    exact ⟨hanswered, hfound, exists_ranking_of_answered hopen hanswered⟩
  · intro text strict members document hread hdocument hnone min max
    have htranslation := (Document.ofText_isTranslation state.schema text).1 members hread
    have hlenient : Document.ofText state.schema text false = .ok document := by
      cases strict with
      | false => exact hdocument
      | true => exact ((htranslation.strict document).mp hdocument).1
    have htranslates := ((htranslation.translates document).mp hlenient).2
    exact notMem_found_of_not_given hopen hfield hkind hfast htranslates hnone min max
  · intro document
    rw [(finds_integers hopen hfield hkind hfast (by simp)).2]
    simp
  · intro a b c hab hbc
    have hnext : b + 1 ≤ c := (Int64.add_one_le_iff hbc).mpr hbc
    have hac : a ≤ c := Int64.le_trans hab (Int64.le_of_lt hbc)
    rw [found_integers_eq hopen hfield hkind hfast hab,
      found_integers_eq hopen hfield hkind hfast hnext,
      found_integers_eq hopen hfield hkind hfast hac]
    constructor
    · rw [Set.disjoint_left]
      rintro document ⟨-, n, hn, -, hlow⟩ ⟨-, m, hm, hhigh, -⟩
      obtain rfl : n = m := by simpa using hn.symm.trans hm
      exact absurd hlow (Int64.not_le.mpr ((Int64.add_one_le_iff hbc).mp hhigh))
    · ext document
      simp only [Set.mem_union, Set.mem_ofPred_eq, Int64.add_one_le_iff hbc]
      constructor
      · rintro (⟨hmem, n, hn, ha, hb⟩ | ⟨hmem, n, hn, hb, hc⟩)
        · exact ⟨hmem, n, hn, ha, Int64.le_trans hb (Int64.le_of_lt hbc)⟩
        · exact ⟨hmem, n, hn, Int64.le_trans hab (Int64.le_of_lt hb), hc⟩
      · rintro ⟨hmem, n, hn, ha, hc⟩
        by_cases hb : n ≤ b
        · exact .inl ⟨hmem, n, hn, ha, hb⟩
        · exact .inr ⟨hmem, n, hn, Int64.not_le.mp hb, hc⟩

end Index

def yearField : FieldDef where
  name := "year"
  kind := .i64
  fast := true

section

attribute [local instance] Segmenter.byRuns

/-- The years up to 1896 and those from 1897 on part the novels of a library. -/
theorem library_parted_by_years : openLibrary.state = some libraryState ∧
    librarySchema.field? 1 = some yearField ∧ yearField.kind = .i64 ∧ yearField.fast = true ∧
    novel "emma" 1815 ∈ openLibrary.found (.rangeI64 "year" none (some 1815)) ∧
    novel "dracula" 1897 ∉
      openLibrary.found (.rangeI64 "year" (some Int64.minValue) (some 1896)) ∧
    novel "dracula" 1897 ∈
      openLibrary.found (.rangeI64 "year" (some (1896 + 1)) (some Int64.maxValue)) := by
  have hopen : openLibrary.state = some libraryState := rfl
  have hfield : librarySchema.field? 1 = some yearField := rfl
  obtain ⟨hrange, -, -, hparts⟩ := Index.found_integers hopen hfield rfl rfl
  obtain ⟨-, hearly, -⟩ := hrange none (some 1815) (by simp)
  obtain ⟨-, hlate, -⟩ := hrange (some (1896 + 1)) (some Int64.maxValue)
    (by simp [Int64.le_maxValue])
  obtain ⟨hdisjoint, -⟩ := hparts Int64.minValue 1896 Int64.maxValue (Int64.minValue_le _)
    (by decide)
  have hdracula := (hlate (novel "dracula" 1897)).mpr
    ⟨by decide, 1897, rfl, by simp, by simp [Int64.le_maxValue]⟩
  refine ⟨hopen, hfield, rfl, rfl, (hearly _).mpr ?_, ?_, hdracula⟩
  · exact ⟨by decide, 1815, rfl, by simp, by simp⟩
  · exact Set.disjoint_right.mp hdisjoint hdracula

end

end DocIndex
