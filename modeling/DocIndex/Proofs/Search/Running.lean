import DocIndex.Proofs.Query.Clauses
import DocIndex.Proofs.Query.Typing
import DocIndex.Proofs.Search.Boolean

/-!
Queries that compile can be run. Before it looks at a document the index makes demands of every part
of a criterion: terms and beginnings are looked up in fields that are indexed, phrases in fields of
which positions are kept and whose tokenizer is known, ranges in columns, and a misspelt word has
few edits. A plan that fits its schema comes down to a criterion that meets all of them, whatever
the documents; the one thing that can still go wrong is a beginning that is too long.
-/

namespace DocIndex

@[simp] theorem Tokenizer.named?_name (tokenizer : Tokenizer) :
    named? tokenizer.name = some tokenizer := by
  cases tokenizer <;> rfl

/-- The value at an end of a range. -/
def Bound.value? : Bound → Option FieldValue
  | .unbounded => none
  | .included value | .excluded value => some value

/-- The ends of a range are values of a kind. -/
def ValueRange.IsOf (kind : FieldKind) (range : ValueRange) : Prop :=
  (∀ value ∈ range.lower.value?, value.kind = kind) ∧
    ∀ value ∈ range.upper.value?, value.kind = kind

theorem ValueRange.isOf_integers (min max : Option Int64) : (integers min max).IsOf .i64 := by
  simp [IsOf, integers, between, Bound.value?, FieldValue.kind]

theorem ValueRange.isOf_floats (min max : Option Float) : (floats min max).IsOf .f64 := by
  simp [IsOf, floats, between, Bound.value?, FieldValue.kind]

namespace Schema

variable {schema : Schema} {id : FieldId} {field : FieldDef}

theorem indexing?_of_isSearchable (hfield : schema.field? id = some field)
    (hsearchable : field.isSearchable = true) :
    schema.indexing? id = some
      ⟨if field.effectiveTokenizer = .raw then .documents else .positions,
        field.effectiveTokenizer⟩ := by
  rw [FieldDef.isSearchable_iff] at hsearchable
  simp [indexing?, hfield, FieldDef.storage, hsearchable.1, hsearchable.2]

theorem termRefusal?_of_indexed (hfield : schema.field? id = some field)
    (hindexed : field.indexed = true) : schema.termRefusal? id = none := by
  simp [termRefusal?, hfield, hindexed]

theorem phraseRefusal?_of_positions {indexing : TextIndexing}
    (hindexing : schema.indexing? id = some indexing) (hdetail : indexing.detail = .positions) :
    schema.phraseRefusal? id = none := by
  obtain ⟨detail, tokenizer⟩ := indexing
  obtain rfl : detail = .positions := hdetail
  cases hfield : schema.field? id <;> simp [phraseRefusal?, hfield, hindexing]

end Schema

namespace Criterion

/--
The index can run a criterion on a schema: every part of it meets the demands that are made of its
kind. The parts that only the text language knows are left out.
-/
inductive Runnable (schema : Schema) : Criterion → Prop where
  | term {id : FieldId} {field : FieldDef} {value : FieldValue}
      (hfield : schema.field? id = some field) (hindexed : field.indexed = true)
      (hkind : value.kind = field.kind) : Runnable schema (.term id value)
  | equals {id : FieldId} {field : FieldDef} {value : FieldValue}
      (hfield : schema.field? id = some field) (hindexed : field.indexed = true)
      (hkind : value.kind = field.kind) : Runnable schema (.equals id value)
  | phrase {id : FieldId} {indexing : TextIndexing} {parts : List Occurrence} {slop : Nat}
      (hindexing : schema.indexing? id = some indexing) (hdetail : indexing.detail = .positions)
      (htokenizer : Tokenizer.named? indexing.tokenizer.name = some indexing.tokenizer)
      (hparts : 2 ≤ parts.length) (hkind : ∀ part ∈ parts, part.term.kind = .text) :
      Runnable schema (.phrase id parts slop)
  | fuzzy {id : FieldId} {word : String} {distance : Nat} (hid : schema.Searchable id)
      (hdistance : distance ≤ 2) : Runnable schema (.fuzzy id word distance)
  | startsWith {id : FieldId} {start : String} (hid : schema.Searchable id) :
      Runnable schema (.startsWith id start)
  | valueRange {id : FieldId} {field : FieldDef} {range : ValueRange}
      (hfield : schema.field? id = some field) (hfast : field.fast = true)
      (hkind : range.IsOf field.kind) : Runnable schema (.valueRange id range)
  | bool {must should mustNot : List Criterion}
      (hsome : must ≠ [] ∨ should ≠ [] ∨ mustNot ≠ [])
      (hmust : ∀ criterion ∈ must, Runnable schema criterion)
      (hshould : ∀ criterion ∈ should, Runnable schema criterion)
      (hmustNot : ∀ criterion ∈ mustNot, Runnable schema criterion) :
      Runnable schema (.bool must should mustNot)
  | all : Runnable schema .all
  | nothing : Runnable schema .nothing

/-- What meets the demands is not refused. -/
theorem Runnable.refusal? {schema : Schema} {criterion : Criterion}
    (hrunnable : criterion.Runnable schema) : criterion.refusal? schema = none := by
  induction hrunnable with
  | term hfield hindexed _ => exact Schema.termRefusal?_of_indexed hfield hindexed
  | equals hfield hindexed _ => exact Schema.termRefusal?_of_indexed hfield hindexed
  | phrase hindexing hdetail _ _ _ => exact Schema.phraseRefusal?_of_positions hindexing hdetail
  | fuzzy _ hdistance => exact if_pos (Nat.lt_succ_of_le hdistance)
  | bool _ _ _ _ ihMust ihShould ihMustNot =>
      rw [Criterion.refusal?, firstRefusal?_eq_none ihMust, firstRefusal?_eq_none ihShould,
        firstRefusal?_eq_none ihMustNot]
      rfl
  | startsWith | valueRange | all | nothing => rfl

theorem runnable_ofClauses {schema : Schema} {must should mustNot : List Criterion}
    (hmust : ∀ criterion ∈ must, criterion.Runnable schema)
    (hshould : ∀ criterion ∈ should, criterion.Runnable schema)
    (hmustNot : ∀ criterion ∈ mustNot, criterion.Runnable schema) :
    (ofClauses must should mustNot).Runnable schema := by
  unfold ofClauses
  split
  · refine .bool (.inl (List.cons_ne_nil _ _)) ?_ (by simp) hmustNot
    simpa using Runnable.all
  · rename_i hsome
    refine .bool ?_ hmust hshould hmustNot
    simp only [Bool.and_eq_true, List.isEmpty_iff] at hsome
    tauto

end Criterion

namespace Plan

/-! Parts of plans -/

/-- A field that is cut into terms can be asked for a phrase, of however many terms. -/
theorem exists_phraseCriterion [Segmenter] {schema : Schema} (sought : String) {id : FieldId}
    (hid : schema.Searchable id)
    (hcut : ∀ field, schema.field? id = some field → field.effectiveTokenizer ≠ .raw) :
    ∃ part, phraseCriterion schema sought id = .ok part ∧
      ∀ criterion ∈ part, criterion.Runnable schema := by
  obtain ⟨field, hfield, hsearchable⟩ := hid
  have hindexing := Schema.indexing?_of_isSearchable hfield hsearchable
  rw [if_neg (hcut field hfield)] at hindexing
  rw [FieldDef.isSearchable_iff] at hsearchable
  simp only [phraseCriterion, tokenizer?, hindexing, Option.bind_some, Tokenizer.named?_name]
  rcases field.effectiveTokenizer.analyze sought with _ | ⟨token, _ | ⟨next, rest⟩⟩
  · exact ⟨none, rfl, by simp⟩
  · refine ⟨some _, rfl, ?_⟩
    rintro _ ⟨rfl⟩
    exact .term hfield hsearchable.2 hsearchable.1.symm
  · refine ⟨some _, rfl, ?_⟩
    rintro _ ⟨rfl⟩
    refine .phrase hindexing rfl (Tokenizer.named?_name _) (by simp) ?_
    intro part hpart
    obtain ⟨token, -, rfl⟩ := List.mem_map.mp hpart
    rfl

theorem exists_phraseParts [Segmenter] {schema : Schema} (sought : String) {ids : List FieldId}
    (hids : ∀ id ∈ ids, schema.Searchable id)
    (hcut : ∀ id ∈ ids, ∀ field, schema.field? id = some field → field.effectiveTokenizer ≠ .raw) :
    ∃ parts, phraseParts schema sought ids = .ok parts ∧
      ∀ criterion ∈ parts, criterion.Runnable schema := by
  induction ids with
  | nil => exact ⟨[], rfl, by simp⟩
  | cons id rest ih =>
      rw [List.forall_mem_cons] at hids hcut
      obtain ⟨part, hpart, hrunnable⟩ := exists_phraseCriterion sought hids.1 hcut.1
      obtain ⟨parts, hparts, hall⟩ := ih hids.2 hcut.2
      refine ⟨part.toList ++ parts, by simp only [phraseParts, hpart, hparts], ?_⟩
      intro criterion hcriterion
      rcases List.mem_append.mp hcriterion with hhead | htail
      · exact hrunnable criterion (Option.mem_toList.mp hhead)
      · exact hall criterion htail

theorem exists_phraseCriteria [Segmenter] {schema : Schema} (sought : String) {ids : List FieldId}
    (hids : ∀ id ∈ ids, schema.Searchable id)
    (hcut : ∀ id ∈ ids, ∀ field, schema.field? id = some field → field.effectiveTokenizer ≠ .raw) :
    ∃ criterion, phraseCriteria schema sought ids = .ok criterion ∧
      criterion.Runnable schema := by
  obtain ⟨parts, hparts, hall⟩ := exists_phraseParts sought hids hcut
  rw [phraseCriteria, hparts]
  cases parts with
  | nil => exact ⟨.nothing, rfl, .nothing⟩
  | cons part rest =>
      exact ⟨_, rfl, .bool (.inr (.inl (List.cons_ne_nil _ _))) (by simp) hall (by simp)⟩

theorem runnable_fuzzyCriteria {schema : Schema} {ids : List FieldId} {words : List FuzzyWord}
    (hids : ids ≠ []) (hsearchable : ∀ id ∈ ids, schema.Searchable id) (hwords : words ≠ [])
    (hdistance : ∀ word ∈ words, word.distance ≤ 2) :
    (fuzzyCriteria ids words).Runnable schema := by
  refine .bool (.inl (by simpa using hwords)) ?_ (by simp) (by simp)
  intro criterion hcriterion
  obtain ⟨word, hword, rfl⟩ := List.mem_map.mp hcriterion
  refine .bool (.inr (.inl (by simpa using hids))) (by simp) ?_ (by simp)
  intro part hpart
  obtain ⟨id, hid, rfl⟩ := List.mem_map.mp hpart
  exact .fuzzy (hsearchable id hid) (hdistance word hword)

mutual

/-- The beginnings that are looked for, at any depth. -/
def starts : Plan → List String
  | .startsWith clauses => clauses.map (·.start)
  | .bool must should mustNot => startsOfList must ++ startsOfList should ++ startsOfList mustNot
  | .text _ _ | .fuzzy _ _ | .phrase _ _ | .term _ _ | .rangeI64 _ _ _ | .rangeF64 _ _ _ | .all
  | .nothing => []

/-- The beginnings that are looked for in each plan of a list. -/
def startsOfList : List Plan → List String
  | [] => []
  | plan :: rest => plan.starts ++ startsOfList rest

end

/-- All beginnings are short enough to be looked up. -/
def IsShort (plan : Plan) : Prop :=
  ∀ start ∈ plan.starts, start.utf8ByteSize ≤ prefixBound

theorem startsOfList_eq_flatMap (plans : List Plan) :
    startsOfList plans = plans.flatMap starts := by
  induction plans with
  | nil => rfl
  | cons plan rest ih => rw [startsOfList, ih, List.flatMap_cons]

theorem isShort_bool (must should mustNot : List Plan) :
    (Plan.bool must should mustNot).IsShort ↔
      (∀ plan ∈ must, plan.IsShort) ∧ (∀ plan ∈ should, plan.IsShort) ∧
        ∀ plan ∈ mustNot, plan.IsShort := by
  simp only [IsShort, starts, startsOfList_eq_flatMap, List.forall_mem_append,
    List.forall_mem_flatMap, and_assoc]

/-- What a plan comes down to: a criterion that can be run, unless a beginning is too long. -/
structure Lowers [Segmenter] (schema : Schema) (plan : Plan) : Prop where
  runnable : plan.IsShort →
    ∃ criterion, plan.criterion schema = .ok criterion ∧ criterion.Runnable schema
  refused : ¬plan.IsShort → plan.criterion schema = .error .prefixTooLong

variable {schema : Schema} {cap : UInt8} {plan : Plan}

/-- Without beginnings nothing can go wrong. -/
theorem Lowers.of_runnable [Segmenter] {criterion : Criterion} (hstarts : plan.starts = [])
    (hcriterion : plan.criterion schema = .ok criterion)
    (hrunnable : criterion.Runnable schema) : Lowers schema plan where
  runnable := fun _ => ⟨criterion, hcriterion, hrunnable⟩
  refused := fun hlong => absurd (by simp [IsShort, hstarts]) hlong

theorem prefixCriteria_of_isShort {clauses : List PrefixClause}
    (hshort : (Plan.startsWith clauses).IsShort) :
    prefixCriteria clauses =
      .ok (.bool [] (clauses.map fun clause => .startsWith clause.field clause.start) []) := by
  refine if_neg ?_
  simpa [IsShort, starts] using hshort

theorem prefixCriteria_of_not_isShort {clauses : List PrefixClause}
    (hlong : ¬(Plan.startsWith clauses).IsShort) :
    prefixCriteria clauses = .error .prefixTooLong := by
  refine if_pos ?_
  simpa [IsShort, starts] using hlong

theorem lowers_startsWith [Segmenter] {clauses : List PrefixClause} (hclauses : clauses ≠ [])
    (hsearchable : ∀ clause ∈ clauses, schema.Searchable clause.field) :
    Lowers schema (.startsWith clauses) := by
  constructor
  · intro hshort
    refine ⟨_, prefixCriteria_of_isShort hshort, ?_⟩
    refine .bool (.inr (.inl (by simpa using hclauses))) (by simp) ?_ (by simp)
    intro part hpart
    obtain ⟨clause, hclause, rfl⟩ := List.mem_map.mp hpart
    exact .startsWith (hsearchable clause hclause)
  · exact prefixCriteria_of_not_isShort

theorem criteria_of_isShort [Segmenter] {plans : List Plan}
    (hlowers : ∀ plan ∈ plans, Lowers schema plan) (hshort : ∀ plan ∈ plans, plan.IsShort) :
    ∃ found, criteria schema plans = .ok found ∧ ∀ part ∈ found, part.Runnable schema := by
  induction plans with
  | nil => exact ⟨[], rfl, by simp⟩
  | cons plan rest ih =>
      rw [List.forall_mem_cons] at hlowers hshort
      obtain ⟨first, hfirst, hrunnable⟩ := hlowers.1.runnable hshort.1
      obtain ⟨found, hfound, hall⟩ := ih hlowers.2 hshort.2
      refine ⟨first :: found, by simp only [criteria, hfirst, hfound], ?_⟩
      rw [List.forall_mem_cons]
      exact ⟨hrunnable, hall⟩

theorem criteria_of_not_isShort [Segmenter] {plans : List Plan}
    (hlowers : ∀ plan ∈ plans, Lowers schema plan) (hlong : ¬∀ plan ∈ plans, plan.IsShort) :
    criteria schema plans = .error .prefixTooLong := by
  induction plans with
  | nil => exact absurd (by simp) hlong
  | cons plan rest ih =>
      rw [List.forall_mem_cons] at hlowers hlong
      by_cases hshort : plan.IsShort
      · obtain ⟨first, hfirst, -⟩ := hlowers.1.runnable hshort
        have hrest := ih hlowers.2 fun hall => hlong ⟨hshort, hall⟩
        simp only [criteria, hfirst, hrest]
      · simp only [criteria, hlowers.1.refused hshort]

theorem lowers_bool [Segmenter] {must should mustNot : List Plan}
    (hmust : ∀ plan ∈ must, Lowers schema plan) (hshould : ∀ plan ∈ should, Lowers schema plan)
    (hmustNot : ∀ plan ∈ mustNot, Lowers schema plan) :
    Lowers schema (.bool must should mustNot) := by
  constructor
  · rw [isShort_bool]
    rintro ⟨hmustShort, hshouldShort, hmustNotShort⟩
    obtain ⟨musts, hmusts, hmustRun⟩ := criteria_of_isShort hmust hmustShort
    obtain ⟨shoulds, hshoulds, hshouldRun⟩ := criteria_of_isShort hshould hshouldShort
    obtain ⟨mustNots, hmustNots, hmustNotRun⟩ := criteria_of_isShort hmustNot hmustNotShort
    refine ⟨.ofClauses musts shoulds mustNots, ?_,
      Criterion.runnable_ofClauses hmustRun hshouldRun hmustNotRun⟩
    simp only [criterion, hmusts, hshoulds, hmustNots, Criterion.ofClauses]
    split <;> rfl
  · rw [isShort_bool]
    intro hlong
    by_cases hmustShort : ∀ plan ∈ must, plan.IsShort
    · obtain ⟨musts, hmusts, -⟩ := criteria_of_isShort hmust hmustShort
      by_cases hshouldShort : ∀ plan ∈ should, plan.IsShort
      · obtain ⟨shoulds, hshoulds, -⟩ := criteria_of_isShort hshould hshouldShort
        have hlast := criteria_of_not_isShort hmustNot fun hall =>
          hlong ⟨hmustShort, hshouldShort, hall⟩
        simp only [criterion, hmusts, hshoulds, hlast]
      · simp only [criterion, hmusts, criteria_of_not_isShort hshould hshouldShort]
    · simp only [criterion, criteria_of_not_isShort hmust hmustShort]

end Plan

/-- No clause of the query is a text of the query language. -/
def QueryDef.IsTextless (query : QueryDef) : Prop :=
  ∀ clause ∈ query.clauses, ∀ sought names, clause ≠ .text sought names

theorem QueryDef.isTextless_of_mem {must should mustNot : List QueryDef} {clause : QueryDef}
    (htextless : (bool must should mustNot).IsTextless)
    (hclause : clause ∈ must ++ should ++ mustNot) : clause.IsTextless :=
  fun part hpart => htextless part (clauses_subset hclause hpart)

namespace Plan

variable {schema : Schema} {cap : UInt8}

mutual

/-- A plan that fits the schema can be lowered; there is one case for each type of query. -/
theorem lowers_of_realizes [Segmenter] (query : QueryDef) {plan : Plan}
    (hplan : Realizes schema cap query plan) (htextless : query.IsTextless) :
    Lowers schema plan := by
  cases hplan with
  | text _ => exact absurd rfl (htextless _ List.mem_cons_self _ _)
  | fuzzy htargets hwords _ hfit =>
      refine .of_runnable rfl rfl
        (runnable_fuzzyCriteria htargets.nonempty htargets.searchable hwords ?_)
      intro word hword
      exact Nat.le_trans (hfit word hword).distance
        (Nat.le_trans (Nat.min_le_right _ _) (Nat.min_le_right _ _))
  | phrase htargets _ hcut =>
      obtain ⟨found, hfound, hrunnable⟩ := exists_phraseCriteria _ htargets.searchable hcut
      exact .of_runnable rfl hfound hrunnable
  | startsWith htargets _ =>
      refine lowers_startsWith ?_ fun clause hclause =>
        htargets.searchable _ (List.mem_map_of_mem hclause)
      rintro rfl
      exact htargets.nonempty rfl
  | term _ hfield hindexed hkind _ => exact .of_runnable rfl rfl (.equals hfield hindexed hkind)
  | rangeI64 _ hfield hfast hkind _ =>
      refine .of_runnable rfl rfl (.valueRange hfield hfast ?_)
      rw [hkind]
      exact ValueRange.isOf_integers _ _
  | rangeF64 _ hfield hfast hkind _ =>
      refine .of_runnable rfl rfl (.valueRange hfield hfast ?_)
      rw [hkind]
      exact ValueRange.isOf_floats _ _
  | @bool must should mustNot _ _ _ _ hmust hshould hmustNot =>
      exact lowers_bool
        (lowers_of_forall₂ must hmust fun clause hclause =>
          QueryDef.isTextless_of_mem htextless (by simp [hclause]))
        (lowers_of_forall₂ should hshould fun clause hclause =>
          QueryDef.isTextless_of_mem htextless (by simp [hclause]))
        (lowers_of_forall₂ mustNot hmustNot fun clause hclause =>
          QueryDef.isTextless_of_mem htextless (by simp [hclause]))
  | all => exact .of_runnable rfl rfl .all
  | fuzzyNothing | phraseNothing | boolNothing => exact .of_runnable rfl rfl .nothing
  termination_by structural query

theorem lowers_of_forall₂ [Segmenter] (queries : List QueryDef) {plans : List Plan}
    (hplans : List.Forall₂ (Realizes schema cap) queries plans)
    (htextless : ∀ query ∈ queries, query.IsTextless) :
    ∀ plan ∈ plans, Lowers schema plan := by
  cases hplans with
  | nil => simp
  | @cons query _ rest _ hplan hrest =>
      rw [List.forall_mem_cons] at htextless
      rw [List.forall_mem_cons]
      exact ⟨lowers_of_realizes query hplan htextless.1,
        lowers_of_forall₂ rest hrest htextless.2⟩
  termination_by structural queries

end

end Plan

namespace Index

variable {index : Index} {state : OpenIndex} {query : QueryDef} {plan : Plan}

/-- A query that compiles fails for nothing but a beginning that is too long. -/
theorem answer_of_not_isShort [Segmenter] (hopen : index.state = some state)
    (htextless : query.IsTextless)
    (hplan : Plan.compile state.schema index.settings.maxFuzzyDistance query = .ok plan)
    (hlong : ¬plan.IsShort) (limit : Option UInt64) (offset : UInt64) :
    index.answer ⟨query, limit, offset⟩ = .error (.query (.unsearchable .prefixTooLong)) := by
  have hlowers := Plan.lowers_of_realizes query (Plan.realizes_of_ofQuery query hplan) htextless
  simp only [answer, sought, opened, hopen, criterion, hplan, hlowers.refused hlong]

/--
On an open index every query without a text that compiles is answered, whatever was committed and
whatever part of the hits is asked for, if the beginnings it looks for are short enough. All parts
of its criterion meet the demands on them, and whenever hits are collected, at least one is wanted.
-/
theorem answer_of_compile [Segmenter] (hopen : index.state = some state)
    (htextless : query.IsTextless)
    (hplan : Plan.compile state.schema index.settings.maxFuzzyDistance query = .ok plan)
    (hshort : plan.IsShort) (limit : Option UInt64) (offset : UInt64) :
    (∃ criterion, plan.criterion state.schema = .ok criterion ∧
      criterion.Runnable state.schema) ∧
    (∃ page, index.answer ⟨query, limit, offset⟩ = .ok page) ∧
    ∀ window, (Request.paging ⟨query, limit, offset⟩ index.settings).window?
      (UInt64.ofNat state.committed.length) = some window → 1 ≤ window.limit := by
  have hlowers := Plan.lowers_of_realizes query (Plan.realizes_of_ofQuery query hplan) htextless
  obtain ⟨found, hfound, hrunnable⟩ := hlowers.runnable hshort
  refine ⟨⟨found, hfound, hrunnable⟩, ?_, fun window => Paging.one_le_of_window?⟩
  simp only [answer, sought, opened, hopen, criterion, hplan, hfound, hrunnable.refusal?]
  exact ⟨_, rfl⟩

end Index

/-- A query for a library with clauses of most kinds, but without a text. -/
def voyageQuery : QueryDef :=
  .bool [.phrase "White Whale" []] [Plan.whaleQuery, .term "year" (.integer 1851)] []

def voyagePlan : Plan :=
  .bool [.phrase "White Whale" [0]] [Plan.whalePlan, .term 1 (.i64 1851)] []

section

attribute [local instance] Segmenter.byRuns

theorem voyageQuery_answered :
    openLibrary.state = some libraryState ∧ voyageQuery.IsTextless ∧
    Plan.compile librarySchema 2 voyageQuery = .ok voyagePlan ∧ voyagePlan.IsShort ∧
    ∃ page, openLibrary.answer ⟨voyageQuery, some 10, 0⟩ = .ok page := by
  have hopen : openLibrary.state = some libraryState := rfl
  have htextless : voyageQuery.IsTextless := by
    intro clause hclause sought names
    simp only [voyageQuery, Plan.whaleQuery, QueryDef.clauses, QueryDef.clausesOfList] at hclause
    rintro rfl
    simp at hclause
  have hplan : Plan.compile librarySchema 2 voyageQuery = .ok voyagePlan := rfl
  have hshort : voyagePlan.IsShort := by
    have hstarts : voyagePlan.starts = ["whale"] := rfl
    simp only [Plan.IsShort, hstarts, List.forall_mem_singleton]
    decide
  exact ⟨hopen, htextless, hplan, hshort,
    (Index.answer_of_compile hopen htextless hplan hshort (some 10) 0).2.1⟩

end

end DocIndex
