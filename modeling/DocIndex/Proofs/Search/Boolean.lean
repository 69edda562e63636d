import DocIndex.Proofs.Query.ClausePaging
import DocIndex.Proofs.Search.Paging
import Mathlib.Data.List.Forall2
import Mathlib.Data.Set.Lattice

/-!
Boolean queries. What a `bool` query finds depends on nothing but what its clauses find when each is
asked alone: the intersection of `must`, or the union of `should` if there is no `must`, less the
union of `must_not`. So the order and the repetition of clauses mean nothing, and neither does what
a clause says about paging.
-/

namespace DocIndex

namespace Criterion

theorem admitsAll_iff (entry : Entry) (criteria : List Criterion) :
    admitsAll entry criteria = true ↔ ∀ criterion ∈ criteria, criterion.admits entry = true := by
  induction criteria with
  | nil => simp [admitsAll]
  | cons criterion rest ih => simp [admitsAll, ih]

theorem admitsAny_iff (entry : Entry) (criteria : List Criterion) :
    admitsAny entry criteria = true ↔ ∃ criterion ∈ criteria, criterion.admits entry = true := by
  induction criteria with
  | nil => simp [admitsAny]
  | cons criterion rest ih => simp [admitsAny, ih]

theorem firstRefusal?_eq_none {schema : Schema} {criteria : List Criterion}
    (hterms : ∀ criterion ∈ criteria, criterion.refusal? schema = none) :
    firstRefusal? schema criteria = none := by
  induction criteria with
  | nil => rfl
  | cons criterion rest ih =>
      rw [firstRefusal?, hterms criterion List.mem_cons_self,
        ih fun other hother => hterms other (List.mem_cons_of_mem _ hother)]
      rfl

/-- The criterion of clauses; exclusions alone exclude from all documents. -/
def ofClauses (must should mustNot : List Criterion) : Criterion :=
  if must.isEmpty && should.isEmpty then .bool [.all] [] mustNot else .bool must should mustNot

theorem admits_ofClauses (entry : Entry) (must should mustNot : List Criterion) :
    (ofClauses must should mustNot).admits entry = true ↔
      (must = [] → should = [] ∨ ∃ criterion ∈ should, criterion.admits entry = true) ∧
      (∀ criterion ∈ must, criterion.admits entry = true) ∧
      ¬∃ criterion ∈ mustNot, criterion.admits entry = true := by
  have hnone : admitsAny entry mustNot = false ↔
      ¬∃ criterion ∈ mustNot, criterion.admits entry = true := by
    rw [← admitsAny_iff, Bool.not_eq_true]
  cases must with
  | nil =>
      cases should with
      | nil => simp [ofClauses, admits, admitsAll, hnone]
      | cons criterion rest => simp [ofClauses, admits, admitsAny_iff, hnone]
  | cons criterion rest => simp [ofClauses, admits, admitsAll_iff, hnone]

theorem refusal?_ofClauses {schema : Schema} {must should mustNot : List Criterion}
    (hmust : ∀ criterion ∈ must, criterion.refusal? schema = none)
    (hshould : ∀ criterion ∈ should, criterion.refusal? schema = none)
    (hmustNot : ∀ criterion ∈ mustNot, criterion.refusal? schema = none) :
    (ofClauses must should mustNot).refusal? schema = none := by
  unfold ofClauses
  split <;>
    simp [refusal?, firstRefusal?, firstRefusal?_eq_none hmust,
      firstRefusal?_eq_none hshould, firstRefusal?_eq_none hmustNot]

end Criterion

/-! Planning -/

/-- A query comes down to a criterion that a search can look up. -/
def Seeks [Segmenter] (schema : Schema) (settings : Settings) (query : QueryDef)
    (criterion : Criterion) :
    Prop :=
  Index.criterion schema settings query = .ok criterion ∧ criterion.refusal? schema = none

theorem seeks_iff_plan [Segmenter] {schema : Schema} {settings : Settings} {query : QueryDef}
    {criterion : Criterion} :
    Seeks schema settings query criterion ↔
      (∃ plan, Plan.compile schema settings.maxFuzzyDistance query = .ok plan ∧
        plan.criterion schema = .ok criterion) ∧ criterion.refusal? schema = none := by
  have hcriterion : Index.criterion schema settings query = .ok criterion ↔
      ∃ plan, Plan.compile schema settings.maxFuzzyDistance query = .ok plan ∧
        plan.criterion schema = .ok criterion := by
    unfold Index.criterion
    cases Plan.compile schema settings.maxFuzzyDistance query with
    | error fault => simp
    | ok plan => cases hplan : plan.criterion schema <;> simp [hplan]
  rw [Seeks, hcriterion]

/-- Clauses that come down to criteria one by one do so together. -/
theorem exists_criteria_of_seeks [Segmenter] {schema : Schema} {settings : Settings}
    {queries : List QueryDef} {criteria : List Criterion}
    (hseeks : List.Forall₂ (Seeks schema settings) queries criteria) :
    ∃ plans,
      Plan.ofQueries schema (min settings.maxFuzzyDistance Plan.distanceCap) queries = .ok plans ∧
      Plan.criteria schema plans = .ok criteria := by
  induction hseeks with
  | nil => exact ⟨[], rfl, rfl⟩
  | cons hhead _ ih =>
      obtain ⟨⟨plan, hplan, hcriterion⟩, -⟩ := seeks_iff_plan.mp hhead
      obtain ⟨plans, hplans, hcriteria⟩ := ih
      rw [Plan.compile] at hplan
      refine ⟨plan :: plans, ?_, ?_⟩
      · simp only [Plan.ofQueries, hplan, hplans]
      · simp only [Plan.criteria, hcriterion, hcriteria]

theorem forall_refusal? [Segmenter] {schema : Schema} {settings : Settings}
    {queries : List QueryDef} {criteria : List Criterion}
    (hseeks : List.Forall₂ (Seeks schema settings) queries criteria) :
    ∀ criterion ∈ criteria, criterion.refusal? schema = none := by
  induction hseeks with
  | nil => simp
  | cons hhead _ ih =>
      intro criterion hcriterion
      rcases List.mem_cons.mp hcriterion with rfl | hrest
      · exact hhead.2
      · exact ih criterion hrest

theorem seeks_bool [Segmenter] {schema : Schema} {settings : Settings}
    {must should mustNot : List QueryDef} {musts shoulds mustNots : List Criterion}
    (hsome : must ≠ [] ∨ should ≠ [] ∨ mustNot ≠ [])
    (hmust : List.Forall₂ (Seeks schema settings) must musts)
    (hshould : List.Forall₂ (Seeks schema settings) should shoulds)
    (hmustNot : List.Forall₂ (Seeks schema settings) mustNot mustNots) :
    Seeks schema settings (.bool must should mustNot)
      (.ofClauses musts shoulds mustNots) := by
  obtain ⟨mustPlans, hmustPlans, hmusts⟩ := exists_criteria_of_seeks hmust
  obtain ⟨shouldPlans, hshouldPlans, hshoulds⟩ := exists_criteria_of_seeks hshould
  obtain ⟨mustNotPlans, hmustNotPlans, hmustNots⟩ := exists_criteria_of_seeks hmustNot
  refine seeks_iff_plan.mpr ⟨⟨.bool mustPlans shouldPlans mustNotPlans, ?_, ?_⟩, ?_⟩
  · rw [Plan.compile, Plan.ofQuery, hmustPlans, hshouldPlans, hmustNotPlans]
    rintro rfl rfl rfl
    simp at hsome
  · rw [Plan.criterion, hmusts, hshoulds, hmustNots]
    simp only [Criterion.ofClauses]
    split <;> rfl
  · exact Criterion.refusal?_ofClauses (forall_refusal? hmust)
      (forall_refusal? hshould) (forall_refusal? hmustNot)

theorem seeks_bool_nil [Segmenter] (schema : Schema) (settings : Settings) :
    Seeks schema settings (.bool [] [] []) .nothing :=
  ⟨rfl, rfl⟩

namespace Index

/-- The documents that a query finds when it is asked alone and without a bound. -/
def found [Segmenter] (index : Index) (query : QueryDef) : Set Document :=
  {document | ∃ hits, index.ranking query = .ok hits ∧ document ∈ hits.map (·.2)}

section Committed

variable {index : Index} {state : OpenIndex} (hopen : index.state = some state)

include hopen

theorem ranking_eq_ok_iff [Segmenter] {query : QueryDef} {hits : List Hit} :
    index.ranking query = .ok hits ↔
      ∃ criterion, Seeks state.schema index.settings query criterion ∧
        hits = rank (state.committed.map (Entry.ofDocument state.schema)) criterion := by
  simp only [ranking, sought, opened, hopen, Seeks]
  cases criterion state.schema index.settings query with
  | error fault => simp [Except.map]
  | ok sought =>
      cases hterms : sought.refusal? state.schema with
      | some name => simp [Except.map, hterms]
      | none => simp [Except.map, hterms, eq_comm]

theorem mem_found_iff [Segmenter] {query : QueryDef} {criterion : Criterion}
    (hseeks : Seeks state.schema index.settings query criterion) (document : Document) :
    document ∈ index.found query ↔
      document ∈ state.committed ∧
        criterion.admits (Entry.ofDocument state.schema document) = true := by
  have hranking := (ranking_eq_ok_iff hopen).mpr ⟨criterion, hseeks, rfl⟩
  have hmem := (documents_rank_perm state.schema state.committed criterion).mem_iff (a := document)
  rw [List.mem_filter] at hmem
  constructor
  · rintro ⟨hits, hhits, hdocument⟩
    obtain rfl := Except.ok.inj (hranking.symm.trans hhits)
    exact hmem.mp hdocument
  · intro hdocument
    exact ⟨_, hranking, hmem.mpr hdocument⟩

theorem mem_committed_of_found [Segmenter] {query : QueryDef} {document : Document}
    (hfound : document ∈ index.found query) : document ∈ state.committed := by
  obtain ⟨hits, hhits, -⟩ := id hfound
  obtain ⟨criterion, hseeks, -⟩ := (ranking_eq_ok_iff hopen).mp hhits
  exact ((mem_found_iff hopen hseeks document).mp hfound).1

/-- On a committed document the criteria of clauses say what the clauses find. -/
theorem forall_admits_iff [Segmenter] {queries : List QueryDef} {criteria : List Criterion}
    (hseeks : List.Forall₂ (Seeks state.schema index.settings) queries criteria)
    {document : Document} (hdocument : document ∈ state.committed) :
    (∀ criterion ∈ criteria, criterion.admits (Entry.ofDocument state.schema document) = true) ↔
      ∀ query ∈ queries, document ∈ index.found query := by
  induction hseeks with
  | nil => simp
  | cons hhead _ ih => simp [ih, mem_found_iff hopen hhead, hdocument]

theorem exists_admits_iff [Segmenter] {queries : List QueryDef} {criteria : List Criterion}
    (hseeks : List.Forall₂ (Seeks state.schema index.settings) queries criteria)
    {document : Document} (hdocument : document ∈ state.committed) :
    (∃ criterion ∈ criteria, criterion.admits (Entry.ofDocument state.schema document) = true) ↔
      ∃ query ∈ queries, document ∈ index.found query := by
  induction hseeks with
  | nil => simp
  | cons hhead _ ih => simp [ih, mem_found_iff hopen hhead, hdocument]

/-- Queries that can be asked alone have criteria. -/
theorem exists_seeks [Segmenter] {queries : List QueryDef}
    (halone : ∀ query ∈ queries, ∃ hits, index.ranking query = .ok hits) :
    ∃ criteria, List.Forall₂ (Seeks state.schema index.settings) queries criteria := by
  induction queries with
  | nil => exact ⟨[], .nil⟩
  | cons query rest ih =>
      obtain ⟨hits, hhits⟩ := halone query List.mem_cons_self
      obtain ⟨criterion, hseeks, -⟩ := (ranking_eq_ok_iff hopen).mp hhits
      obtain ⟨criteria, hcriteria⟩ := ih fun other hother =>
        halone other (List.mem_cons_of_mem _ hother)
      exact ⟨criterion :: criteria, .cons hseeks hcriteria⟩

/-- A ranked query shows its hits as often as they were committed. -/
theorem count_of_ranking [Segmenter] {query : QueryDef} {hits : List Hit}
    (hranking : index.ranking query = .ok hits) {document : Document}
    (hfound : document ∈ index.found query) :
    (hits.map (·.2)).count document = state.committed.count document := by
  obtain ⟨criterion, hseeks, rfl⟩ := (ranking_eq_ok_iff hopen).mp hranking
  obtain ⟨-, hadmits⟩ := (mem_found_iff hopen hseeks document).mp hfound
  rw [(documents_rank_perm state.schema state.committed criterion).count_eq]
  exact List.count_filter hadmits

/-- A query can be ranked, and finds a document, as its clauses say. -/
theorem bool_of_clauses [Segmenter] {must should mustNot : List QueryDef}
    (halone : ∀ query ∈ must ++ should ++ mustNot, ∃ hits, index.ranking query = .ok hits) :
    (∃ hits, index.ranking (.bool must should mustNot) = .ok hits) ∧
    ∀ document, document ∈ index.found (.bool must should mustNot) ↔
      document ∈ state.committed ∧
      (must = [] → should = [] → mustNot ≠ []) ∧
      (must = [] → should = [] ∨ ∃ query ∈ should, document ∈ index.found query) ∧
      (∀ query ∈ must, document ∈ index.found query) ∧
      ¬∃ query ∈ mustNot, document ∈ index.found query := by
  simp only [List.mem_append, or_imp, forall_and] at halone
  obtain ⟨⟨hmust, hshould⟩, hmustNot⟩ := halone
  obtain ⟨musts, hmusts⟩ := exists_seeks hopen hmust
  obtain ⟨shoulds, hshoulds⟩ := exists_seeks hopen hshould
  obtain ⟨mustNots, hmustNots⟩ := exists_seeks hopen hmustNot
  by_cases hnone : must = [] ∧ should = [] ∧ mustNot = []
  · obtain ⟨rfl, rfl, rfl⟩ := hnone
    have hseeks := seeks_bool_nil state.schema index.settings
    refine ⟨⟨_, (ranking_eq_ok_iff hopen).mpr ⟨_, hseeks, rfl⟩⟩, ?_⟩
    intro document
    simp [mem_found_iff hopen hseeks, Criterion.admits]
  · have hseeks := seeks_bool (by tauto) hmusts hshoulds hmustNots
    refine ⟨⟨_, (ranking_eq_ok_iff hopen).mpr ⟨_, hseeks, rfl⟩⟩, ?_⟩
    intro document
    rw [mem_found_iff hopen hseeks]
    refine and_congr_right fun hdocument => ?_
    have hmustNil : musts = [] ↔ must = [] := by
      rw [← List.length_eq_zero_iff, ← List.length_eq_zero_iff, hmusts.length_eq]
    have hshouldNil : shoulds = [] ↔ should = [] := by
      rw [← List.length_eq_zero_iff, ← List.length_eq_zero_iff, hshoulds.length_eq]
    rw [Criterion.admits_ofClauses, forall_admits_iff hopen hmusts hdocument,
      exists_admits_iff hopen hshoulds hdocument, exists_admits_iff hopen hmustNots hdocument,
      hmustNil, hshouldNil]
    tauto

end Committed

/-- Whether a query can be answered does not depend on the part of its hits that is asked for. -/
theorem answer_ok_iff [Segmenter] (index : Index) (query : QueryDef) (limit : Option UInt64)
    (offset : UInt64) :
    (∃ page, index.answer ⟨query, limit, offset⟩ = .ok page) ↔
      ∃ hits, index.ranking query = .ok hits := by
  simp only [answer, ranking]
  cases index.sought query <;> simp [Except.map]

/-- A query with an answer has a ranking, with what it finds as often as that was committed. -/
theorem exists_ranking_of_answered [Segmenter] {index : Index} {state : OpenIndex}
    (hopen : index.state = some state) {query : QueryDef}
    (hanswered : ∃ page, index.query query = .ok page) :
    ∃ hits, index.ranking query = .ok hits ∧ ∀ document ∈ index.found query,
      (hits.map (·.2)).count document = state.committed.count document := by
  obtain ⟨hits, hranking⟩ := (answer_ok_iff index query none 0).mp hanswered
  exact ⟨hits, hranking, fun _ => count_of_ranking hopen hranking⟩

/-- Requests that differ in nothing but the paging within clauses have the same answer. -/
theorem search_eq_of_plainMembers_eq [Segmenter] (index : Index) {text other : String}
    {members others : List (String × Json)} (htext : Json.parse text = .ok (.object members))
    (hother : Json.parse other = .ok (.object others))
    (hplain : Query.plainMembers members = Query.plainMembers others) :
    index.search text = index.search other := by
  have hrequest : Request.ofText text = Request.ofText other := by
    simp only [Request.ofText, htext, hother]
    rw [← Request.ofJson_plainMembers members, hplain, Request.ofJson_plainMembers]
  rw [search, search, hrequest]

/--
A `bool` query of clauses that can each be asked alone can be asked, and finds what the clauses find
alone, combined as sets, each document as often as it was committed. Neither the order of the
clauses of a list nor their repetition matters, nor does any paging within them.
-/
theorem found_bool [Segmenter] {index : Index} {state : OpenIndex}
    (hopen : index.state = some state) {must should mustNot : List QueryDef}
    (halone : ∀ query ∈ must ++ should ++ mustNot, ∃ page, index.query query = .ok page) :
    (∃ page, index.query (.bool must should mustNot) = .ok page) ∧
    (must ≠ [] → index.found (.bool must should mustNot) =
      (⋂ query ∈ must, index.found query) \ ⋃ query ∈ mustNot, index.found query) ∧
    (must = [] → should ≠ [] → index.found (.bool must should mustNot) =
      (⋃ query ∈ should, index.found query) \ ⋃ query ∈ mustNot, index.found query) ∧
    (must = [] → should = [] → mustNot ≠ [] → index.found (.bool must should mustNot) =
      {document | document ∈ state.committed} \ ⋃ query ∈ mustNot, index.found query) ∧
    (must = [] → should = [] → mustNot = [] → index.found (.bool must should mustNot) = ∅) ∧
    (∀ hits, index.ranking (.bool must should mustNot) = .ok hits →
      ∀ document ∈ index.found (.bool must should mustNot),
        (hits.map (·.2)).count document = state.committed.count document) ∧
    (∀ must' should' mustNot', (∀ query, query ∈ must' ↔ query ∈ must) →
      (∀ query, query ∈ should' ↔ query ∈ should) →
      (∀ query, query ∈ mustNot' ↔ query ∈ mustNot) →
        (∃ page, index.query (.bool must' should' mustNot') = .ok page) ∧
        index.found (.bool must' should' mustNot') = index.found (.bool must should mustNot)) ∧
    ∀ text other members others, Json.parse text = .ok (.object members) →
      Json.parse other = .ok (.object others) →
      Query.plainMembers members = Query.plainMembers others →
        index.search text = index.search other := by
  simp only [query, answer_ok_iff] at halone ⊢
  obtain ⟨hranked, hmem⟩ := bool_of_clauses hopen halone
  refine ⟨hranked, ?_, ?_, ?_, ?_, ?_, ?_, ?_⟩
  · intro hmust
    ext document
    rw [hmem]
    obtain ⟨query, hquery⟩ := List.exists_mem_of_ne_nil must hmust
    simp only [Set.mem_sdiff, Set.mem_iInter, Set.mem_iUnion, exists_prop]
    constructor
    · rintro ⟨-, -, -, hall, hnone⟩
      exact ⟨hall, hnone⟩
    · rintro ⟨hall, hnone⟩
      exact ⟨mem_committed_of_found hopen (hall query hquery), fun h => absurd h hmust,
        fun h => absurd h hmust, hall, hnone⟩
  · rintro rfl hshould
    ext document
    rw [hmem]
    simp only [Set.mem_sdiff, Set.mem_iUnion, exists_prop]
    constructor
    · rintro ⟨-, -, hany, -, hnone⟩
      exact ⟨(hany trivial).resolve_left hshould, hnone⟩
    · rintro ⟨⟨query, hquery, hfound⟩, hnone⟩
      exact ⟨mem_committed_of_found hopen hfound, fun _ h => absurd h hshould,
        fun _ => .inr ⟨query, hquery, hfound⟩, by simp, hnone⟩
  · rintro rfl rfl hmustNot
    ext document
    rw [hmem]
    simp [hmustNot]
  · rintro rfl rfl rfl
    ext document
    rw [hmem]
    simp
  · intro hits hhits document hfound
    exact count_of_ranking hopen hhits hfound
  · intro must' should' mustNot' hmust hshould hmustNot
    have halone' : ∀ query ∈ must' ++ should' ++ mustNot',
        ∃ hits, index.ranking query = .ok hits := by
      intro query hquery
      apply halone
      simpa only [List.mem_append, hmust, hshould, hmustNot] using hquery
    obtain ⟨hranked', hmem'⟩ := bool_of_clauses hopen halone'
    refine ⟨hranked', ?_⟩
    ext document
    rw [hmem, hmem']
    simp only [List.eq_nil_iff_forall_not_mem, ne_eq, hmust, hshould, hmustNot]
  · intro text other members others htext hother hplain
    exact search_eq_of_plainMembers_eq index htext hother hplain

end Index

section

attribute [local instance] Segmenter.byRuns

/-- Of all novels, less those of a year from 1890 on, a library finds the one of 1815. -/
theorem library_found_before_1890 : openLibrary.state = some libraryState ∧
    (∀ query ∈ [QueryDef.all] ++ [] ++ [.rangeI64 "year" (some 1890) none],
      ∃ page, openLibrary.query query = .ok page) ∧
    novel "emma" 1815 ∈
      openLibrary.found (.bool [.all] [] [.rangeI64 "year" (some 1890) none]) ∧
    novel "dracula" 1897 ∉
      openLibrary.found (.bool [.all] [] [.rangeI64 "year" (some 1890) none]) := by
  have hopen : openLibrary.state = some libraryState := rfl
  have halone : ∀ query ∈ [QueryDef.all] ++ [] ++ [.rangeI64 "year" (some 1890) none],
      ∃ page, openLibrary.query query = .ok page := by
    simp only [List.append_nil, List.cons_append, List.nil_append, List.forall_mem_cons]
    exact ⟨⟨_, rfl⟩, ⟨_, rfl⟩, by simp⟩
  have hall : Seeks librarySchema {} .all .all := ⟨rfl, rfl⟩
  have hrange : Seeks librarySchema {} (.rangeI64 "year" (some 1890) none)
      (.valueRange 1 (.integers (some 1890) none)) := ⟨rfl, rfl⟩
  refine ⟨hopen, halone, ?_⟩
  rw [(Index.found_bool hopen halone).2.1 (by simp)]
  simp only [List.mem_singleton, Set.iInter_iInter_eq_left, Set.iUnion_iUnion_eq_left,
    Set.mem_sdiff, Index.mem_found_iff hopen hall,
    Index.mem_found_iff hopen hrange]
  decide

end

end DocIndex
