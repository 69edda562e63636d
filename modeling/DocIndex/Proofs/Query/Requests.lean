import DocIndex.Index.Handle
import DocIndex.Proofs.Query.Encoding

/-!
Requests written and read back. Limit and offset stand among the members of the query, and the
canonical form mixes them by their keys; reading takes them apart again.
-/

namespace DocIndex

open Query


namespace QueryDef

/-! What comes back from its text -/

theorem legible_fieldsMember (names : List String) :
    ∀ member ∈ fieldsMember names, member.2.Legible := by
  cases names with
  | nil => exact fun member hmember => by contradiction
  | cons name rest =>
      intro member hmember
      obtain rfl := List.mem_singleton.mp hmember
      apply Json.legible_array
      intro item hitem
      obtain ⟨s, -, rfl⟩ := List.mem_map.mp hitem
      exact Json.legible_string s

theorem legible_integerBound (bound : Option Int64) : (integerBound bound).Legible := by
  cases bound with
  | none => exact Json.legible_null
  | some n => exact Json.legible_integer (Json.isWord_toInt n)

theorem legible_withType (word : String) {members : List (String × Json)}
    (hmembers : ∀ member ∈ members, member.2.Legible) :
    (Json.object (withType word members)).Legible := by
  apply Json.legible_object
  intro member hmember
  rcases List.mem_cons.mp hmember with rfl | hmember
  · exact Json.legible_string word
  · exact hmembers member hmember

theorem legible_withFields (word key sought : String) (names : List String) :
    (Json.object (withType word ((key, .string sought) :: fieldsMember names))).Legible := by
  apply legible_withType
  intro member hmember
  rcases List.mem_cons.mp hmember with rfl | hmember
  · exact Json.legible_string sought
  · exact legible_fieldsMember names member hmember

mutual

theorem legible_toJson (query : QueryDef) (hbounds : query.floatBounds = [])
    (hvalues : ∀ value ∈ query.values, value.Legible) : query.toJson.Legible := by
  cases query with
  | text query names => exact legible_withFields "text" "query" query names
  | fuzzy sought distance names =>
      have hdistance : Json.IsWord distance.toNat :=
        Json.isWord_natCast (Nat.lt_trans distance.toNat_lt (by decide))
      apply legible_withType
      simp only [List.forall_mem_cons]
      exact ⟨Json.legible_string sought, Json.legible_integer hdistance, legible_fieldsMember names⟩
  | phrase sought names => exact legible_withFields "phrase" "phrase" sought names
  | startsWith start names => exact legible_withFields "prefix" "prefix" start names
  | term field value =>
      have hvalue : value.Legible := hvalues value (by simp [values, clauses])
      apply legible_withType
      simp only [List.forall_mem_cons]
      exact ⟨Json.legible_string field, hvalue, by simp⟩
  | rangeI64 field min max =>
      apply legible_withType
      simp only [List.forall_mem_cons]
      exact ⟨Json.legible_string field, legible_integerBound min, legible_integerBound max, by simp⟩
  | rangeF64 field min max =>
      have hnone : min = none ∧ max = none := by simpa [floatBounds, clauses] using hbounds
      obtain ⟨rfl, rfl⟩ := hnone
      apply legible_withType
      simp only [List.forall_mem_cons]
      exact ⟨Json.legible_string field, Json.legible_null, Json.legible_null, by simp⟩
  | bool must should mustNot =>
      have hclause : ∀ clause ∈ must ++ should ++ mustNot,
          clause.floatBounds = [] ∧ ∀ value ∈ clause.values, value.Legible := by
        intro clause hclause
        constructor
        · exact List.eq_nil_of_subset_nil (hbounds ▸ floatBounds_subset hclause)
        · exact fun value hvalue => hvalues value (values_subset hclause hvalue)
      have hmust := legible_listToJson must fun clause h => hclause clause (by simp [h])
      have hshould := legible_listToJson should fun clause h => hclause clause (by simp [h])
      have hmustNot := legible_listToJson mustNot fun clause h => hclause clause (by simp [h])
      apply legible_withType
      simp only [List.forall_mem_cons]
      exact ⟨Json.legible_array hmust, Json.legible_array hshould, Json.legible_array hmustNot,
        by simp⟩
  | all => exact legible_withType "all" (by simp)
  termination_by structural query

theorem legible_listToJson (queries : List QueryDef)
    (hqueries : ∀ query ∈ queries, query.floatBounds = [] ∧ ∀ value ∈ query.values, value.Legible) :
    ∀ item ∈ listToJson queries, item.Legible := by
  cases queries with
  | nil => exact fun item hitem => by contradiction
  | cons query rest =>
      obtain ⟨hbounds, hvalues⟩ := hqueries query List.mem_cons_self
      have hrest := legible_listToJson rest fun other hother =>
        hqueries other (List.mem_cons_of_mem _ hother)
      intro item hitem
      rcases List.mem_cons.mp hitem with rfl | hitem
      · exact legible_toJson query hbounds hvalues
      · exact hrest item hitem
  termination_by structural queries

end

theorem Settled.legible {query : QueryDef} (hquery : query.Settled) (hfloats : query.floats = []) :
    query.toJson.Legible := by
  obtain ⟨hbounds, hnone⟩ := List.append_eq_nil_iff.mp hfloats
  apply legible_toJson query hbounds
  intro value hvalue
  exact ⟨List.flatMap_eq_nil_iff.mp hnone value hvalue, hquery.words value hvalue⟩

/-! Members about paging next to those of a query -/

theorem isPagingKey_toMembers (query : QueryDef) :
    ∀ member ∈ query.toMembers, isPagingKey member.1 = false := by
  cases query with
  | text query names | phrase query names | startsWith query names | fuzzy query distance names =>
      cases names <;> simp [toMembers, withType, fieldsMember, isPagingKey]
  | term | rangeI64 | rangeF64 | bool | all =>
      simp [toMembers, withType, isPagingKey]

theorem lookup_canonical (query : QueryDef) (paging : List (String × Json)) {key : String}
    (hkey : isPagingKey key = true) :
    Json.lookup key (Json.sortMembers (Json.canonicalMembers (query.toMembers ++ paging))) =
      Json.lookup key (Json.canonicalMembers paging).reverse := by
  have hnone : Json.lookup key (Json.canonicalMembers query.toMembers).reverse = none := by
    apply Json.lookup_eq_none
    intro member hmember
    rw [List.mem_reverse, Json.canonicalMembers_eq_map] at hmember
    obtain ⟨written, hwritten, rfl⟩ := List.mem_map.mp hmember
    rintro rfl
    rw [isPagingKey_toMembers query written hwritten] at hkey
    contradiction
  rw [Json.lookup_sortMembers, Json.canonicalMembers_eq_map, List.map_append,
    ← Json.canonicalMembers_eq_map, ← Json.canonicalMembers_eq_map, List.reverse_append,
    Json.lookup_append, hnone, Option.or_none]

section

variable (query : QueryDef) {paging : List (String × Json)}
  (hpaging : ∀ member ∈ paging, isPagingKey member.1 = true)
include hpaging

theorem withoutPaging_canonical :
    withoutPaging (Json.sortMembers (Json.canonicalMembers (query.toMembers ++ paging))) =
      Json.sortMembers (Json.canonicalMembers query.toMembers) := by
  have hquery : query.toMembers.filter (fun member => !isPagingKey member.1) = query.toMembers := by
    rw [List.filter_eq_self]
    intro member hmember
    rw [isPagingKey_toMembers query member hmember]
    rfl
  have hnone : paging.filter (fun member => !isPagingKey member.1) = [] := by
    rw [List.filter_eq_nil_iff]
    intro member hmember
    rw [hpaging member hmember]
    decide
  rw [withoutPaging, Json.filter_sortMembers fun key => !isPagingKey key]
  simp only [Json.canonicalMembers_eq_map, List.filter_map, Function.comp_def, List.filter_append,
    hquery, hnone, List.append_nil]

theorem checkTypes_mixed :
    checkTypes (Json.object (query.toMembers ++ paging)).canonical = .ok () := by
  rw [Json.canonical, ← checkTypes_withoutPaging, withoutPaging_canonical query hpaging]
  exact checkTypes_toJson query

theorem ofJson_mixed {limit : Option (Option UInt64)} {offset : Option UInt64}
    (hlimit : memberOf "limit" (optionalOf countOf) (Json.canonicalMembers paging).reverse =
      .ok limit)
    (hoffset : memberOf "offset" countOf (Json.canonicalMembers paging).reverse = .ok offset)
    (hvalues : ∀ value ∈ query.values, value.canonical = value)
    (hbounds : ∀ x ∈ query.floatBounds, x.isFinite = true) :
    Request.ofJson (Json.object (query.toMembers ++ paging)).canonical =
      .ok ⟨query, limit.getD none, offset.getD 0⟩ := by
  have htypes := checkTypes_mixed query hpaging
  rw [Json.canonical] at htypes ⊢
  have hdecoded := ofJson_toJson query hvalues hbounds
  rw [toJson, Json.canonical, ← withoutPaging_canonical query hpaging] at hdecoded
  have hlimitKey : isPagingKey "limit" = true := rfl
  have hoffsetKey : isPagingKey "offset" = true := rfl
  rw [memberOf, ← lookup_canonical query paging hlimitKey] at hlimit
  rw [memberOf, ← lookup_canonical query paging hoffsetKey] at hoffset
  simp only [Request.ofJson, htypes, Request.ofMembers, memberOf, hlimit, hoffset,
    filter_eq_withoutPaging, hdecoded, bind, Except.bind, pure, Except.pure]

end

end QueryDef

namespace Request

variable (request : Request)

theorem isPagingKey_pagingMembers :
    ∀ member ∈ request.pagingMembers, isPagingKey member.1 = true := by
  rw [pagingMembers]
  cases request.limit <;> simp [isPagingKey]

theorem legible_pagingMembers : ∀ member ∈ request.pagingMembers, member.2.Legible := by
  have hword : ∀ n : UInt64, (Json.integer n.toNat).Legible :=
    fun n => Json.legible_integer (Json.isWord_natCast n.toNat_lt)
  rw [pagingMembers]
  cases request.limit <;> simp [hword]

/-- The members about paging hold no containers. -/
theorem nesting_toJson : request.toJson.nesting = request.query.toJson.nesting := by
  have hpaging : Json.nestingOfMembers request.pagingMembers = 0 := by
    rw [pagingMembers]
    cases request.limit <;> rfl
  rw [toJson, QueryDef.toJson, Json.nesting, Json.nesting, Json.nestingOfMembers_append, hpaging,
    Nat.max_zero]

theorem memberOf_of_lookup {α : Type} {key : String} {decode : Json → Except Json.Mismatch α}
    {members : List (String × Json)} {json : Json} {a : α}
    (hlookup : Json.lookup key members = some json) (hdecode : decode json = .ok a) :
    memberOf key decode members = .ok (some a) := by
  simp only [memberOf, hlookup, hdecode, Except.map]

theorem memberOf_limit :
    memberOf "limit" (optionalOf countOf) (Json.canonicalMembers request.pagingMembers).reverse =
      .ok (request.limit.map some) := by
  rw [pagingMembers]
  cases request.limit with
  | none => rfl
  | some limit =>
      have hlimit : optionalOf countOf (.integer limit.toNat) = .ok (some limit) := by
        rw [optionalOf, QueryDef.countOf_toNat, Except.map]
        intro hnull
        contradiction
      exact memberOf_of_lookup rfl hlimit

theorem memberOf_offset :
    memberOf "offset" countOf (Json.canonicalMembers request.pagingMembers).reverse =
      .ok (some request.offset) := by
  have hlookup : Json.lookup "offset" (Json.canonicalMembers request.pagingMembers).reverse =
      some (.integer request.offset.toNat) := by
    rw [pagingMembers]
    cases request.limit <;> rfl
  exact memberOf_of_lookup hlookup (QueryDef.countOf_toNat request.offset)

/-- What is written passes the check of its types. -/
theorem checkTypes_toJson : checkTypes request.toJson.canonical = .ok () :=
  QueryDef.checkTypes_mixed request.query request.isPagingKey_pagingMembers

/-- What is written is decoded to the request that it was written from. -/
theorem ofJson_toJson (hvalues : ∀ value ∈ request.query.values, value.canonical = value)
    (hbounds : ∀ x ∈ request.query.floatBounds, x.isFinite = true) :
    Request.ofJson request.toJson.canonical = .ok request := by
  have hmixed := QueryDef.ofJson_mixed request.query request.isPagingKey_pagingMembers
    request.memberOf_limit request.memberOf_offset hvalues hbounds
  rw [toJson, hmixed]
  cases request with
  | mk query limit offset => cases limit <;> rfl

variable (hquery : request.query.Settled) (hfloats : request.query.floats = [])
include hquery hfloats

theorem legible_toJson : request.toJson.Legible := by
  apply Json.legible_object
  intro member hmember
  rcases List.mem_append.mp hmember with hmember | hmember
  · exact (hquery.legible hfloats).member member hmember
  · exact request.legible_pagingMembers member hmember

/-- The text of a request without floats is read as that request. -/
theorem ofText_toText (hnesting : request.toJson.nesting ≤ Json.maxDepth) :
    ofText request.toText = .ok request := by
  have hbounds : request.query.floatBounds = [] := (List.append_eq_nil_iff.mp hfloats).1
  rw [ofText, toText, Json.parse_compact (request.legible_toJson hquery hfloats) hnesting]
  exact request.ofJson_toJson hquery.canonical (by simp [hbounds])

end Request

/-- A text that is read as a query asks for it with the default paging. -/
theorem QueryDef.ofText_of_read {query : QueryDef} {text : String}
    (hread : Json.read text = .ok query.toJson)
    (hvalues : ∀ value ∈ query.values, value.canonical = value)
    (hbounds : ∀ x ∈ query.floatBounds, x.isFinite = true) :
    Request.ofText text = .ok ⟨query, none, 0⟩ := by
  have hpaging : ∀ member ∈ ([] : List (String × Json)), isPagingKey member.1 = true := by simp
  have hlimit : memberOf "limit" (optionalOf countOf) [] = .ok none := rfl
  have hoffset : memberOf "offset" countOf [] = .ok none := rfl
  have hmixed := ofJson_mixed query hpaging hlimit hoffset hvalues hbounds
  rw [List.append_nil] at hmixed
  rw [Request.ofText, Json.parse, hread]
  exact hmixed

/-- The text of a query without floats is read as a request for it with the default paging. -/
theorem QueryDef.ofText_compact {query : QueryDef} (hquery : query.Settled)
    (hfloats : query.floats = []) (hnesting : query.toJson.nesting ≤ Json.maxDepth) :
    Request.ofText query.toJson.compact = .ok ⟨query, none, 0⟩ := by
  have hbounds : query.floatBounds = [] := (List.append_eq_nil_iff.mp hfloats).1
  exact ofText_of_read (Json.read_compact (hquery.legible hfloats) hnesting) hquery.canonical
    (by simp [hbounds])

/--
A request comes back from its JSON when its floats are finite, and from its text when it has none.
So it does not matter whether a query is asked for by itself or by its text.
-/
theorem Request.comes_back [Segmenter] (request : Request) (hquery : request.query.Settled) :
    checkTypes request.toJson.canonical = .ok () ∧
    ((∀ x ∈ request.query.floats, x.isFinite = true) →
      Request.ofJson request.toJson.canonical = .ok request) ∧
    (request.query.floats = [] → request.toJson.nesting ≤ Json.maxDepth →
      Request.ofText request.toText = .ok request ∧
      ∀ index : Index,
        index.search (Request.toText ⟨request.query, none, 0⟩) = index.query request.query ∧
        index.search request.query.toJson.compact = index.query request.query) := by
  refine ⟨request.checkTypes_toJson, ?_, ?_⟩
  · intro hfinite
    apply request.ofJson_toJson hquery.canonical
    intro x hx
    exact hfinite x (List.mem_append_left _ hx)
  · intro hfloats hnesting
    have hquestion : request.query.toJson.nesting ≤ Json.maxDepth :=
      request.nesting_toJson ▸ hnesting
    have hplain : Request.ofText request.query.toJson.compact = .ok ⟨request.query, none, 0⟩ :=
      QueryDef.ofText_compact hquery hfloats hquestion
    have hdefault : Request.ofText (Request.toText ⟨request.query, none, 0⟩) =
        .ok ⟨request.query, none, 0⟩ := by
      apply Request.ofText_toText ⟨request.query, none, 0⟩ hquery hfloats
      rwa [Request.nesting_toJson]
    refine ⟨request.ofText_toText hquery hfloats hnesting, ?_⟩
    intro index
    constructor
    · rw [Index.search, hdefault]
      rfl
    · rw [Index.search, hplain]
      rfl

/-- A request with clauses of many types, one of them about a value that holds others. -/
def seaStories : Request where
  query := .bool [.text "sea \"tale\"" ["title", "body"], .fuzzy "whale" 1 []]
    [.term "tag" (.object [("kind", .array [.integer 7, .null]), ("name", .string "a/b\n")]),
      .bool [] [.phrase "white whale" [], .all] []]
    [.rangeI64 "year" (some (-5)) none, .rangeF64 "rating" none none, .startsWith "mo" []]
  limit := some 5
  offset := 2

theorem seaStories_settled : seaStories.query.Settled := by
  have hvalues : seaStories.query.values =
      [.object [("kind", .array [.integer 7, .null]), ("name", .string "a/b\n")]] := rfl
  constructor
  · intro value hvalue
    rw [hvalues, List.mem_singleton] at hvalue
    subst hvalue
    simp (disch := decide) only [Json.canonical, Json.canonicalMembers, Json.canonicalMember,
      Json.canonicalItems, Json.sortMembers, List.foldl, Json.insertMember_nil,
      Json.insertMember_of_gt]
  · intro value hvalue n hn
    rw [hvalues, List.mem_singleton] at hvalue
    subst hvalue
    have hseven : n = 7 := by
      simpa [Json.parts, Json.partsOfItems, Json.partsOfMembers, Json.partsOfMember] using hn
    subst hseven
    exact Json.isWord_natCast (by decide)

section

attribute [local instance] Segmenter.byRuns

theorem seaStories_comes_back :
    seaStories.query.Settled ∧ Request.ofText seaStories.toText = .ok seaStories ∧
      ∀ index : Index,
        index.search seaStories.query.toJson.compact = index.query seaStories.query := by
  obtain ⟨-, -, htext⟩ := seaStories.comes_back seaStories_settled
  obtain ⟨hread, hsearch⟩ := htext rfl (by decide)
  exact ⟨seaStories_settled, hread, fun index => (hsearch index).2⟩

end

end DocIndex
