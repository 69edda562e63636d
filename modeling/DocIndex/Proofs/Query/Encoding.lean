import DocIndex.Index.Handle
import DocIndex.Proofs.Json.Members
import DocIndex.Proofs.Json.Reading
import DocIndex.Proofs.Query.ClausePaging
import DocIndex.Proofs.Query.Clauses

/-!
Requests written as JSON. The type stands next to the parts of a query, and limit and offset next to
both, so the canonical form mixes all of them by their keys; decoding it gives the request back. The
text of a request without floats is read as that request.
-/

namespace DocIndex

open Query

namespace Json

theorem canonicalItems_strings (names : List String) :
    canonicalItems (names.map .string) = names.map .string := by
  induction names with
  | nil => rfl
  | cons name rest ih => rw [List.map_cons, canonicalItems, ih, canonical]

end Json

namespace QueryDef

/-! The canonical form of each type of query -/

theorem canonical_fieldsMember (names : List String) :
    Json.canonicalMembers (fieldsMember names) = fieldsMember names := by
  cases names with
  | nil => rfl
  | cons name rest =>
      simp only [fieldsMember, Json.canonicalMembers, Json.canonicalMember, Json.canonical,
        Json.canonicalItems_strings]

/-- A query about what stands under one key, in some fields. -/
theorem canonical_withFields (word sought : String) {key : String} (hfields : "fields" < key)
    (htype : key < "type") (names : List String) :
    Json.canonical (.object (withType word ((key, .string sought) :: fieldsMember names))) =
      .object (fieldsMember names ++ [(key, .string sought), ("type", .string word)]) := by
  simp only [withType, Json.canonical, Json.canonicalMembers, Json.canonicalMember,
    canonical_fieldsMember]
  cases names with
  | nil =>
      simp (disch := first | assumption | decide) only [fieldsMember, Json.sortMembers, List.foldl,
        Json.insertMember_nil, Json.insertMember_of_lt, List.nil_append]
  | cons name rest =>
      simp (disch := first | assumption | decide) only [fieldsMember, Json.sortMembers, List.foldl,
        Json.insertMember_nil, Json.insertMember_of_lt, List.cons_append, List.nil_append]

theorem canonical_fuzzy (sought : String) (distance : UInt8) (names : List String) :
    (fuzzy sought distance names).toJson.canonical =
      .object (("distance", .integer distance.toNat) :: fieldsMember names ++
        [("term", .string sought), ("type", .string "fuzzy")]) := by
  simp only [toJson, toMembers, withType, Json.canonical, Json.canonicalMembers,
    Json.canonicalMember, canonical_fieldsMember]
  cases names with
  | nil =>
      simp (disch := decide) only [fieldsMember, Json.sortMembers, List.foldl,
        Json.insertMember_nil, Json.insertMember_of_lt, List.cons_append, List.nil_append]
  | cons name rest =>
      simp (disch := decide) only [fieldsMember, Json.sortMembers, List.foldl,
        Json.insertMember_nil, Json.insertMember_of_lt, Json.insertMember_of_gt, List.cons_append,
        List.nil_append]

theorem canonical_term (field : String) (value : Json) :
    (term field value).toJson.canonical =
      .object [("field", .string field), ("type", .string "term_match"),
        ("value", value.canonical)] := by
  simp (disch := decide) only [toJson, toMembers, withType, Json.canonical, Json.canonicalMembers,
    Json.canonicalMember, Json.sortMembers, List.foldl, Json.insertMember_nil,
    Json.insertMember_of_lt, Json.insertMember_of_gt]

theorem canonical_range (word field : String) (min max : Json) :
    Json.canonical (.object (withType word [("field", .string field), ("min", min),
      ("max", max)])) =
      .object [("field", .string field), ("max", max.canonical), ("min", min.canonical),
        ("type", .string word)] := by
  simp (disch := decide) only [withType, Json.canonical, Json.canonicalMembers,
    Json.canonicalMember, Json.sortMembers, List.foldl, Json.insertMember_nil,
    Json.insertMember_of_lt, Json.insertMember_of_gt]

theorem canonical_bool (must should mustNot : List QueryDef) :
    (bool must should mustNot).toJson.canonical =
      .object [("must", .array (Json.canonicalItems (listToJson must))),
        ("must_not", .array (Json.canonicalItems (listToJson mustNot))),
        ("should", .array (Json.canonicalItems (listToJson should))),
        ("type", .string "bool")] := by
  simp (disch := decide) only [toJson, toMembers, withType, Json.canonical, Json.canonicalMembers,
    Json.canonicalMember, Json.sortMembers, List.foldl, Json.insertMember_nil,
    Json.insertMember_of_lt, Json.insertMember_of_gt]

/-! The types in what is written -/

/-- Without lists of clauses only the type of the query itself is checked. -/
theorem checkTypes_of_no_clauses {members : List (String × Json)} {word : String}
    (htype : Json.lookup "type" members = some (.string word))
    (hword : word ∈ checkedWords)
    (hkeys : ∀ member ∈ members, clauseKeys.lookup member.1 = none) :
    checkTypes (.object members) = .ok () := by
  have hnone : ∀ key, (clauseKeys.lookup key).isSome →
      (checkClauseLists members).lookup key = none := by
    intro key hkey
    have habsent : Json.lookup key members = none := by
      apply Json.lookup_eq_none
      rintro member hmember rfl
      rw [hkeys member hmember] at hkey
      contradiction
    rw [lookup_checkClauseLists, habsent, Option.map_none]
  have hmust := hnone "must" (by decide)
  have hshould := hnone "should" (by decide)
  have hmustNot := hnone "must_not" (by decide)
  simp only [checkTypes, checkType, htype, hword, if_true, checkedKeys, firstError, hmust, hshould,
    hmustNot]

mutual

/-- What is written passes the check of its types. -/
theorem checkTypes_toJson (query : QueryDef) : checkTypes query.toJson.canonical = .ok () := by
  cases query with
  | text query names =>
      rw [toJson, toMembers, canonical_withFields "text" query (by decide) (by decide)]
      cases names <;> rfl
  | fuzzy sought distance names =>
      rw [canonical_fuzzy]
      cases names <;> rfl
  | phrase sought names =>
      rw [toJson, toMembers, canonical_withFields "phrase" sought (by decide) (by decide)]
      cases names <;> rfl
  | startsWith start names =>
      rw [toJson, toMembers, canonical_withFields "prefix" start (by decide) (by decide)]
      cases names <;> rfl
  | term field value =>
      rw [canonical_term]
      exact checkTypes_of_no_clauses rfl (by decide) (by simp [clauseKeys])
  | rangeI64 field min max =>
      rw [toJson, toMembers, canonical_range]
      exact checkTypes_of_no_clauses rfl (by decide) (by simp [clauseKeys])
  | rangeF64 field min max =>
      rw [toJson, toMembers, canonical_range]
      exact checkTypes_of_no_clauses rfl (by decide) (by simp [clauseKeys])
  | bool must should mustNot =>
      rw [canonical_bool]
      have hmust := checkAllTypes_listToJson must
      have hshould := checkAllTypes_listToJson should
      have hmustNot := checkAllTypes_listToJson mustNot
      have htype : checkType [("must", .array (Json.canonicalItems (listToJson must))),
          ("must_not", .array (Json.canonicalItems (listToJson mustNot))),
          ("should", .array (Json.canonicalItems (listToJson should))),
          ("type", .string "bool")] = .ok () := rfl
      simp only [checkTypes, htype, checkClauseLists, checkClauseList, hmust, hshould, hmustNot,
        ite_self]
      rfl
  | all => rfl
  termination_by structural query

theorem checkAllTypes_listToJson (queries : List QueryDef) :
    checkAllTypes (Json.canonicalItems (listToJson queries)) = .ok () := by
  cases queries with
  | nil => rfl
  | cons query rest =>
      have hquery : checkTypes (Json.object query.toMembers).canonical = .ok () :=
        checkTypes_toJson query
      have hrest := checkAllTypes_listToJson rest
      simp only [listToJson, Json.canonicalItems, checkAllTypes, hquery, hrest]
  termination_by structural queries

end

/-! What is decoded -/

theorem allOf_strings (names : List String) : allOf stringOf (names.map .string) = .ok names := by
  induction names with
  | nil => rfl
  | cons name rest ih => simp only [List.map_cons, allOf, stringOf, ih]

theorem integerOf_of_mem {target : String} {least bound n : Int} (hleast : least ≤ n)
    (hbound : n < bound) : integerOf target least bound (.integer n) = .ok n := by
  rw [integerOf, if_pos ⟨hleast, hbound⟩]

theorem byteOf_toNat (n : UInt8) : byteOf (.integer n.toNat) = .ok n := by
  have hbound : (n.toNat : Int) < UInt8.size := by exact_mod_cast n.toNat_lt
  rw [byteOf, integerOf_of_mem (Int.natCast_nonneg _) hbound, Except.map, Int.toNat_natCast,
    UInt8.ofNat_toNat]

theorem countOf_toNat (n : UInt64) : countOf (.integer n.toNat) = .ok n := by
  have hbound : (n.toNat : Int) < UInt64.size := by exact_mod_cast n.toNat_lt
  rw [countOf, integerOf_of_mem (Int.natCast_nonneg _) hbound, Except.map, Int.toNat_natCast,
    UInt64.ofNat_toNat]

theorem int64Of_toInt (n : Int64) : int64Of (.integer n.toInt) = .ok n := by
  have hleast : -(signWeight : Int) ≤ n.toInt := n.le_toInt
  have hbound : n.toInt < (signWeight : Int) := n.toInt_lt
  rw [int64Of, integerOf_of_mem hleast hbound, Except.map, Int64.ofInt_toInt]

theorem optionalOf_integerBound (bound : Option Int64) :
    optionalOf int64Of (integerBound bound).canonical = .ok bound := by
  cases bound with
  | none => rfl
  | some n =>
      simp only [integerBound, boundJson, Json.canonical, optionalOf, int64Of_toInt, Except.map]

theorem optionalOf_floatBound {bound : Option Float} (hbound : ∀ x ∈ bound, x.isFinite = true) :
    optionalOf floatOf (floatBound bound).canonical = .ok bound := by
  cases bound with
  | none => rfl
  | some x =>
      have hx : x.isFinite = true := hbound x rfl
      simp only [floatBound, boundJson, Json.ofFloat, if_pos hx, Json.canonical, optionalOf]
      rfl

theorem ofJson_of_parts (type : QueryType) (parts : Parts) {members : List (String × Json)}
    {query : QueryDef} (htype : typeOfMembers none members = .ok type) (hbool : type ≠ .bool)
    (hparts : Parts.addMembers (partsOf type) {} members = .ok parts)
    (hfinish : parts.finish type = .ok query) : Query.ofJson (.object members) = .ok query := by
  simp only [Query.ofJson, htype]
  cases type with
  | bool => contradiction
  | text | fuzzy | phrase | startsWith | term | rangeI64 | rangeF64 | all =>
      simp only [ofMembers, hparts, bind, Except.bind, hfinish]

theorem ofJson_of_bool {members : List (String × Json)}
    (htype : typeOfMembers none members = .ok .bool) :
    Query.ofJson (.object members) = boolOfMembers {} members := by
  simp only [Query.ofJson, htype]

theorem boolOfMembers_of_clauses {clauses : Clauses} {key : String} (list : ClauseList)
    {rest : List (String × Json)} (hkey : clauseKeys.lookup key = some list)
    (hnone : clauses.get? list = none) {items : List Json} {queries : List QueryDef}
    (hitems : listOfJson items = .ok queries) :
    boolOfMembers clauses ((key, .array items) :: rest) =
      boolOfMembers (clauses.set queries list) rest := by
  simp only [boolOfMembers, boolOfMember, hkey, hnone, unlessGiven, clausesOfJson, hitems,
    Except.map]

theorem addMembers_of_known {known : List Part} {parts after : Parts} {key : String} {json : Json}
    {rest : List (String × Json)} {add : Parts → Json → Except Json.Mismatch Parts}
    (hknown : known.find? (·.1 = key) = some (key, add)) (hadd : add parts json = .ok after) :
    parts.addMembers known ((key, json) :: rest) = after.addMembers known rest := by
  simp only [Parts.addMembers, hknown, hadd]

/-- An empty list of fields, which is left out, and any other are added alike. -/
theorem addMembers_fieldsMember (known : List Part) (parts : Parts)
    (hknown : known.find? (·.1 = "fields") = some ("fields", Parts.addFields))
    (hparts : parts.fields = none) (names : List String) (more : List (String × Json)) :
    ∃ given : Option (List String), given.getD [] = names ∧
      parts.addMembers known (fieldsMember names ++ more) =
        Parts.addMembers known { parts with fields := given } more := by
  cases names with
  | nil =>
      refine ⟨none, rfl, ?_⟩
      rw [← hparts]
      rfl
  | cons name rest =>
      refine ⟨some (name :: rest), rfl, ?_⟩
      simp only [fieldsMember, List.cons_append, List.nil_append, Parts.addMembers, hknown,
        Parts.addFields, hparts, unlessGiven, stringsOf, allOf_strings, Except.map]

theorem typeOfMembers_fieldsMember (before : Option QueryType) (names : List String)
    (more : List (String × Json)) :
    typeOfMembers before (fieldsMember names ++ more) = typeOfMembers before more := by
  cases names with
  | nil => rfl
  | cons name rest => exact typeOfMembers_cons before "fields" _ more

mutual

/-- What is written is decoded to the query that it was written from. -/
theorem ofJson_toJson (query : QueryDef) (hvalues : ∀ value ∈ query.values, value.canonical = value)
    (hbounds : ∀ x ∈ query.floatBounds, x.isFinite = true) :
    Query.ofJson query.toJson.canonical = .ok query := by
  cases query with
  | text query names =>
      rw [toJson, toMembers, canonical_withFields "text" query (by decide) (by decide)]
      obtain ⟨given, rfl, hgiven⟩ := addMembers_fieldsMember (partsOf .text) {} rfl rfl
        names [("query", .string query), ("type", .string "text")]
      exact ofJson_of_parts _ _ (typeOfMembers_fieldsMember none _ _) (by decide) hgiven rfl
  | fuzzy sought distance names =>
      rw [canonical_fuzzy]
      obtain ⟨given, rfl, hgiven⟩ := addMembers_fieldsMember (partsOf .fuzzy)
        { distance := some distance } rfl rfl names
        [("term", .string sought), ("type", .string "fuzzy")]
      have hdistance : Parts.addDistance {} (.integer distance.toNat) =
          .ok { distance := some distance } := by
        rw [Parts.addDistance, byteOf_toNat]
        rfl
      have hknown : (partsOf .fuzzy).find? (·.1 = "distance") =
          some ("distance", Parts.addDistance) := by
        simp [partsOf, mainName]
      have hmembers := (addMembers_of_known hknown hdistance).trans hgiven
      exact ofJson_of_parts _ _ (typeOfMembers_fieldsMember none _ _) (by decide) hmembers rfl
  | phrase sought names =>
      rw [toJson, toMembers, canonical_withFields "phrase" sought (by decide) (by decide)]
      obtain ⟨given, rfl, hgiven⟩ := addMembers_fieldsMember (partsOf .phrase) {} rfl rfl
        names [("phrase", .string sought), ("type", .string "phrase")]
      exact ofJson_of_parts _ _ (typeOfMembers_fieldsMember none _ _) (by decide) hgiven rfl
  | startsWith start names =>
      rw [toJson, toMembers, canonical_withFields "prefix" start (by decide) (by decide)]
      obtain ⟨given, rfl, hgiven⟩ := addMembers_fieldsMember (partsOf .startsWith) {}
        rfl rfl names [("prefix", .string start), ("type", .string "prefix")]
      exact ofJson_of_parts _ _ (typeOfMembers_fieldsMember none _ _) (by decide) hgiven rfl
  | term field value =>
      have hvalue : value.canonical = value := hvalues value (by simp [values, clauses])
      rw [canonical_term, hvalue]
      refine ofJson_of_parts .term
        { main := some field, value := some value } rfl (by decide) ?_ rfl
      simp [Parts.addMembers, partsOf, mainName, Parts.addMain, Parts.addValue, unlessGiven,
        stringOf, Except.map, hvalue]
  | rangeI64 field min max =>
      rw [toJson, toMembers, canonical_range]
      refine ofJson_of_parts .rangeI64
        { main := some field, minI64 := some min, maxI64 := some max } rfl (by decide) ?_ rfl
      simp [Parts.addMembers, partsOf, mainName, Parts.addMain, unlessGiven, stringOf, Except.map,
        Parts.addMinI64, Parts.addMaxI64, optionalOf_integerBound]
  | rangeF64 field min max =>
      rw [toJson, toMembers, canonical_range]
      have hmin : ∀ x ∈ min, x.isFinite = true := fun x hx =>
        hbounds x (by simp_all [floatBounds, clauses])
      have hmax : ∀ x ∈ max, x.isFinite = true := fun x hx =>
        hbounds x (by simp_all [floatBounds, clauses])
      refine ofJson_of_parts .rangeF64
        { main := some field, minF64 := some min, maxF64 := some max } rfl (by decide) ?_ rfl
      simp [Parts.addMembers, partsOf, mainName, Parts.addMain, unlessGiven, stringOf, Except.map,
        Parts.addMinF64, Parts.addMaxF64, optionalOf_floatBound hmin, optionalOf_floatBound hmax]
  | bool must should mustNot =>
      rw [canonical_bool]
      have hclause : ∀ clause ∈ must ++ should ++ mustNot,
          (∀ value ∈ clause.values, value.canonical = value) ∧
            ∀ x ∈ clause.floatBounds, x.isFinite = true := by
        intro clause hclause
        constructor
        · exact fun value hvalue => hvalues value (values_subset hclause hvalue)
        · exact fun x hx => hbounds x (floatBounds_subset hclause hx)
      have hmust := listOfJson_listToJson must fun clause h => hclause clause (by simp [h])
      have hshould := listOfJson_listToJson should fun clause h => hclause clause (by simp [h])
      have hmustNot := listOfJson_listToJson mustNot fun clause h => hclause clause (by simp [h])
      rw [ofJson_of_bool rfl, boolOfMembers_of_clauses .must ?_ ?_ hmust,
        boolOfMembers_of_clauses .mustNot ?_ ?_ hmustNot,
        boolOfMembers_of_clauses .should ?_ ?_ hshould]
      all_goals rfl
  | all => rfl
  termination_by structural query

theorem listOfJson_listToJson (queries : List QueryDef)
    (hqueries : ∀ query ∈ queries, (∀ value ∈ query.values, value.canonical = value) ∧
      ∀ x ∈ query.floatBounds, x.isFinite = true) :
    listOfJson (Json.canonicalItems (listToJson queries)) = .ok queries := by
  cases queries with
  | nil => rfl
  | cons query rest =>
      obtain ⟨hvalues, hbounds⟩ := hqueries query List.mem_cons_self
      have hquery : Query.ofJson (Json.object query.toMembers).canonical = .ok query :=
        ofJson_toJson query hvalues hbounds
      have hrest := listOfJson_listToJson rest fun other hother =>
        hqueries other (List.mem_cons_of_mem _ hother)
      simp only [listToJson, Json.canonicalItems, listOfJson, hquery, hrest]
  termination_by structural queries

end

end QueryDef

end DocIndex
