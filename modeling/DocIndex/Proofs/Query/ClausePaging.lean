import DocIndex.Proofs.Lookup
import DocIndex.Query.Request

/-!
Paging within clauses. A clause of a query may carry a `limit` and an `offset`, as a request does,
but they mean nothing there: with or without them, at any depth, a request passes or fails the check
of its types alike and decodes to the same request, or is refused for the same reason.
-/

namespace DocIndex.Query

/-- The keys of a request that say which part of its hits is asked for. -/
def isPagingKey (key : String) : Bool :=
  key = "limit" || key = "offset"

/-- The members of an object less those that are about paging. -/
def withoutPaging (members : List (String × Json)) : List (String × Json) :=
  members.filter fun member => !isPagingKey member.1

mutual

/-- A clause without the paging in it and in the clauses below it. -/
def plainClause : Json → Json
  | .object members => .object (withoutPaging (plainMembers members))
  | json => json

def plainClauses : List Json → List Json
  | [] => []
  | item :: rest => plainClause item :: plainClauses rest

/-- Members of a query whose clauses are without paging. -/
def plainMembers : List (String × Json) → List (String × Json)
  | [] => []
  | member :: rest => plainMember member :: plainMembers rest

/-- A member of a query; if it is a list of clauses, they are without paging. -/
def plainMember : String × Json → String × Json
  | (key, .array items) =>
      (key, .array (if (clauseKeys.lookup key).isSome then plainClauses items else items))
  | (key, json) => (key, json)

end

theorem withoutPaging_cons (member : String × Json) (rest : List (String × Json)) :
    withoutPaging (member :: rest) =
      if isPagingKey member.1 then withoutPaging rest else member :: withoutPaging rest := by
  cases hkey : isPagingKey member.1 with
  | true => exact List.filter_cons_of_neg (by simp [hkey])
  | false => exact List.filter_cons_of_pos (by simp [hkey])

/-- A request is decoded from the members that are not about paging. -/
theorem filter_eq_withoutPaging (members : List (String × Json)) :
    (members.filter fun m => m.1 ≠ "limit" ∧ m.1 ≠ "offset") = withoutPaging members := by
  simp [withoutPaging, isPagingKey]

/-- The check goes on to what is decoded as lists of clauses. -/
theorem isSome_lookup_clauseKeys_iff {key : String} :
    (clauseKeys.lookup key).isSome ↔ key ∈ checkedKeys := by
  constructor
  · intro hsome
    obtain ⟨list, hlist⟩ := Option.isSome_iff_exists.mp hsome
    have hmem : (key, list) ∈ clauseKeys := (lookup_eq_some_iff_mem (by decide)).mp hlist
    have hkeys : checkedKeys = clauseKeys.map (·.1) := rfl
    exact hkeys ▸ List.mem_map_of_mem hmem
  · intro hkey
    simp only [checkedKeys, List.mem_cons, List.not_mem_nil, or_false] at hkey
    rcases hkey with rfl | rfl | rfl <;> decide

theorem exists_plainMember (key : String) (json : Json) :
    ∃ value, plainMember (key, json) = (key, value) := by
  cases json <;> exact ⟨_, rfl⟩

theorem plainMember_of_not_clauseKey {key : String} (hkey : clauseKeys.lookup key = none)
    (json : Json) : plainMember (key, json) = (key, json) := by
  cases json <;> simp [plainMember, hkey]

theorem clauseKeys_lookup_of_isPagingKey {key : String} (hkey : isPagingKey key = true) :
    clauseKeys.lookup key = none := by
  simp only [isPagingKey, Bool.or_eq_true, decide_eq_true_eq] at hkey
  rcases hkey with rfl | rfl <;> decide

theorem ne_type_of_isPagingKey {key : String} (hkey : isPagingKey key = true) : key ≠ "type" := by
  rintro rfl
  contradiction

/-! What is decoded -/

theorem typeOfMembers_cons (before : Option QueryType) (key : String) (json : Json)
    (rest : List (String × Json)) :
    typeOfMembers before ((key, json) :: rest) =
      if key = "type" then
        match before with
        | some _ => .error (.duplicateField "type")
        | none =>
            match typeOfItem json with
            | .error fault => .error fault
            | .ok type => typeOfMembers (some type) rest
      else typeOfMembers before rest := by
  cases before <;> rfl

theorem typeOfMembers_withoutPaging (before : Option QueryType) (members : List (String × Json)) :
    typeOfMembers before (withoutPaging members) = typeOfMembers before members := by
  induction members generalizing before with
  | nil => rfl
  | cons member rest ih =>
      obtain ⟨key, json⟩ := member
      rw [withoutPaging_cons]
      split
      · rename_i hkey
        rw [typeOfMembers_cons, if_neg (ne_type_of_isPagingKey hkey)]
        exact ih before
      · rw [typeOfMembers_cons, typeOfMembers_cons]
        split
        · split
          · rfl
          · split
            · rfl
            · exact ih _
        · exact ih before

theorem find?_partsOf_of_isPagingKey (type : QueryType) {key : String}
    (hkey : isPagingKey key = true) : (partsOf type).find? (·.1 = key) = none := by
  simp only [isPagingKey, Bool.or_eq_true, decide_eq_true_eq] at hkey
  rcases hkey with rfl | rfl <;> cases type <;> simp [partsOf, mainName]

theorem addMembers_withoutPaging (type : QueryType) (parts : Parts)
    (members : List (String × Json)) :
    parts.addMembers (partsOf type) (withoutPaging members) =
      parts.addMembers (partsOf type) members := by
  induction members generalizing parts with
  | nil => rfl
  | cons member rest ih =>
      obtain ⟨key, json⟩ := member
      rw [withoutPaging_cons]
      split
      · rename_i hkey
        rw [Parts.addMembers, find?_partsOf_of_isPagingKey type hkey]
        exact ih parts
      · simp only [Parts.addMembers]
        split
        · exact ih parts
        · split
          · rfl
          · exact ih _

theorem boolOfMembers_withoutPaging (clauses : Clauses) (members : List (String × Json)) :
    boolOfMembers clauses (withoutPaging members) = boolOfMembers clauses members := by
  induction members generalizing clauses with
  | nil => rfl
  | cons member rest ih =>
      obtain ⟨key, json⟩ := member
      rw [withoutPaging_cons]
      split
      · rename_i hkey
        rw [boolOfMembers, boolOfMember, clauseKeys_lookup_of_isPagingKey hkey]
        exact ih clauses
      · simp only [boolOfMembers]
        split
        · rfl
        · exact ih _

/-- Paging in an object means nothing for the query that the object is. -/
theorem ofJson_withoutPaging (members : List (String × Json)) :
    ofJson (.object (withoutPaging members)) = ofJson (.object members) := by
  simp only [ofJson, typeOfMembers_withoutPaging, boolOfMembers_withoutPaging, ofMembers,
    addMembers_withoutPaging]

theorem typeOfMembers_plainMembers (before : Option QueryType) (members : List (String × Json)) :
    typeOfMembers before (plainMembers members) = typeOfMembers before members := by
  induction members generalizing before with
  | nil => rfl
  | cons member rest ih =>
      obtain ⟨key, json⟩ := member
      by_cases hkey : key = "type"
      · subst hkey
        rw [plainMembers, plainMember_of_not_clauseKey (by decide)]
        simp only [typeOfMembers_cons, ih]
      · obtain ⟨value, hvalue⟩ := exists_plainMember key json
        rw [plainMembers, hvalue, typeOfMembers_cons, typeOfMembers_cons, if_neg hkey, if_neg hkey]
        exact ih before

theorem find?_partsOf_of_clauseKey (type : QueryType) {key : String}
    (hkey : (clauseKeys.lookup key).isSome) : (partsOf type).find? (·.1 = key) = none := by
  have hkeys := isSome_lookup_clauseKeys_iff.mp hkey
  simp only [checkedKeys, List.mem_cons, List.not_mem_nil, or_false] at hkeys
  rcases hkeys with rfl | rfl | rfl <;> cases type <;> simp [partsOf, mainName]

theorem addMembers_plainMembers (type : QueryType) (parts : Parts)
    (members : List (String × Json)) :
    parts.addMembers (partsOf type) (plainMembers members) =
      parts.addMembers (partsOf type) members := by
  induction members generalizing parts with
  | nil => rfl
  | cons member rest ih =>
      obtain ⟨key, json⟩ := member
      cases hlookup : clauseKeys.lookup key with
      | none =>
          rw [plainMembers, plainMember_of_not_clauseKey hlookup]
          simp only [Parts.addMembers, ih]
      | some list =>
          have hnone : (partsOf type).find? (·.1 = key) = none :=
            find?_partsOf_of_clauseKey type (by simp [hlookup])
          obtain ⟨value, hvalue⟩ := exists_plainMember key json
          rw [plainMembers, hvalue, Parts.addMembers, Parts.addMembers, hnone]
          exact ih parts

mutual

/-- A clause is the same query with and without paging. -/
theorem ofJson_plainClause (json : Json) : ofJson (plainClause json) = ofJson json := by
  cases json with
  | object members =>
      rw [plainClause, ofJson_withoutPaging]
      simp only [ofJson, typeOfMembers_plainMembers, boolOfMembers_plainMembers {} members,
        ofMembers, addMembers_plainMembers]
  | null | bool | integer | float | string | array => rfl
  termination_by structural json

theorem listOfJson_plainClauses (items : List Json) :
    listOfJson (plainClauses items) = listOfJson items := by
  cases items with
  | nil => rfl
  | cons item rest =>
      simp only [plainClauses, listOfJson, ofJson_plainClause item, listOfJson_plainClauses rest]
  termination_by structural items

theorem boolOfMembers_plainMembers (clauses : Clauses) (members : List (String × Json)) :
    boolOfMembers clauses (plainMembers members) = boolOfMembers clauses members := by
  cases members with
  | nil => rfl
  | cons member rest =>
      simp only [plainMembers, boolOfMembers, boolOfMember_plainMember clauses member]
      split
      · rfl
      · exact boolOfMembers_plainMembers _ rest
  termination_by structural members

theorem boolOfMember_plainMember (clauses : Clauses) (member : String × Json) :
    boolOfMember clauses (plainMember member) = boolOfMember clauses member := by
  obtain ⟨key, json⟩ := member
  cases json with
  | array items =>
      rw [plainMember]
      split
      · simp only [boolOfMember, clausesOfJson, listOfJson_plainClauses items]
      · rfl
  | null | bool | integer | float | string | object => rfl
  termination_by structural member

end

theorem ofJson_plainMembers (members : List (String × Json)) :
    ofJson (.object (plainMembers members)) = ofJson (.object members) := by
  rw [← ofJson_withoutPaging]
  exact ofJson_plainClause (.object members)

/-! What is checked -/

theorem lookup_withoutPaging {key : String} (hkey : isPagingKey key = false)
    (members : List (String × Json)) :
    Json.lookup key (withoutPaging members) = Json.lookup key members := by
  induction members with
  | nil => rfl
  | cons member rest ih =>
      obtain ⟨other, json⟩ := member
      rw [withoutPaging_cons]
      split
      · rename_i hother
        have hne : other ≠ key := by
          rintro rfl
          simp [hkey] at hother
        rw [Json.lookup, if_neg hne]
        exact ih
      · rw [Json.lookup, Json.lookup]
        split
        · rfl
        · exact ih

theorem lookup_plainMembers {key : String} (hkey : clauseKeys.lookup key = none)
    (members : List (String × Json)) :
    Json.lookup key (plainMembers members) = Json.lookup key members := by
  induction members with
  | nil => rfl
  | cons member rest ih =>
      obtain ⟨other, json⟩ := member
      by_cases hother : other = key
      · subst hother
        rw [plainMembers, plainMember_of_not_clauseKey hkey, Json.lookup, Json.lookup, if_pos rfl,
          if_pos rfl]
      · obtain ⟨value, hvalue⟩ := exists_plainMember other json
        rw [plainMembers, hvalue, Json.lookup, Json.lookup, if_neg hother, if_neg hother]
        exact ih

/-- The check of a list of clauses is found under the key that the list is found under. -/
theorem lookup_checkClauseLists (key : String) (members : List (String × Json)) :
    (checkClauseLists members).lookup key =
      (Json.lookup key members).map fun json => (checkClauseList (key, json)).2 := by
  induction members with
  | nil => rfl
  | cons member rest ih =>
      obtain ⟨other, json⟩ := member
      have hfst : (checkClauseList (other, json)).1 = other := by cases json <;> rfl
      rw [checkClauseLists, List.lookup_cons, hfst, Json.lookup, ih]
      by_cases hkey : other = key
      · subst hkey
        simp
      · simp [hkey, beq_eq_false_iff_ne.mpr (Ne.symm hkey)]

theorem firstError_congr {results others : List (String × Except QueryError Unit)}
    {keys : List String} (hlookup : ∀ key ∈ keys, results.lookup key = others.lookup key) :
    firstError results keys = firstError others keys := by
  induction keys with
  | nil => rfl
  | cons key rest ih =>
      have hrest := ih fun other hother => hlookup other (List.mem_cons_of_mem _ hother)
      simp only [firstError, hlookup key List.mem_cons_self, hrest]

/-- Paging in an object means nothing for the check of its types. -/
theorem checkTypes_withoutPaging (members : List (String × Json)) :
    checkTypes (.object (withoutPaging members)) = checkTypes (.object members) := by
  have hclauses : firstError (checkClauseLists (withoutPaging members)) checkedKeys =
      firstError (checkClauseLists members) checkedKeys := by
    apply firstError_congr
    intro key hkey
    rw [lookup_checkClauseLists, lookup_checkClauseLists, lookup_withoutPaging]
    simp only [checkedKeys, List.mem_cons, List.not_mem_nil, or_false] at hkey
    rcases hkey with rfl | rfl | rfl <;> decide
  have htype : Json.lookup "type" (withoutPaging members) = Json.lookup "type" members :=
    lookup_withoutPaging (by decide) members
  simp only [checkTypes, checkType, htype, hclauses]

mutual

/-- The types of a clause are checked alike with and without paging. -/
theorem checkTypes_plainClause (json : Json) : checkTypes (plainClause json) = checkTypes json := by
  cases json with
  | object members =>
      have htype : Json.lookup "type" (plainMembers members) = Json.lookup "type" members :=
        lookup_plainMembers (by decide) members
      rw [plainClause, checkTypes_withoutPaging]
      simp only [checkTypes, checkType, htype, checkClauseLists_plainMembers members]
  | null | bool | integer | float | string | array => rfl
  termination_by structural json

theorem checkAllTypes_plainClauses (items : List Json) :
    checkAllTypes (plainClauses items) = checkAllTypes items := by
  cases items with
  | nil => rfl
  | cons item rest =>
      simp only [plainClauses, checkAllTypes, checkTypes_plainClause item,
        checkAllTypes_plainClauses rest]
  termination_by structural items

theorem checkClauseLists_plainMembers (members : List (String × Json)) :
    checkClauseLists (plainMembers members) = checkClauseLists members := by
  cases members with
  | nil => rfl
  | cons member rest =>
      simp only [plainMembers, checkClauseLists, checkClauseList_plainMember member,
        checkClauseLists_plainMembers rest]
  termination_by structural members

theorem checkClauseList_plainMember (member : String × Json) :
    checkClauseList (plainMember member) = checkClauseList member := by
  obtain ⟨key, json⟩ := member
  cases json with
  | array items =>
      simp only [plainMember, isSome_lookup_clauseKeys_iff]
      split
      · simp only [checkClauseList, checkAllTypes_plainClauses items]
      · rfl
  | null | bool | integer | float | string | object => rfl
  termination_by structural member

end

theorem checkTypes_plainMembers (members : List (String × Json)) :
    checkTypes (.object (plainMembers members)) = checkTypes (.object members) := by
  rw [← checkTypes_withoutPaging]
  exact checkTypes_plainClause (.object members)

end DocIndex.Query

namespace DocIndex.Request

open Query

/-- A request is the same, or refused for the same reason, with or without paging in its clauses. -/
theorem ofJson_plainMembers (members : List (String × Json)) :
    ofJson (.object (plainMembers members)) = ofJson (.object members) := by
  have hlimit : Json.lookup "limit" (plainMembers members) = Json.lookup "limit" members :=
    lookup_plainMembers (by decide) members
  have hoffset : Json.lookup "offset" (plainMembers members) = Json.lookup "offset" members :=
    lookup_plainMembers (by decide) members
  have hquery : Query.ofJson (.object (withoutPaging (plainMembers members))) =
      Query.ofJson (.object (withoutPaging members)) := by
    rw [ofJson_withoutPaging, ofJson_withoutPaging, Query.ofJson_plainMembers]
  have hmembers : ofMembers (plainMembers members) = ofMembers members := by
    simp only [ofMembers, memberOf, hlimit, hoffset, filter_eq_withoutPaging, hquery]
  simp only [ofJson, checkTypes_plainMembers, hmembers]

end DocIndex.Request
