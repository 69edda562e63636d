import DocIndex.Proofs.Json.Rereading
import DocIndex.Proofs.Query.Tags

/-!
What is said of a bad type. Once the check of types has passed, no query that the decoding comes to
is refused over its type; and the check reports the first bad type on a walk that takes each query
before the clauses in its lists.
-/

namespace DocIndex.Query

open Json (Mismatch)
open Json.Mismatch

/-! Faults of the decoding -/

/--
A query is refused over its type: there is none, it is given twice or it is not one of those known,
or what should be a query cannot have one.
-/
inductive IsTagFault : Mismatch → Prop where
  | missing : IsTagFault (missingField "type")
  | repeated : IsTagFault (duplicateField "type")
  | unknown {json : Json} {fault : Mismatch} (hfault : typeOfItem json = .error fault) :
      IsTagFault fault
  | unheld (json : Json) : IsTagFault (wrongType json queryName)

/-- Something else in a query or a request is missing, given twice or of the wrong shape. -/
inductive IsPartFault : Mismatch → Prop where
  | missing {name : String} (hname : name ≠ "type") : IsPartFault (missingField name)
  | repeated {name : String} (hname : name ≠ "type") : IsPartFault (duplicateField name)
  | wrongType (json : Json) {expected : String}
      (hexpected : expected ∉ ["variant identifier", queryName]) :
      IsPartFault (wrongType json expected)
  | wrongValue (json : Json) {expected : String}
      (hexpected : expected ≠ "variant index 0 <= i < 9") : IsPartFault (wrongValue json expected)

theorem IsPartFault.not_isTagFault {fault : Mismatch} (hpart : IsPartFault fault) :
    ¬ IsTagFault fault := by
  intro htag
  cases htag with
  | missing =>
      cases hpart with
      | missing hname => exact hname rfl
  | repeated =>
      cases hpart with
      | repeated hname => exact hname rfl
  | unheld json =>
      cases hpart with
      | wrongType _ hexpected => simp at hexpected
  | @unknown json _ hfault =>
      rw [typeOfItem.eq_def] at hfault
      split at hfault
      · rw [Json.Stream.variantOf] at hfault
        split at hfault
        · contradiction
        · obtain rfl := Except.error.inj hfault
          cases hpart
      · split at hfault
        · contradiction
        · obtain rfl := Except.error.inj hfault
          cases hpart with
          | wrongValue _ hexpected => exact hexpected rfl
      · obtain rfl := Except.error.inj hfault
        cases hpart with
        | wrongType _ hexpected => simp at hexpected

/-- The result is no fault over the type of a query. -/
def FailsInParts {α : Type} (result : Except Mismatch α) : Prop :=
  ∀ fault, result = .error fault → IsPartFault fault

namespace FailsInParts

variable {α β : Type} {result : Except Mismatch α}

theorem ok (a : α) : FailsInParts (.ok a : Except Mismatch α) := by
  intro fault hfault
  contradiction

theorem error {fault : Mismatch} (hpart : IsPartFault fault) :
    FailsInParts (.error fault : Except Mismatch α) := by
  intro other hother
  exact Except.error.inj hother ▸ hpart

theorem bind {next : α → Except Mismatch β} (hfirst : FailsInParts result)
    (hnext : ∀ a, FailsInParts (next a)) : FailsInParts (result >>= next) := by
  intro fault hfault
  rcases bind_eq_error_iff.mp hfault with hfault | ⟨a, -, hfault⟩
  · exact hfirst fault hfault
  · exact hnext a fault hfault

theorem map (hresult : FailsInParts result) (f : α → β) : FailsInParts (result.map f) := by
  cases result with
  | ok a => exact ok (f a)
  | error fault => exact error (hresult fault rfl)

theorem unlessGiven {name : String} (hname : name ≠ "type") (before : Option β)
    (hresult : FailsInParts result) : FailsInParts (unlessGiven name before result) := by
  cases before with
  | none => exact hresult
  | some _ => exact error (.repeated hname)

theorem required {name : String} (hname : name ≠ "type") (found : Option α) :
    FailsInParts (required name found) := by
  cases found with
  | none => exact error (.missing hname)
  | some a => exact ok a

theorem optionalOf {decode : Json → Except Mismatch α}
    (hdecode : ∀ json, FailsInParts (decode json)) (json : Json) :
    FailsInParts (optionalOf decode json) := by
  cases json with
  | null => exact ok none
  | bool | integer | float | string | array | object => exact (hdecode _).map some

theorem allOf {decode : Json → Except Mismatch α} {items : List Json}
    (hitems : ∀ item ∈ items, FailsInParts (decode item)) : FailsInParts (allOf decode items) := by
  induction items with
  | nil => exact ok []
  | cons item rest ih =>
      obtain ⟨hfirst, hrest⟩ := List.forall_mem_cons.mp hitems
      rw [Query.allOf]
      split
      · rename_i fault hfault
        exact error (hfirst fault hfault)
      · split
        · rename_i fault hfault
          exact error (ih hrest fault hfault)
        · exact ok _

end FailsInParts

/-! The parts of a query -/

theorem failsInParts_stringOf (json : Json) : FailsInParts (stringOf json) := by
  cases json with
  | string s => exact .ok s
  | null | bool | integer | float | array | object => exact .error (.wrongType _ (by decide))

theorem failsInParts_stringsOf (json : Json) : FailsInParts (stringsOf json) := by
  cases json with
  | array items => exact .allOf fun item _ => failsInParts_stringOf item
  | null | bool | integer | float | string | object => exact .error (.wrongType _ (by decide))

theorem failsInParts_integerOf {target : String}
    (hname : target ∉ ["variant identifier", queryName, "variant index 0 <= i < 9"])
    (least bound : Int) (json : Json) : FailsInParts (integerOf target least bound json) := by
  have htype : target ∉ ["variant identifier", queryName] := by
    simp only [List.mem_cons, not_or] at hname ⊢
    exact ⟨hname.1, hname.2.1, List.not_mem_nil⟩
  cases json with
  | integer n =>
      rw [integerOf]
      split
      · exact .ok n
      · refine .error (.wrongValue _ ?_)
        rintro rfl
        simp at hname
  | null | bool | float | string | array | object => exact .error (.wrongType _ htype)

theorem failsInParts_countOf (json : Json) : FailsInParts (countOf json) :=
  (failsInParts_integerOf (by decide) _ _ json).map _

theorem failsInParts_int64Of (json : Json) : FailsInParts (int64Of json) :=
  (failsInParts_integerOf (by decide) _ _ json).map _

theorem failsInParts_floatOf (json : Json) : FailsInParts (floatOf json) := by
  rw [floatOf]
  split
  · exact .ok _
  · exact .error (.wrongType _ (by decide))

theorem mainName_ne_type (type : QueryType) : mainName type ≠ "type" := by
  cases type <;> decide

/-- A part of a query is refused over itself. -/
theorem failsInParts_add {type : QueryType} {part : Part} (hpart : part ∈ partsOf type)
    (parts : Parts) (json : Json) : FailsInParts (part.2 parts json) := by
  have hmain : FailsInParts (parts.addMain (mainName type) json) :=
    .unlessGiven (mainName_ne_type type) _ ((failsInParts_stringOf json).map _)
  have hfields : FailsInParts (parts.addFields json) :=
    .unlessGiven (by decide) _ ((failsInParts_stringsOf json).map _)
  have hdistance : FailsInParts (parts.addDistance json) :=
    .unlessGiven (by decide) _ (((failsInParts_integerOf (by decide) _ _ json).map _).map _)
  have hvalue : FailsInParts (parts.addValue json) := .unlessGiven (by decide) _ (.ok _)
  have hminI64 : FailsInParts (parts.addMinI64 json) :=
    .unlessGiven (by decide) _ ((FailsInParts.optionalOf failsInParts_int64Of json).map _)
  have hmaxI64 : FailsInParts (parts.addMaxI64 json) :=
    .unlessGiven (by decide) _ ((FailsInParts.optionalOf failsInParts_int64Of json).map _)
  have hminF64 : FailsInParts (parts.addMinF64 json) :=
    .unlessGiven (by decide) _ ((FailsInParts.optionalOf failsInParts_floatOf json).map _)
  have hmaxF64 : FailsInParts (parts.addMaxF64 json) :=
    .unlessGiven (by decide) _ ((FailsInParts.optionalOf failsInParts_floatOf json).map _)
  cases type <;> simp only [partsOf, List.mem_cons, List.not_mem_nil, or_false] at hpart
  case text | phrase | startsWith =>
    rcases hpart with rfl | rfl
    · exact hmain
    · exact hfields
  case fuzzy =>
    rcases hpart with rfl | rfl | rfl
    · exact hmain
    · exact hdistance
    · exact hfields
  case term =>
    rcases hpart with rfl | rfl
    · exact hmain
    · exact hvalue
  case rangeI64 =>
    rcases hpart with rfl | rfl | rfl
    · exact hmain
    · exact hminI64
    · exact hmaxI64
  case rangeF64 =>
    rcases hpart with rfl | rfl | rfl
    · exact hmain
    · exact hminF64
    · exact hmaxF64

theorem failsInParts_addMembers (type : QueryType) (parts : Parts)
    (members : List (String × Json)) :
    FailsInParts (parts.addMembers (partsOf type) members) := by
  induction members generalizing parts with
  | nil => exact .ok parts
  | cons member rest ih =>
      rw [Parts.addMembers]
      split
      · exact ih parts
      · rename_i key add hfind
        split
        · rename_i fault hfault
          exact .error (failsInParts_add (List.mem_of_find?_eq_some hfind) parts _ fault hfault)
        · exact ih _

theorem failsInParts_finish (type : QueryType) (parts : Parts) :
    FailsInParts (parts.finish type) := by
  have hmain := FailsInParts.required (mainName_ne_type type) parts.main
  have hvalue : FailsInParts (required "value" parts.value) := .required (by decide) _
  cases type with
  | bool | all => exact .ok _
  | text | fuzzy | phrase | startsWith | rangeI64 | rangeF64 => exact hmain.bind fun _ => .ok _
  | term => exact hmain.bind fun _ => hvalue.bind fun _ => .ok _

theorem failsInParts_ofMembers (type : QueryType) (members : List (String × Json)) :
    FailsInParts (ofMembers type members) :=
  (failsInParts_addMembers type {} members).bind fun parts => failsInParts_finish type parts

/-! Queries -/

theorem listOfJson_eq_allOf (items : List Json) : listOfJson items = allOf ofJson items := by
  induction items with
  | nil => rfl
  | cons item rest ih =>
      rw [listOfJson, allOf, ih]
      cases ofJson item with
      | error fault => rfl
      | ok query => cases allOf ofJson rest <;> rfl

theorem failsInParts_clausesOfJson {key : String} {json : Json}
    (hitems : ∀ item ∈ itemsAt key [(key, json)], FailsInParts (ofJson item)) :
    FailsInParts (clausesOfJson json) := by
  cases json with
  | array items =>
      have hall : ∀ item ∈ items, FailsInParts (ofJson item) := by
        simpa [itemsAt, Json.lookup] using hitems
      rw [clausesOfJson, listOfJson_eq_allOf]
      exact .allOf hall
  | null | bool | integer | float | string | object => exact .error (.wrongType _ (by decide))

/-- What is decoded as a clause stands in a list that was not read before. -/
theorem failsInParts_boolOfMembers {clauses : Clauses} {members : List (String × Json)}
    (hitems : ∀ list, clauses.get? list = none →
      ∀ item ∈ itemsAt list.key members, FailsInParts (ofJson item)) :
    FailsInParts (boolOfMembers clauses members) := by
  induction members generalizing clauses with
  | nil => exact .ok _
  | cons member rest ih =>
      obtain ⟨key, json⟩ := member
      rw [boolOfMembers, boolOfMember]
      cases hlookup : clauseKeys.lookup key with
      | none =>
          refine ih fun list hnone item hitem => hitems list hnone item ?_
          rwa [itemsAt_cons_of_other hlookup]
      | some given =>
          obtain rfl := ClauseList.key_of_lookup hlookup
          cases hbefore : clauses.get? given with
          | some _ =>
              -- A list that is given again is refused before its items are decoded.
              have hkey : given.key ≠ "type" := by cases given <;> decide
              simpa only [hbefore, unlessGiven] using FailsInParts.error (.repeated hkey)
          | none =>
              have hgiven : ∀ item ∈ itemsAt given.key [(given.key, json)],
                  FailsInParts (ofJson item) := by
                intro item hitem
                refine hitems given hbefore item ?_
                rwa [itemsAt_cons_key, if_pos rfl]
              simp only [hbefore, unlessGiven]
              cases hclauses : clausesOfJson json with
              | error fault =>
                  exact .error (failsInParts_clausesOfJson hgiven fault hclauses)
              | ok queries =>
                  refine ih fun list hnone item hitem => ?_
                  rw [Clauses.get?_set] at hnone
                  split at hnone
                  · contradiction
                  · rename_i hlist
                    refine hitems list hnone item ?_
                    rwa [itemsAt_cons_key, if_neg hlist]

theorem canonical_of_mem_clauseItems {members : List (String × Json)}
    (hcanonical : (Json.object members).canonical = .object members) :
    ∀ item ∈ clauseItems members, item.canonical = item := by
  intro item hitem
  obtain ⟨entry, -, hitem⟩ := mem_clauseItems.mp hitem
  rw [itemsAt] at hitem
  split at hitem
  · rename_i items hlookup
    have hlist := Json.canonical_of_mem_members hcanonical (Json.mem_of_lookup hlookup)
    exact Json.canonical_of_mem_items hlist item hitem
  · contradiction

theorem typeOfItem_of_mem {word : String} {type : QueryType}
    (hword : (word, type) ∈ queryTypeWords) : typeOfItem (.string word) = .ok type := by
  simp only [queryTypeWords, List.mem_cons, Prod.mk.injEq, List.not_mem_nil, or_false] at hword
  rcases hword with ⟨rfl, rfl⟩ | ⟨rfl, rfl⟩ | ⟨rfl, rfl⟩ | ⟨rfl, rfl⟩ | ⟨rfl, rfl⟩ | ⟨rfl, rfl⟩ |
    ⟨rfl, rfl⟩ | ⟨rfl, rfl⟩ | ⟨rfl, rfl⟩ <;> rfl

theorem typeOfMembers_of_ne {members : List (String × Json)}
    (hkeys : ∀ member ∈ members, member.1 ≠ "type") (type : QueryType) :
    typeOfMembers (some type) members = .ok type := by
  induction members with
  | nil => rfl
  | cons member rest ih =>
      obtain ⟨hfirst, hrest⟩ := List.forall_mem_cons.mp hkeys
      rw [typeOfMembers_cons, if_neg hfirst]
      exact ih hrest

/-- The type that is looked up is the one that is decoded, as no other is given. -/
theorem typeOfMembers_of_lookup {members : List (String × Json)} {word : String}
    {type : QueryType} (hmembers : Json.Ascending members)
    (htype : Json.lookup "type" members = some (.string word))
    (hword : (word, type) ∈ queryTypeWords) : typeOfMembers none members = .ok type := by
  induction members with
  | nil => contradiction
  | cons member rest ih =>
      obtain ⟨key, json⟩ := member
      obtain ⟨hfirst, hrest⟩ := List.pairwise_cons.mp hmembers
      rw [Json.lookup] at htype
      rw [typeOfMembers_cons]
      by_cases hkey : key = "type"
      · subst hkey
        obtain rfl : json = .string word := by simpa using htype
        have hothers : ∀ member ∈ rest, member.1 ≠ "type" := by
          intro member hmember heq
          exact String.lt_irrefl _ (heq ▸ hfirst member hmember)
        simp only [if_true, typeOfItem_of_mem hword, typeOfMembers_of_ne hothers]
      · rw [if_neg hkey] at htype ⊢
        exact ih hrest htype

/-- After the check neither a query nor what is decoded within it is refused over its type. -/
theorem failsInParts_ofJson {json : Json} (htyped : Typed json)
    (hcanonical : json.canonical = json) : FailsInParts (ofJson json) := by
  induction htyped with
  | @object members word type htype hword _ ih =>
      have hitems : ∀ item ∈ clauseItems members, FailsInParts (ofJson item) :=
        fun item hitem => ih item hitem (canonical_of_mem_clauseItems hcanonical item hitem)
      have hmembers := Json.ascending_of_canonical hcanonical
      rw [ofJson, typeOfMembers_of_lookup hmembers htype hword]
      cases type with
      | bool =>
          refine failsInParts_boolOfMembers fun list _ item hitem => hitems item ?_
          exact mem_clauseItems.mpr ⟨(list.key, list), by cases list <;> decide, hitem⟩
      | text | fuzzy | phrase | startsWith | term | rangeI64 | rangeF64 | all =>
          exact failsInParts_ofMembers _ members

theorem failsInParts_memberOf {α : Type} (key : String) {decode : Json → Except Mismatch α}
    (hdecode : ∀ json, FailsInParts (decode json)) (members : List (String × Json)) :
    FailsInParts (memberOf key decode members) := by
  rw [memberOf]
  split
  · exact .ok none
  · exact (hdecode _).map some

/-! Faults of the check -/

/--
The value, and within an object the items of its lists `must`, `should` and `must_not`: each before
those within it.
-/
def walk : Json → List Json
  | .object members =>
      .object members :: (clauseItems members).attach.flatMap fun item => walk item.1
  | json => [json]
  termination_by json => json.nesting
  decreasing_by exact nesting_lt_of_mem_clauseItems item.2

theorem walk_object (members : List (String × Json)) :
    walk (.object members) = .object members :: (clauseItems members).flatMap walk := by
  rw [walk, List.flatMap_subtype fun _ _ => rfl, List.unattach_attach]

/-- Tells whether the value is an object whose type is one of the words that are known. -/
def isTagged : Json → Bool
  | .object members =>
      match Json.lookup "type" members with
      | some (.string word) => queryTypeWords.any (·.1 = word)
      | _ => false
  | _ => false

/-- Checks the type of a value. -/
def checkTag : Json → Except QueryError Unit
  | .object members => checkType members
  | _ => .error (.malformed .notAnObject)

theorem isTagged_iff (json : Json) : isTagged json ↔ checkTag json = .ok () := by
  cases json with
  | object members =>
      rw [checkTag, checkType_eq_ok_iff, isTagged]
      split
      · rename_i word hlookup
        simp [hlookup]
      · rename_i hother
        simp only [Bool.false_eq_true, false_iff]
        rintro ⟨word, type, hlookup, -⟩
        exact hother word hlookup
  | null | bool | integer | float | string | array => simp [isTagged, checkTag]

/-- The check of types checks one value after another, as a walk comes to them. -/
theorem checkTypes_eq_forM (json : Json) : checkTypes json = forM (walk json) checkTag := by
  cases json with
  | object members =>
      have hitems : ∀ item ∈ clauseItems members, checkTypes item = forM (walk item) checkTag := by
        intro item hitem
        have hdepth := nesting_lt_of_mem_clauseItems hitem
        exact checkTypes_eq_forM item
      rw [checkTypes_object, walk_object, List.forM_cons, forM_flatMap, forM_congr hitems]
      rfl
  | null | bool | integer | float | string | array =>
      simp [checkTypes, walk, checkTag, bind, Except.bind]
  termination_by json.nesting

theorem checkType_eq_unknownType_iff {members : List (String × Json)} {word : String} :
    checkType members = .error (.unknownType word) ↔
      Json.lookup "type" members = some (.string word) ∧ word ∉ checkedWords := by
  rw [checkType]
  split
  · rename_i hnone
    simp [hnone]
  · rename_i found hlookup
    by_cases hfound : found ∈ checkedWords
    · simp only [hlookup, if_pos hfound, reduceCtorEq, false_iff, Option.some.injEq,
        Json.string.injEq, not_and, not_not]
      exact fun heq => heq ▸ hfound
    · simp only [hlookup, if_neg hfound, Except.error.injEq, QueryError.unknownType.injEq,
        Option.some.injEq, Json.string.injEq]
      exact ⟨fun heq => ⟨heq, heq ▸ hfound⟩, And.left⟩
  · rename_i json hstring hlookup
    simp only [Except.error.injEq, reduceCtorEq, false_iff]
    exact fun hword => hstring word (Option.some.inj (hlookup.symm.trans hword.1))

theorem checkTag_eq_unknownType_iff {json : Json} {word : String} (hjson : isTagged json = false) :
    checkTag json = .error (.unknownType word) ↔
      ∃ members, json = .object members ∧
        Json.lookup "type" members = some (.string word) := by
  cases json with
  | object members =>
      have hword : Json.lookup "type" members = some (.string word) → word ∉ checkedWords := by
        intro hlookup hword
        have hpasses : checkTag (.object members) = .ok () := by
          simp only [checkTag, checkType, hlookup, if_pos hword]
        exact Bool.false_ne_true (hjson.symm.trans ((isTagged_iff _).mpr hpasses))
      rw [checkTag, checkType_eq_unknownType_iff, and_iff_left_of_imp hword]
      simp
  | null | bool | integer | float | string | array => simp [checkTag]

/-- A word for a type is reported if it stands in the first value that has no known type. -/
theorem checkTypes_eq_unknownType_iff {json : Json} {word : String} :
    checkTypes json = .error (.unknownType word) ↔
      ∃ members, (walk json).find? (fun query => !isTagged query) = some (.object members) ∧
        Json.lookup "type" members = some (.string word) := by
  rw [checkTypes_eq_forM, forM_eq_find? isTagged_iff]
  cases hfind : (walk json).find? fun query => !isTagged query with
  | none => simp
  | some query =>
      have hquery : isTagged query = false := by simpa using List.find?_some hfind
      simp [checkTag_eq_unknownType_iff hquery]

/-! The floats in a value play no part in the check -/

theorem checkType_mapFloats (f : Float → Float) (members : List (String × Json)) :
    checkType (Json.mapFloatsOfMembers f members) = checkType members := by
  rw [checkType, checkType, Json.lookup_mapFloatsOfMembers]
  cases Json.lookup "type" members with
  | none => rfl
  | some json => cases json <;> rfl

mutual

theorem checkTypes_mapFloats (f : Float → Float) (json : Json) :
    checkTypes (json.mapFloats f) = checkTypes json := by
  cases json with
  | object members =>
      rw [Json.mapFloats, checkTypes, checkTypes, checkType_mapFloats,
        checkClauseLists_mapFloats f members]
  | null | bool | integer | float | string | array => rfl
  termination_by structural json

theorem checkAllTypes_mapFloats (f : Float → Float) (items : List Json) :
    checkAllTypes (Json.mapFloatsOfItems f items) = checkAllTypes items := by
  cases items with
  | nil => rfl
  | cons item rest =>
      rw [Json.mapFloatsOfItems, checkAllTypes, checkAllTypes, checkTypes_mapFloats f item,
        checkAllTypes_mapFloats f rest]
  termination_by structural items

theorem checkClauseLists_mapFloats (f : Float → Float) (members : List (String × Json)) :
    checkClauseLists (Json.mapFloatsOfMembers f members) = checkClauseLists members := by
  cases members with
  | nil => rfl
  | cons member rest =>
      rw [Json.mapFloatsOfMembers, checkClauseLists, checkClauseLists,
        checkClauseList_mapFloats f member, checkClauseLists_mapFloats f rest]
  termination_by structural members

theorem checkClauseList_mapFloats (f : Float → Float) (member : String × Json) :
    checkClauseList (Json.mapFloatsOfMember f member) = checkClauseList member := by
  obtain ⟨key, json⟩ := member
  rw [Json.mapFloatsOfMember]
  cases json with
  | array items =>
      rw [Json.mapFloats, checkClauseList, checkClauseList, checkAllTypes_mapFloats f items]
  | null | bool | integer | float | string | object => rfl
  termination_by structural member

end

end DocIndex.Query

namespace DocIndex.Request

open Query

/-- A request decodes its paging first, and then its query. -/
theorem failsInParts_ofMembers {members : List (String × Json)}
    (htyped : Typed (.object members))
    (hcanonical : (Json.object members).canonical = .object members) :
    FailsInParts (ofMembers members) := by
  have hlimit : FailsInParts (memberOf "limit" (optionalOf countOf) members) :=
    failsInParts_memberOf _ (FailsInParts.optionalOf failsInParts_countOf) members
  have hoffset : FailsInParts (memberOf "offset" countOf members) :=
    failsInParts_memberOf _ failsInParts_countOf members
  have hquery := failsInParts_ofJson htyped hcanonical
  rw [ofMembers, filter_eq_withoutPaging, ofJson_withoutPaging]
  exact hlimit.bind fun _ => hoffset.bind fun _ => hquery.bind fun _ => .ok _

theorem ofJson_eq_unknownType_iff {json : Json} {word : String} :
    ofJson json = .error (.unknownType word) ↔ checkTypes json = .error (.unknownType word) := by
  cases json with
  | object members =>
      rw [ofJson]
      cases checkTypes (.object members) with
      | error fault => simp
      | ok _ =>
          dsimp only
          split <;> simp
  | null | bool | integer | float | string | array => simp [ofJson, checkTypes]

/-- From the text of a value the same word is reported as from the value. -/
theorem ofText_compact_eq_unknownType_iff {json : Json} (hproper : json.Proper)
    (hcanonical : json.canonical = json) (hnesting : json.nesting ≤ Json.maxDepth)
    {word : String} :
    ofText json.compact = .error (.unknownType word) ↔
      checkTypes json = .error (.unknownType word) := by
  have hparse := Json.parse_compact_of_proper hproper hnesting
  rw [hcanonical] at hparse
  rw [ofText, hparse, ← checkTypes_mapFloats Json.reread json]
  exact ofJson_eq_unknownType_iff

/--
A bad type is reported as what it is. Let the members of a value stand in order and none of them
twice, as in all that is read. If it passes the check of types, neither its decoding to a query nor
that to a request fails over a type, however deep the query that is decoded; and from the text of
the value an unknown type is reported exactly if the first value on the walk that is not an object
with a known type is an object with this word for a type.
-/
theorem bad_type_is_reported {json : Json} (hcanonical : json.canonical = json) :
    (checkTypes json = .ok () →
      (∀ fault, Query.ofJson json = .error fault → ¬ IsTagFault fault) ∧
      ∀ members, json = .object members → ∀ fault, ofMembers members = .error fault →
        ¬ IsTagFault fault) ∧
    (json.Proper → json.nesting ≤ Json.maxDepth → ∀ word,
      ofText json.compact = .error (.unknownType word) ↔
        ∃ members, (walk json).find? (fun query => !isTagged query) = some (.object members) ∧
          Json.lookup "type" members = some (.string word)) := by
  constructor
  · intro hcheck
    have htyped := (checkTypes_eq_ok_iff json).mp hcheck
    constructor
    · intro fault hfault
      exact (failsInParts_ofJson htyped hcanonical fault hfault).not_isTagFault
    · rintro members rfl fault hfault
      exact (failsInParts_ofMembers htyped hcanonical fault hfault).not_isTagFault
  · intro hproper hnesting word
    rw [ofText_compact_eq_unknownType_iff hproper hcanonical hnesting]
    exact checkTypes_eq_unknownType_iff

/-- A term query that names no field, and a `bool` query whose second clause has an unknown type. -/
theorem regex_is_reported :
    ((Json.object [("type", .string "term_match")]).canonical =
        .object [("type", .string "term_match")] ∧
      Query.ofJson (.object [("type", .string "term_match")]) =
        .error (.missingField "field") ∧
      ¬ IsTagFault (.missingField "field")) ∧
    ofText (Json.object [("must", .array [.object [("type", .string "all")],
        .object [("type", .string "regex")]]), ("type", .string "bool")]).compact =
      .error (.unknownType "regex") := by
  constructor
  · have hcanonical : (Json.object [("type", .string "term_match")]).canonical =
        .object [("type", .string "term_match")] := rfl
    have hdecoded : Query.ofJson (.object [("type", .string "term_match")]) =
        .error (.missingField "field") := rfl
    exact ⟨hcanonical, hdecoded, ((bad_type_is_reported hcanonical).1 rfl).1 _ hdecoded⟩
  · have hcanonical : (Json.object [("must", .array [.object [("type", .string "all")],
        .object [("type", .string "regex")]]), ("type", .string "bool")]).canonical =
        .object [("must", .array [.object [("type", .string "all")],
          .object [("type", .string "regex")]]), ("type", .string "bool")] := by
      simp (disch := decide) only [Json.canonical, Json.canonicalMembers, Json.canonicalMember,
        Json.canonicalItems, Json.sortMembers, List.foldl, Json.insertMember_nil,
        Json.insertMember_of_gt]
    have hproper : (Json.object [("must", .array [.object [("type", .string "all")],
        .object [("type", .string "regex")]]), ("type", .string "bool")]).Proper := by
      simp [Json.Proper, Json.parts, Json.partsOfMembers, Json.partsOfMember, Json.partsOfItems,
        Json.IsReadable]
    refine ((bad_type_is_reported hcanonical).2 hproper (by decide) "regex").mpr
      ⟨[("type", .string "regex")], ?_, rfl⟩
    simp [walk_object, clauseItems, clauseKeys, itemsAt, Json.lookup, isTagged, queryTypeWords]

end DocIndex.Request
