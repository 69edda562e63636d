import DocIndex.Proofs.InOrder
import DocIndex.Proofs.Json.Members
import DocIndex.Proofs.Json.Reading
import DocIndex.Proofs.Lookup
import DocIndex.Proofs.Query.ClausePaging
import Mathlib.Data.List.Forall2

/-!
The check of types against the decoding that follows it. The check wants every query written as an
object with the word for its type, and goes through the lists of clauses of every object. The
decoding also takes a list, or a number for a type, and looks at no clauses but those of `bool`
queries. So what decodes passes the check exactly when the queries that are read are spelled out,
and what stands in the lists that are not read would pass the check by itself.
-/

namespace DocIndex

def QueryDef.clausesIn (list : Query.ClauseList) : QueryDef → List QueryDef
  | .bool must should mustNot =>
      match list with
      | .must => must
      | .should => should
      | .mustNot => mustNot
  | _ => []

namespace Query

/-! What the check goes through -/

def itemsAt (key : String) (members : List (String × Json)) : List Json :=
  match Json.lookup key members with
  | some (.array items) => items
  | _ => []

/-- The items of the lists of clauses of an object, whatever its type. -/
def clauseItems (members : List (String × Json)) : List Json :=
  clauseKeys.flatMap fun entry => itemsAt entry.1 members

/-- An object with the word for a type, such as are all items of its lists of clauses. -/
inductive Typed : Json → Prop where
  | object {members : List (String × Json)} {word : String} {type : QueryType}
      (htype : Json.lookup "type" members = some (.string word))
      (hword : (word, type) ∈ queryTypeWords)
      (hitems : ∀ item ∈ clauseItems members, Typed item) : Typed (.object members)

/--
An object whose type is a word. The clauses of a `bool` query are spelled out as well; what other
queries have in lists of clauses is not read, but it is typed.
-/
inductive SpelledOut : Json → Prop where
  | bool {members : List (String × Json)}
      (htype : Json.lookup "type" members = some (.string "bool"))
      (hitems : ∀ item ∈ clauseItems members, SpelledOut item) : SpelledOut (.object members)
  | other {members : List (String × Json)} {word : String}
      (htype : Json.lookup "type" members = some (.string word)) (hword : word ≠ "bool")
      (hitems : ∀ item ∈ clauseItems members, Typed item) : SpelledOut (.object members)

/-- These are the items that the check goes on to. -/
theorem clauseItems_eq (members : List (String × Json)) :
    clauseItems members = checkedKeys.flatMap fun key => itemsAt key members := rfl

theorem itemsAt_cons (key other : String) (json : Json) (rest : List (String × Json)) :
    itemsAt key ((other, json) :: rest) =
      if other = key then itemsAt key [(other, json)] else itemsAt key rest := by
  by_cases hkey : other = key <;> simp [itemsAt, Json.lookup, hkey]

theorem mem_clauseItems {item : Json} {members : List (String × Json)} :
    item ∈ clauseItems members ↔ ∃ entry ∈ clauseKeys, item ∈ itemsAt entry.1 members :=
  List.mem_flatMap

theorem nesting_lt_of_mem_clauseItems {item : Json} {members : List (String × Json)}
    (hitem : item ∈ clauseItems members) : item.nesting < (Json.object members).nesting := by
  obtain ⟨entry, -, hitem⟩ := mem_clauseItems.mp hitem
  rw [itemsAt] at hitem
  split at hitem
  · rename_i items hlookup
    have hlist : item.nesting < (Json.array items).nesting := Json.nesting_lt_of_mem_items hitem
    have hobject : (Json.array items).nesting < (Json.object members).nesting :=
      Json.nesting_lt_of_mem_members (Json.mem_of_lookup hlookup)
    exact Nat.lt_trans hlist hobject
  · contradiction

/-- The check knows the words that are decoded. -/
theorem mem_checkedWords_iff {word : String} :
    word ∈ checkedWords ↔ ∃ type, (word, type) ∈ queryTypeWords := by
  have hwords : checkedWords = queryTypeWords.map (·.1) := rfl
  simp [hwords]

theorem checkType_eq_ok_iff {members : List (String × Json)} :
    checkType members = .ok () ↔
      ∃ word type, Json.lookup "type" members = some (.string word) ∧
        (word, type) ∈ queryTypeWords := by
  rw [checkType]
  split
  · rename_i hnone
    simp [hnone]
  · rename_i word hlookup
    simp [hlookup, mem_checkedWords_iff]
  · rename_i json hstring hlookup
    simp only [reduceCtorEq, false_iff]
    rintro ⟨word, type, hword, -⟩
    exact hstring word (Option.some.inj (hlookup.symm.trans hword))

theorem checkAllTypes_eq_forM (items : List Json) :
    checkAllTypes items = forM items checkTypes := by
  induction items with
  | nil => rfl
  | cons item rest ih =>
      rw [checkAllTypes, List.forM_cons, ← ih]
      cases checkTypes item <;> rfl

theorem firstError_eq_forM (results : List (String × Except QueryError Unit))
    (keys : List String) :
    firstError results keys = forM keys fun key => (results.lookup key).getD (.ok ()) := by
  induction keys with
  | nil => rfl
  | cons key rest ih =>
      rw [firstError, List.forM_cons, ← ih]
      cases results.lookup key with
      | none => rfl
      | some result => cases result <;> rfl

theorem getD_lookup_checkClauseLists {key : String} (hkey : key ∈ checkedKeys)
    (members : List (String × Json)) :
    ((checkClauseLists members).lookup key).getD (.ok ()) =
      forM (itemsAt key members) checkTypes := by
  rw [lookup_checkClauseLists, itemsAt]
  cases Json.lookup key members with
  | none => rfl
  | some json =>
      cases json with
      | array items =>
          rw [Option.map_some, Option.getD_some, checkClauseList, if_pos hkey]
          exact checkAllTypes_eq_forM items
      | null | bool | integer | float | string | object => rfl

/-- The check of an object is that of its type and of all items of its lists of clauses. -/
theorem checkTypes_object (members : List (String × Json)) :
    checkTypes (.object members) =
      (checkType members >>= fun _ => forM (clauseItems members) checkTypes) := by
  have hlists : firstError (checkClauseLists members) checkedKeys =
      forM (clauseItems members) checkTypes := by
    rw [firstError_eq_forM, clauseItems_eq, forM_flatMap]
    exact forM_congr fun key hkey => getD_lookup_checkClauseLists hkey members
  rw [checkTypes, hlists]
  cases checkType members <;> rfl

theorem checkTypes_object_eq_ok_iff {members : List (String × Json)} :
    checkTypes (.object members) = .ok () ↔
      checkType members = .ok () ∧ ∀ item ∈ clauseItems members, checkTypes item = .ok () := by
  rw [checkTypes_object, bind_eq_ok_iff, ← forM_eq_ok_iff]
  exact ⟨fun ⟨_, hboth⟩ => hboth, fun hboth => ⟨_, hboth⟩⟩

/-- What passes the check. -/
theorem checkTypes_eq_ok_iff (json : Json) : checkTypes json = .ok () ↔ Typed json := by
  constructor
  · intro hcheck
    cases json with
    | object members =>
        obtain ⟨htype, hitems⟩ := checkTypes_object_eq_ok_iff.mp hcheck
        obtain ⟨word, type, hlookup, hword⟩ := checkType_eq_ok_iff.mp htype
        refine .object hlookup hword fun item hitem => ?_
        -- Items nest less deep than the object that has them in its lists.
        have hdepth := nesting_lt_of_mem_clauseItems hitem
        exact (checkTypes_eq_ok_iff item).mp (hitems item hitem)
    | null | bool | integer | float | string | array => contradiction
  · intro htyped
    induction htyped with
    | object htype hword _ ih =>
        exact checkTypes_object_eq_ok_iff.mpr ⟨checkType_eq_ok_iff.mpr ⟨_, _, htype, hword⟩, ih⟩
  termination_by json.nesting

/-! What the decoding goes through -/

theorem typeOfMembers_some {before type : QueryType} {members : List (String × Json)}
    (hdecoded : typeOfMembers (some before) members = .ok type) : type = before := by
  induction members with
  | nil => exact (Except.ok.inj hdecoded).symm
  | cons member rest ih =>
      obtain ⟨key, json⟩ := member
      rw [typeOfMembers_cons] at hdecoded
      split at hdecoded
      · contradiction
      · exact ih hdecoded

/-- The type of an object is what is under the key for it. -/
theorem lookup_of_typeOfMembers {type : QueryType} {members : List (String × Json)}
    (hdecoded : typeOfMembers none members = .ok type) :
    ∃ json, Json.lookup "type" members = some json ∧ typeOfItem json = .ok type := by
  induction members with
  | nil => contradiction
  | cons member rest ih =>
      obtain ⟨key, json⟩ := member
      rw [typeOfMembers_cons] at hdecoded
      rw [Json.lookup]
      split at hdecoded
      · rename_i hkey
        rw [if_pos hkey]
        refine ⟨json, rfl, ?_⟩
        cases hitem : typeOfItem json with
        | error fault => simp [hitem] at hdecoded
        | ok given =>
            simp only [hitem] at hdecoded
            rw [typeOfMembers_some hdecoded]
      · rename_i hkey
        rw [if_neg hkey]
        exact ih hdecoded

theorem mem_of_typeOfItem {word : String} {type : QueryType}
    (htype : typeOfItem (.string word) = .ok type) : (word, type) ∈ queryTypeWords := by
  rw [typeOfItem, Json.Stream.variantOf] at htype
  split at htype
  · rename_i found given hfind
    obtain rfl : given = type := Except.ok.inj htype
    have hword : found = word := by simpa using List.find?_some hfind
    exact hword ▸ List.mem_of_find?_eq_some hfind
  · contradiction

def ClauseList.key : ClauseList → String
  | .must => "must"
  | .should => "should"
  | .mustNot => "must_not"

theorem ClauseList.lookup_key (list : ClauseList) : clauseKeys.lookup list.key = some list := by
  cases list <;> rfl

theorem lookup_clauseKeys {entry : String × ClauseList} (hentry : entry ∈ clauseKeys) :
    clauseKeys.lookup entry.1 = some entry.2 :=
  (lookup_eq_some_iff_mem (by decide)).mpr hentry

theorem ClauseList.key_of_lookup {key : String} {list : ClauseList}
    (hlookup : clauseKeys.lookup key = some list) : key = list.key := by
  have hmem := (lookup_eq_some_iff_mem (by decide)).mp hlookup
  simp only [clauseKeys, List.mem_cons, Prod.mk.injEq, List.not_mem_nil, or_false] at hmem
  rcases hmem with ⟨rfl, rfl⟩ | ⟨rfl, rfl⟩ | ⟨rfl, rfl⟩ <;> rfl

theorem ClauseList.key_injective {list other : ClauseList} (hkey : list.key = other.key) :
    list = other := by
  have hlookup := other.lookup_key
  rw [← hkey, list.lookup_key] at hlookup
  exact Option.some.inj hlookup

/-- Members with other keys are in no list. -/
theorem itemsAt_cons_of_other {key : String} (hother : clauseKeys.lookup key = none)
    (list : ClauseList) (json : Json) (rest : List (String × Json)) :
    itemsAt list.key ((key, json) :: rest) = itemsAt list.key rest := by
  have hne : key ≠ list.key := by
    rintro rfl
    rw [list.lookup_key] at hother
    contradiction
  rw [itemsAt_cons, if_neg hne]

theorem itemsAt_cons_key (list given : ClauseList) (json : Json) (rest : List (String × Json)) :
    itemsAt list.key ((given.key, json) :: rest) =
      if list = given then itemsAt given.key [(given.key, json)] else itemsAt list.key rest := by
  rw [itemsAt_cons]
  by_cases hlist : list = given
  · rw [hlist, if_pos rfl, if_pos rfl]
  · rw [if_neg hlist, if_neg fun hkey => hlist (ClauseList.key_injective hkey).symm]

theorem Clauses.get?_set (clauses : Clauses) (queries : List QueryDef) (list other : ClauseList) :
    (clauses.set queries list).get? other =
      if other = list then some queries else clauses.get? other := by
  cases list <;> cases other <;> rfl

theorem Clauses.clausesIn_finish (clauses : Clauses) (list : ClauseList) :
    clauses.finish.clausesIn list = (clauses.get? list).getD [] := by
  cases list <;> rfl

theorem forall₂_of_listOfJson {items : List Json} {queries : List QueryDef}
    (hdecoded : listOfJson items = .ok queries) :
    List.Forall₂ (fun item query => ofJson item = .ok query) items queries := by
  induction items generalizing queries with
  | nil =>
      obtain rfl := Except.ok.inj hdecoded
      exact .nil
  | cons item rest ih =>
      rw [listOfJson] at hdecoded
      split at hdecoded
      · contradiction
      · rename_i query hquery
        split at hdecoded
        · contradiction
        · rename_i queries hrest
          obtain rfl := Except.ok.inj hdecoded
          exact .cons hquery (ih hrest)

theorem forall₂_of_clausesOfJson {key : String} {json : Json} {queries : List QueryDef}
    (hdecoded : clausesOfJson json = .ok queries) :
    List.Forall₂ (fun item query => ofJson item = .ok query) (itemsAt key [(key, json)])
      queries := by
  cases json with
  | array items => simpa [itemsAt, Json.lookup] using forall₂_of_listOfJson hdecoded
  | null | bool | integer | float | string | object => contradiction

theorem exists_of_unlessGiven {α β γ : Type} {name : String} {before : Option α}
    {value : Except Json.Mismatch β} {f : β → γ} {result : γ}
    (hgiven : unlessGiven name before (value.map f) = .ok result) :
    before = none ∧ ∃ b, value = .ok b ∧ f b = result := by
  cases before with
  | some _ => contradiction
  | none => exact ⟨rfl, map_eq_ok_iff.mp hgiven⟩

/-- The items of a list are decoded to its clauses, unless the list was read before. -/
theorem clausesIn_of_boolOfMembers {clauses : Clauses} {members : List (String × Json)}
    {query : QueryDef} (hdecoded : boolOfMembers clauses members = .ok query) (list : ClauseList) :
    match clauses.get? list with
    | some queries => query.clausesIn list = queries
    | none => List.Forall₂ (fun item query => ofJson item = .ok query)
        (itemsAt list.key members) (query.clausesIn list) := by
  induction members generalizing clauses with
  | nil =>
      obtain rfl := Except.ok.inj hdecoded
      rw [Clauses.clausesIn_finish]
      cases clauses.get? list with
      | none => exact .nil
      | some queries => rfl
  | cons member rest ih =>
      obtain ⟨key, json⟩ := member
      rw [boolOfMembers] at hdecoded
      split at hdecoded
      · contradiction
      · rename_i after hmember
        have hrest := ih hdecoded
        rw [boolOfMember] at hmember
        split at hmember
        · rename_i hother
          obtain rfl := Except.ok.inj hmember
          rwa [itemsAt_cons_of_other hother]
        · rename_i given hgiven
          obtain rfl := ClauseList.key_of_lookup hgiven
          obtain ⟨hfresh, queries, hqueries, rfl⟩ := exists_of_unlessGiven hmember
          rw [Clauses.get?_set] at hrest
          rw [itemsAt_cons_key]
          by_cases hlist : list = given
          · subst hlist
            rw [if_pos rfl] at hrest
            rw [hfresh, if_pos rfl, hrest]
            exact forall₂_of_clausesOfJson hqueries
          · rw [if_neg hlist] at hrest
            rwa [if_neg hlist]

theorem forall₂_clausesIn {members : List (String × Json)} {query : QueryDef}
    (hdecoded : boolOfMembers {} members = .ok query) (list : ClauseList) :
    List.Forall₂ (fun item query => ofJson item = .ok query) (itemsAt list.key members)
      (query.clausesIn list) := by
  have hlist := clausesIn_of_boolOfMembers hdecoded list
  cases list <;> exact hlist

theorem exists_of_mem_boolOfMembers {members : List (String × Json)} {query : QueryDef}
    (hdecoded : boolOfMembers {} members = .ok query) :
    ∀ item ∈ clauseItems members, ∃ query, ofJson item = .ok query := by
  intro item hitem
  obtain ⟨entry, hentry, hitem⟩ := mem_clauseItems.mp hitem
  rw [ClauseList.key_of_lookup (lookup_clauseKeys hentry)] at hitem
  obtain ⟨position, hposition, rfl⟩ := List.mem_iff_getElem.mp hitem
  have hclauses := forall₂_clausesIn hdecoded entry.2
  exact ⟨_, hclauses.get hposition (hclauses.length_eq ▸ hposition)⟩

/-! The two against each other -/

section

variable {members : List (String × Json)} {query : QueryDef}
  (hdecoded : ofJson (.object members) = .ok query)
include hdecoded

/-- The word of an object that decodes is the word for the type that it is decoded to. -/
theorem exists_type_of_ofJson {word : String}
    (htype : Json.lookup "type" members = some (.string word)) :
    ∃ type, typeOfMembers none members = .ok type ∧ typeOfItem (.string word) = .ok type := by
  rw [ofJson] at hdecoded
  cases hmembers : typeOfMembers none members with
  | error fault => simp [hmembers] at hdecoded
  | ok type =>
      obtain ⟨json, hlookup, hitem⟩ := lookup_of_typeOfMembers hmembers
      obtain rfl : json = .string word := Option.some.inj (hlookup.symm.trans htype)
      exact ⟨type, rfl, hitem⟩

theorem boolOfMembers_of_ofJson (htype : Json.lookup "type" members = some (.string "bool")) :
    boolOfMembers {} members = .ok query := by
  obtain ⟨type, hmembers, hitem⟩ := exists_type_of_ofJson hdecoded htype
  obtain rfl : QueryType.bool = type := Except.ok.inj hitem
  simpa only [ofJson, hmembers] using hdecoded

/-- The clauses of a `bool` query that decodes decode. -/
theorem exists_of_mem_ofJson (htype : Json.lookup "type" members = some (.string "bool")) :
    ∀ item ∈ clauseItems members, ∃ query, ofJson item = .ok query :=
  exists_of_mem_boolOfMembers (boolOfMembers_of_ofJson hdecoded htype)

end

theorem spelledOut_of_typed {json : Json} (htyped : Typed json) {query : QueryDef}
    (hdecoded : ofJson json = .ok query) : SpelledOut json := by
  induction htyped generalizing query with
  | @object members word type htype hword hitems ih =>
      by_cases hbool : word = "bool"
      · subst hbool
        refine .bool htype fun item hitem => ?_
        obtain ⟨clause, hclause⟩ := exists_of_mem_ofJson hdecoded htype item hitem
        exact ih item hitem hclause
      · exact .other htype hbool hitems

theorem SpelledOut.typed {json : Json} (hspelled : SpelledOut json) {query : QueryDef}
    (hdecoded : ofJson json = .ok query) : Typed json := by
  induction hspelled generalizing query with
  | bool htype hitems ih =>
      have hword : ("bool", QueryType.bool) ∈ queryTypeWords := by decide
      refine .object htype hword fun item hitem => ?_
      obtain ⟨clause, hclause⟩ := exists_of_mem_ofJson hdecoded htype item hitem
      exact ih item hitem hclause
  | other htype _ hitems =>
      obtain ⟨type, -, hword⟩ := exists_type_of_ofJson hdecoded htype
      exact .object htype (mem_of_typeOfItem hword) hitems

/-- What decodes passes the check exactly if it is spelled out. -/
theorem checkTypes_iff_spelledOut {json : Json} {query : QueryDef}
    (hdecoded : ofJson json = .ok query) : checkTypes json = .ok () ↔ SpelledOut json := by
  rw [checkTypes_eq_ok_iff]
  exact ⟨fun htyped => spelledOut_of_typed htyped hdecoded,
    fun hspelled => hspelled.typed hdecoded⟩

end Query

end DocIndex

namespace DocIndex.Request

open Query

theorem ofJson_of_ofMembers {members : List (String × Json)} {request : Request}
    (hdecoded : ofMembers members = .ok request) :
    Query.ofJson (.object members) = .ok request.query := by
  simp only [ofMembers, filter_eq_withoutPaging, ofJson_withoutPaging] at hdecoded
  obtain ⟨limit, -, hdecoded⟩ := bind_eq_ok_iff.mp hdecoded
  obtain ⟨offset, -, hdecoded⟩ := bind_eq_ok_iff.mp hdecoded
  obtain ⟨query, hquery, hdecoded⟩ := bind_eq_ok_iff.mp hdecoded
  obtain rfl := Except.ok.inj hdecoded
  exact hquery

/--
An object that decodes to a request passes the check of types exactly if it is spelled out, and then
every text that is read as this object is read as the request; the text that the object is written
as is one, unless there are floats in it.
-/
theorem ofText_iff_spelledOut {members : List (String × Json)} {request : Request}
    (hdecoded : ofMembers members = .ok request) :
    (checkTypes (.object members) = .ok () ↔ SpelledOut (.object members)) ∧
    (∀ text, Json.parse text = .ok (.object members) →
      (ofText text = .ok request ↔ SpelledOut (.object members))) ∧
    ((Json.object members).Legible → (Json.object members).canonical = .object members →
      (Json.object members).nesting ≤ Json.maxDepth →
      (ofText (Json.object members).compact = .ok request ↔ SpelledOut (.object members))) := by
  have hcheck := checkTypes_iff_spelledOut (ofJson_of_ofMembers hdecoded)
  have htext : ∀ text, Json.parse text = .ok (.object members) →
      (ofText text = .ok request ↔ SpelledOut (.object members)) := by
    intro text hparse
    rw [← hcheck, ofText, hparse]
    simp only [ofJson, hdecoded]
    cases checkTypes (.object members) <;> simp
  refine ⟨hcheck, htext, ?_⟩
  intro hlegible hcanonical hnesting
  apply htext
  rw [Json.parse_compact hlegible hnesting, hcanonical]

/-- The members of a `bool` query with a clause that has a list of clauses, which is not read. -/
def nestedAll : List (String × Json) :=
  [("must", .array [.object [("must", .array [.object [("type", .string "all")]]),
      ("type", .string "all")]]),
    ("type", .string "bool")]

theorem nestedAll_spelledOut : SpelledOut (.object nestedAll) := by
  have hword : ("all", QueryType.all) ∈ queryTypeWords := by decide
  have hother : "all" ≠ "bool" := by decide
  have hinner : Typed (.object [("type", .string "all")]) :=
    .object rfl hword (by simp [clauseItems, clauseKeys, itemsAt, Json.lookup])
  have hclause : SpelledOut (.object [("must", .array [.object [("type", .string "all")]]),
      ("type", .string "all")]) :=
    .other rfl hother (by simpa [clauseItems, clauseKeys, itemsAt, Json.lookup] using hinner)
  apply SpelledOut.bool rfl
  simpa [nestedAll, clauseItems, clauseKeys, itemsAt, Json.lookup] using hclause

theorem nestedAll_read :
    ofMembers nestedAll = .ok ⟨.bool [.all] [] [], none, 0⟩ ∧
      checkTypes (.object nestedAll) = .ok () ∧
      ofText (Json.object nestedAll).compact = .ok ⟨.bool [.all] [] [], none, 0⟩ := by
  have hdecoded : ofMembers nestedAll = .ok ⟨.bool [.all] [] [], none, 0⟩ := rfl
  have hlegible : (Json.object nestedAll).Legible := by
    simp [Json.legible_iff, nestedAll, Json.parts, Json.partsOfMembers, Json.partsOfMember,
      Json.partsOfItems]
  have hcanonical : (Json.object nestedAll).canonical = .object nestedAll := by
    simp (disch := decide) only [nestedAll, Json.canonical, Json.canonicalMembers,
      Json.canonicalMember, Json.canonicalItems, Json.sortMembers, List.foldl,
      Json.insertMember_nil, Json.insertMember_of_gt]
  obtain ⟨hcheck, -, hread⟩ := ofText_iff_spelledOut hdecoded
  exact ⟨hdecoded, hcheck.mpr nestedAll_spelledOut,
    (hread hlegible hcanonical (by decide)).mpr nestedAll_spelledOut⟩

/--
A stray list of clauses, a clause given as a list, and a number for a type: all three decode, and
none passes the check.
-/
theorem decoded_but_refused :
    ((Json.object [("must", .array [.integer 7]), ("type", .string "all")]).nesting ≤
        Json.maxDepth ∧
      ofMembers [("must", .array [.integer 7]), ("type", .string "all")] = .ok ⟨.all, none, 0⟩ ∧
      checkTypes (.object [("must", .array [.integer 7]), ("type", .string "all")]) =
        .error (.malformed .notAnObject)) ∧
    ((Json.object [("must", .array [.array [.string "all"]]), ("type", .string "bool")]).nesting ≤
        Json.maxDepth ∧
      ofMembers [("must", .array [.array [.string "all"]]), ("type", .string "bool")] =
        .ok ⟨.bool [.all] [] [], none, 0⟩ ∧
      checkTypes (.object [("must", .array [.array [.string "all"]]), ("type", .string "bool")]) =
        .error (.malformed .notAnObject)) ∧
    ((Json.object [("type", .integer 8)]).nesting ≤ Json.maxDepth ∧
      ofMembers [("type", .integer 8)] = .ok ⟨.all, none, 0⟩ ∧
      checkTypes (.object [("type", .integer 8)]) = .error (.malformed .typeNotString)) :=
  ⟨⟨by decide, rfl, rfl⟩, ⟨by decide, rfl, rfl⟩, ⟨by decide, rfl, rfl⟩⟩

end DocIndex.Request
