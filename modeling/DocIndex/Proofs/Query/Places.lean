import DocIndex.Proofs.Query.Tags

/-!
Clauses at their places. An object means the same query as a clause, at any place of any request, as
it does on its own; and what it says about paging there is not read, so that it can be put in, taken
out or exchanged for anything else.
-/

namespace DocIndex

open Query

/-- A place within a query: at each level a list of clauses and a position in it. -/
abbrev Place := List (ClauseList × Nat)

namespace QueryDef

def clauseAt? : Place → QueryDef → Option QueryDef
  | [], query => some query
  | (list, position) :: place, query => (query.clausesIn list)[position]?.bind (clauseAt? place)

end QueryDef

namespace Json

/-- A value stands at a place, all levels of which are `bool` queries. -/
inductive StandsAt (inner : Json) : Place → Json → Prop where
  | here : StandsAt inner [] inner
  | within {list : ClauseList} {position : Nat} {place : Place} {members : List (String × Json)}
      {item : Json} (htype : lookup "type" members = some (.string "bool"))
      (hitem : (itemsAt list.key members)[position]? = some item)
      (hinner : StandsAt inner place item) :
      StandsAt inner ((list, position) :: place) (.object members)

/-- Changes the item at a position of a member that is the array of a list of clauses. -/
def editItem (list : ClauseList) (position : Nat) (change : Json → Json) :
    String × Json → String × Json
  | (key, .array items) =>
      (key, .array (if key = list.key then items.modify position change else items))
  | member => member

/-- Edits the members of the clause at a place, whatever the types of the queries around it. -/
def editAt (edit : List (String × Json) → List (String × Json)) : Place → Json → Json
  | [], .object members => .object (edit members)
  | (list, position) :: place, .object members =>
      .object (members.map (editItem list position (editAt edit place)))
  | _, json => json

theorem editItem_fst (list : ClauseList) (position : Nat) (change : Json → Json)
    (member : String × Json) : (editItem list position change member).1 = member.1 := by
  obtain ⟨key, json⟩ := member
  cases json <;> rfl

theorem lookup_map_editItem (list : ClauseList) (position : Nat) (change : Json → Json)
    (key : String) (members : List (String × Json)) :
    lookup key (members.map (editItem list position change)) =
      (lookup key members).map fun json => (editItem list position change (key, json)).2 := by
  induction members with
  | nil => rfl
  | cons member rest ih =>
      obtain ⟨other, json⟩ := member
      have hmember : editItem list position change (other, json) =
          (other, (editItem list position change (other, json)).2) :=
        Prod.ext (editItem_fst ..) rfl
      rw [List.map_cons, hmember, lookup, lookup, ih]
      split
      · rename_i hkey
        rw [hkey, Option.map_some]
      · rfl

theorem itemsAt_map_editItem (list : ClauseList) (position : Nat) (change : Json → Json)
    (members : List (String × Json)) :
    itemsAt list.key (members.map (editItem list position change)) =
      (itemsAt list.key members).modify position change := by
  rw [itemsAt, itemsAt, lookup_map_editItem]
  cases lookup list.key members with
  | none => simp
  | some json =>
      cases json with
      | array items => simp [editItem]
      | null | bool | integer | float | string | object => simp [editItem]

/-- What stands at a place after an edit is the clause that stood there, edited. -/
theorem StandsAt.editAt {edit : List (String × Json) → List (String × Json)} {place : Place}
    {members : List (String × Json)} {json : Json}
    (hstands : (Json.object members).StandsAt place json) :
    (Json.object (edit members)).StandsAt place (json.editAt edit place) := by
  induction hstands with
  | here => exact .here
  | @within list position place around item htype hitem _ ih =>
      rw [Json.editAt]
      refine .within ?_ ?_ ih
      · rw [lookup_map_editItem, htype]
        rfl
      · rw [itemsAt_map_editItem, List.getElem?_modify_eq, hitem]
        rfl

end Json

namespace Query

/-- A change of an object that leaves all its members as they are but those about paging. -/
structure PagingEdit where
  apply : List (String × Json) → List (String × Json)
  withoutPaging_apply : ∀ members, withoutPaging (apply members) = withoutPaging members

namespace PagingEdit

/-- Puts in a member about paging after some of the others. -/
def insert (key : String) (hkey : isPagingKey key = true) (json : Json) (position : Nat) :
    PagingEdit where
  apply members := members.take position ++ (key, json) :: members.drop position
  withoutPaging_apply members := by
    rw [withoutPaging, List.filter_append, List.filter_cons_of_neg (by simp [hkey]),
      ← List.filter_append, List.take_append_drop]
    rfl

/-- Takes out the members about paging under a key. -/
def delete (key : String) (hkey : isPagingKey key = true) : PagingEdit where
  apply members := members.filter fun member => member.1 ≠ key
  withoutPaging_apply members := by
    rw [withoutPaging, withoutPaging, List.filter_filter]
    refine List.filter_congr fun member _ => ?_
    by_cases hmember : member.1 = key
    · simp [hmember, hkey]
    · simp [hmember]

/-- Exchanges the value of a member about paging for any other. -/
def replace (key : String) (hkey : isPagingKey key = true) (json : Json) : PagingEdit where
  apply members := members.map fun member => if member.1 = key then (key, json) else member
  withoutPaging_apply members := by
    induction members with
    | nil => rfl
    | cons member rest ih =>
        rw [List.map_cons, withoutPaging_cons, withoutPaging_cons, ih]
        by_cases hmember : member.1 = key
        · simp [hmember, hkey]
        · simp [hmember]

end PagingEdit

/-- What stands at a place is decoded to the clause at this place. -/
theorem clauseAt?_of_standsAt {clause json : Json} {place : Place} {query : QueryDef}
    (hstands : clause.StandsAt place json) (hdecoded : ofJson json = .ok query) :
    ∃ inner, ofJson clause = .ok inner ∧ query.clauseAt? place = some inner := by
  induction hstands generalizing query with
  | here => exact ⟨query, hdecoded, rfl⟩
  | @within list position place members item htype hitem _ ih =>
      have hclauses := forall₂_clausesIn (boolOfMembers_of_ofJson hdecoded htype) list
      obtain ⟨hposition, rfl⟩ := List.getElem?_eq_some_iff.mp hitem
      have hlength := hclauses.length_eq
      have hclause := hclauses.get hposition (hlength ▸ hposition)
      obtain ⟨inner, hinner, hat⟩ := ih hclause
      refine ⟨inner, hinner, ?_⟩
      rw [QueryDef.clauseAt?, List.getElem?_eq_getElem (hlength ▸ hposition), Option.bind_some]
      exact hat

/-! Paging in clauses -/

theorem withoutPaging_plainMembers (members : List (String × Json)) :
    withoutPaging (plainMembers members) = plainMembers (withoutPaging members) := by
  induction members with
  | nil => rfl
  | cons member rest ih =>
      obtain ⟨key, json⟩ := member
      obtain ⟨value, hvalue⟩ := exists_plainMember key json
      rw [plainMembers, withoutPaging_cons, withoutPaging_cons, ih, hvalue]
      split
      · rfl
      · rw [plainMembers, hvalue]

theorem plainClauses_modify {change : Json → Json} {position : Nat}
    (hchange : ∀ json, plainClause (change json) = plainClause json) (items : List Json) :
    plainClauses (items.modify position change) = plainClauses items := by
  induction items generalizing position with
  | nil => rw [List.modify_nil]
  | cons item rest ih =>
      cases position with
      | zero => simp only [List.modify_zero_cons, plainClauses, hchange]
      | succ position => simp only [List.modify_succ_cons, plainClauses, ih]

theorem plainMember_editItem {change : Json → Json} {position : Nat} {list : ClauseList}
    (hchange : ∀ json, plainClause (change json) = plainClause json) (member : String × Json) :
    plainMember (Json.editItem list position change member) = plainMember member := by
  obtain ⟨key, json⟩ := member
  cases json with
  | array items =>
      rw [Json.editItem]
      split
      · rename_i hkey
        simp only [plainMember, hkey, list.lookup_key, Option.isSome_some, if_true,
          plainClauses_modify hchange]
      · rfl
  | null | bool | integer | float | string | object => rfl

theorem plainMembers_map_editItem {change : Json → Json} {position : Nat} {list : ClauseList}
    (hchange : ∀ json, plainClause (change json) = plainClause json)
    (members : List (String × Json)) :
    plainMembers (members.map (Json.editItem list position change)) = plainMembers members := by
  induction members with
  | nil => rfl
  | cons member rest ih =>
      rw [List.map_cons, plainMembers, plainMembers, ih, plainMember_editItem hchange]

/-- An edit of the paging at a place makes no difference to a clause without paging. -/
theorem plainClause_editAt (edit : PagingEdit) (place : Place) (json : Json) :
    plainClause (json.editAt edit.apply place) = plainClause json := by
  induction place generalizing json with
  | nil =>
      cases json with
      | object members =>
          rw [Json.editAt, plainClause, plainClause, withoutPaging_plainMembers,
            edit.withoutPaging_apply, withoutPaging_plainMembers]
      | null | bool | integer | float | string | array => rfl
  | cons step place ih =>
      cases json with
      | object members =>
          rw [Json.editAt, plainClause, plainClause, plainMembers_map_editItem ih]
      | null | bool | integer | float | string | array => rfl

end Query

namespace Request

theorem ofJson_editAt (edit : PagingEdit) {place : Place} (hplace : place ≠ []) (json : Json) :
    ofJson (json.editAt edit.apply place) = ofJson json := by
  obtain ⟨⟨list, position⟩, place, rfl⟩ := List.exists_cons_of_ne_nil hplace
  cases json with
  | object members =>
      rw [Json.editAt, ← ofJson_plainMembers,
        plainMembers_map_editItem (plainClause_editAt edit place), ofJson_plainMembers]
  | null | bool | integer | float | string | array => rfl

/-- The query of a request that is read from an object is what the object is decoded to. -/
theorem query_of_ofJson {json : Json} {request : Request} (hrequest : ofJson json = .ok request) :
    Query.ofJson json = .ok request.query := by
  cases json with
  | object members =>
      rw [ofJson] at hrequest
      split at hrequest
      · contradiction
      · split at hrequest
        · rename_i decoded hdecoded
          obtain rfl := Except.ok.inj hrequest
          exact ofJson_of_ofMembers hdecoded
        · contradiction
  | null | bool | integer | float | string | array => contradiction

/--
An object that is a request is the same query as a clause of another request. Whatever is done to
the paging of clauses of a request makes no difference to it, nor to the error if it is none.
-/
theorem clauses_are_queries (json : Json) :
    (∀ request clause place other, ofJson json = .ok request → clause.StandsAt place json →
      ofJson clause = .ok other → request.query.clauseAt? place = some other.query) ∧
    ∀ edits : List (Place × PagingEdit), (∀ edit ∈ edits, edit.1 ≠ []) →
      ofJson (edits.foldl (fun json edit => json.editAt edit.2.apply edit.1) json) =
        ofJson json := by
  constructor
  · intro request clause place other hrequest hstands hother
    obtain ⟨inner, hinner, hat⟩ := clauseAt?_of_standsAt hstands (query_of_ofJson hrequest)
    rw [hat, Except.ok.inj (hinner.symm.trans (query_of_ofJson hother))]
  · intro edits hedits
    induction edits generalizing json with
    | nil => rfl
    | cons edit rest ih =>
        rw [List.forall_mem_cons] at hedits
        rw [List.foldl_cons, ih _ hedits.2, ofJson_editAt edit.2 hedits.1]

/-- A query for a word, with paging. -/
def whaleClause : Json :=
  .object [("limit", .integer 3), ("query", .string "whale"), ("type", .string "text")]

def whaleRequest : Json :=
  .object [("must", .array [whaleClause]), ("type", .string "bool")]

theorem whaleClause_is_query :
    ofJson whaleRequest = .ok ⟨.bool [.text "whale" []] [] [], none, 0⟩ ∧
      whaleClause.StandsAt [(.must, 0)] whaleRequest ∧
      ofJson whaleClause = .ok ⟨.text "whale" [], some 3, 0⟩ ∧
      (QueryDef.bool [.text "whale" []] [] []).clauseAt? [(.must, 0)] =
        some (.text "whale" []) ∧
      ofJson (whaleRequest.editAt (PagingEdit.replace "limit" rfl (.string "many")).apply
        [(.must, 0)]) = ofJson whaleRequest := by
  have hstands : whaleClause.StandsAt [(.must, 0)] whaleRequest := .within rfl rfl .here
  have hrequest : ofJson whaleRequest = .ok ⟨.bool [.text "whale" []] [] [], none, 0⟩ := rfl
  have hclause : ofJson whaleClause = .ok ⟨.text "whale" [], some 3, 0⟩ := rfl
  obtain ⟨hqueries, hedits⟩ := clauses_are_queries whaleRequest
  exact ⟨hrequest, hstands, hclause, hqueries _ _ _ _ hrequest hstands hclause,
    hedits [([(.must, 0)], PagingEdit.replace "limit" rfl (.string "many"))] (by simp)⟩

end Request

end DocIndex
