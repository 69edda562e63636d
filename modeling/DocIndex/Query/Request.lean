import DocIndex.Query.Decode
import DocIndex.Query.Encode
import DocIndex.Query.Error

/-!
Requests: a query with its paging. A request's text is read in three steps, each with errors of its
own: the text as JSON, the types of the query and of all its clauses, and the decoding proper, which
looks at `limit` and `offset` first and then at the query. Within clauses `limit` and `offset` mean
nothing.
-/

namespace DocIndex

/-- A query and the part of its hits that is asked for. -/
structure Request where
  query : QueryDef
  /-- The greatest number of hits; zero means no bound, absence the configured number. -/
  limit : Option UInt64 := none
  /-- The number of hits passed over. -/
  offset : UInt64 := 0
deriving Repr, Inhabited

namespace Query

/-- The words for types of queries that the check of types knows. -/
def checkedWords : List String :=
  ["text", "fuzzy", "phrase", "prefix", "term_match", "range_i64", "range_f64", "bool", "all"]

/-- The keys under which the check of types goes on to further queries, in its order. -/
def checkedKeys : List String :=
  ["must", "should", "must_not"]

def checkType (members : List (String × Json)) : Except QueryError Unit :=
  match Json.lookup "type" members with
  | none => .error (.malformed (.misshapen (.missingField "type")))
  | some (.string word) =>
      if word ∈ checkedWords then .ok () else .error (.unknownType word)
  | some _ => .error (.malformed .typeNotString)

/-- The first error of the results under some keys, in the order of the keys. -/
def firstError (results : List (String × Except QueryError Unit)) :
    List String → Except QueryError Unit
  | [] => .ok ()
  | key :: rest =>
      match results.lookup key with
      | some (.error fault) => .error fault
      | _ => firstError results rest

mutual

/-- Checks the types of a query and of the clauses in its lists, whatever the type of the query. -/
def checkTypes : Json → Except QueryError Unit
  | .object members =>
      match checkType members with
      | .error fault => .error fault
      | .ok () => firstError (checkClauseLists members) checkedKeys
  | _ => .error (.malformed .notAnObject)

def checkAllTypes : List Json → Except QueryError Unit
  | [] => .ok ()
  | item :: rest =>
      match checkTypes item with
      | .error fault => .error fault
      | .ok () => checkAllTypes rest

/-- Checks the types within each member that can be a list of clauses. -/
def checkClauseLists : List (String × Json) → List (String × Except QueryError Unit)
  | [] => []
  | member :: rest => checkClauseList member :: checkClauseLists rest

/-- Checks the types within a member that can be a list of clauses. -/
def checkClauseList : String × Json → String × Except QueryError Unit
  | (key, .array items) =>
      (key, if key ∈ checkedKeys then checkAllTypes items else .ok ())
  | (key, _) => (key, .ok ())

end

/-- Decodes a part of a request that may be absent. -/
def memberOf {α : Type} (key : String) (decode : Json → Except Json.Mismatch α)
    (members : List (String × Json)) : Except Json.Mismatch (Option α) :=
  match Json.lookup key members with
  | none => .ok none
  | some json => (decode json).map some

end Query

namespace Request

def ofMembers (members : List (String × Json)) : Except Json.Mismatch Request := do
  let limit ← Query.memberOf "limit" (Query.optionalOf Query.countOf) members
  let offset ← Query.memberOf "offset" Query.countOf members
  let query ← Query.ofJson (.object (members.filter fun m => m.1 ≠ "limit" ∧ m.1 ≠ "offset"))
  return ⟨query, limit.getD none, offset.getD 0⟩

/-- Decodes a request whose types have been checked. -/
def ofJson (json : Json) : Except QueryError Request :=
  match Query.checkTypes json with
  | .error fault => .error fault
  | .ok () =>
      match json with
      | .object members =>
          match ofMembers members with
          | .ok request => .ok request
          | .error mismatch => .error (.malformed (.misshapen mismatch))
      | _ => .error (.malformed .notAnObject)

def ofText (text : String) : Except QueryError Request :=
  match Json.parse text with
  | .error fault => .error (.malformed (.unreadable fault))
  | .ok json => ofJson json

/-- The members that are about paging: the limit, if there is one, and the offset. -/
def pagingMembers (request : Request) : List (String × Json) :=
  let limit :=
    match request.limit with
    | some n => [("limit", .integer n.toNat)]
    | none => []
  limit ++ [("offset", .integer request.offset.toNat)]

/-- The request as JSON: the query's members, then those about paging. -/
def toJson (request : Request) : Json :=
  .object (request.query.toMembers ++ request.pagingMembers)

def toText (request : Request) : String :=
  request.toJson.compact

/-- Tells whether two requests are equal; floats are compared as numbers. -/
def same (a b : Request) : Bool :=
  a.query.same b.query && a.limit == b.limit && a.offset == b.offset

end Request

end DocIndex
