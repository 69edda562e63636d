import DocIndex.Query.Definition

/-!
Queries written as JSON: the type first, then the parts in their order. An empty list of fields is
left out, an absent bound is `null`, and a `bool` query always has its three lists.
-/

namespace DocIndex.QueryDef

def fieldsMember : List String → List (String × Json)
  | [] => []
  | names => [("fields", .array (names.map .string))]

def boundJson {α : Type} (toJson : α → Json) : Option α → Json
  | none => .null
  | some a => toJson a

def integerBound : Option Int64 → Json :=
  boundJson fun n => .integer n.toInt

def floatBound : Option Float → Json :=
  boundJson .ofFloat

def withType (word : String) (members : List (String × Json)) : List (String × Json) :=
  ("type", .string word) :: members

mutual

def toMembers : QueryDef → List (String × Json)
  | .text query fields => withType "text" (("query", .string query) :: fieldsMember fields)
  | .fuzzy sought distance fields =>
      withType "fuzzy" (("term", .string sought) :: ("distance", .integer distance.toNat)
        :: fieldsMember fields)
  | .phrase sought fields => withType "phrase" (("phrase", .string sought) :: fieldsMember fields)
  | .startsWith start fields => withType "prefix" (("prefix", .string start) :: fieldsMember fields)
  | .term field value => withType "term_match" [("field", .string field), ("value", value)]
  | .rangeI64 field min max =>
      withType "range_i64"
        [("field", .string field), ("min", integerBound min), ("max", integerBound max)]
  | .rangeF64 field min max =>
      withType "range_f64"
        [("field", .string field), ("min", floatBound min), ("max", floatBound max)]
  | .bool must should mustNot =>
      withType "bool" [("must", .array (listToJson must)), ("should", .array (listToJson should)),
        ("must_not", .array (listToJson mustNot))]
  | .all => withType "all" []

def listToJson : List QueryDef → List Json
  | [] => []
  | query :: rest => .object (toMembers query) :: listToJson rest

end

def toJson (query : QueryDef) : Json :=
  .object query.toMembers

end DocIndex.QueryDef
