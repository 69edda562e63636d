import DocIndex.Json.Value

/-!
The queries that a caller can ask, as written in a request. A query is one of nine types; a `bool`
query combines others.
-/

namespace DocIndex

/-- The types of queries. -/
inductive QueryType where
  | text
  | fuzzy
  | phrase
  | startsWith
  | term
  | rangeI64
  | rangeF64
  | bool
  | all
deriving Repr, DecidableEq

/-- The words for the types of queries. -/
def queryTypeWords : List (String × QueryType) :=
  [("text", .text), ("fuzzy", .fuzzy), ("phrase", .phrase), ("prefix", .startsWith),
    ("term_match", .term), ("range_i64", .rangeI64), ("range_f64", .rangeF64), ("bool", .bool),
    ("all", .all)]

/-- A query. An empty list of fields means the default search fields. -/
inductive QueryDef where
  /-- A text in the query language of full-text search. -/
  | text (query : String) (fields : List String)
  /-- Words that may be misspelt; all of them must be found. -/
  | fuzzy (term : String) (distance : UInt8) (fields : List String)
  /-- Words that must follow each other. -/
  | phrase (phrase : String) (fields : List String)
  /-- A term that begins in a given way. -/
  | startsWith (start : String) (fields : List String)
  /-- A value as a whole. -/
  | term (field : String) (value : Json)
  /-- An integer between inclusive bounds. -/
  | rangeI64 (field : String) (min max : Option Int64)
  /-- A float between inclusive bounds. -/
  | rangeF64 (field : String) (min max : Option Float)
  /-- All of `must`, one of `should` when there is no `must`, and none of `mustNot`. -/
  | bool (must should mustNot : List QueryDef)
  /-- Every document. -/
  | all
deriving Repr, Inhabited

mutual

/-- Tells whether two queries are equal; floats are compared as numbers. -/
def QueryDef.same : QueryDef → QueryDef → Bool
  | .text q f, .text r g => q == r && f == g
  | .fuzzy t d f, .fuzzy u e g => t == u && d == e && f == g
  | .phrase p f, .phrase q g => p == q && f == g
  | .startsWith s f, .startsWith t g => s == t && f == g
  | .term f v, .term g w => f == g && v.same w
  | .rangeI64 f a b, .rangeI64 g c d => f == g && a == c && b == d
  | .rangeF64 f a b, .rangeF64 g c d => f == g && sameBound a c && sameBound b d
  | .bool a b c, .bool d e f => sameQueries a d && sameQueries b e && sameQueries c f
  | .all, .all => true
  | _, _ => false
where
  /-- Two optional floats that are both absent or numerically equal. -/
  sameBound : Option Float → Option Float → Bool
    | none, none => true
    | some x, some y => x == y
    | _, _ => false

def sameQueries : List QueryDef → List QueryDef → Bool
  | [], [] => true
  | a :: as, b :: bs => a.same b && sameQueries as bs
  | _, _ => false

end

end DocIndex
