import DocIndex.Document.Value
import DocIndex.Query.Definition
import DocIndex.Query.Error
import DocIndex.Schema.Compiled
import DocIndex.Text.Lower
import DocIndex.Text.Words

/-!
Plans: queries in the terms of a schema. A plan names fields by their position, holds values of the
fields' kinds, and has its words prepared. Planning checks a query against the schema; the first
rule that a clause breaks is the error, and clauses are planned in the order `must`, `should`,
`must_not`.
-/

namespace DocIndex

/-- A word that may be misspelt, with the number of edits allowed. -/
structure FuzzyWord where
  text : String
  distance : Nat
deriving Repr, DecidableEq

/-- The beginning of a term of a field. -/
structure PrefixClause where
  field : FieldId
  start : String
deriving Repr, DecidableEq

/-- A query in the terms of a schema. -/
inductive Plan where
  | text (query : String) (fields : List FieldId)
  /-- Every word is to be found in one of the fields. -/
  | fuzzy (words : List FuzzyWord) (fields : List FieldId)
  | phrase (phrase : String) (fields : List FieldId)
  | startsWith (clauses : List PrefixClause)
  | term (field : FieldId) (value : FieldValue)
  | rangeI64 (field : FieldId) (min max : Option Int64)
  | rangeF64 (field : FieldId) (min max : Option Float)
  | bool (must should mustNot : List Plan)
  | all
  | nothing
deriving Repr, Inhabited

namespace Plan

/-- No more edits than this are ever allowed. -/
def distanceCap : UInt8 := 2

/-- Words of at most this many characters allow one edit at most. -/
def shortWord : Nat := 5

/-- The number of edits allowed for a word. -/
def wordDistance (distance : Nat) (word : List Char) : Nat :=
  if word.length ≤ shortWord then min distance 1 else distance

/--
The usable words of a term: its words in lower case, less all characters that are neither letters
nor digits, as far as two characters or more remain.
-/
def fuzzyWords (term : String) (distance : Nat) : List FuzzyWord :=
  (Text.words term).filterMap fun word =>
    let kept := (Text.lower word).toList.filter Unicode.isAlphanumeric
    if 1 < kept.length then some ⟨String.ofList kept, wordDistance distance kept⟩ else none

def textField (schema : Schema) (name : String) : Except QueryError FieldId :=
  match schema.lookup? name with
  | none => .error (.unknownField name)
  | some (id, field) =>
      if field.kind ≠ .text then .error (.kindMismatch name .text field.kind)
      else if !field.indexed then .error (.notIndexed name)
      else .ok id

def textFieldsOf (schema : Schema) : List String → Except QueryError (List FieldId)
  | [] => .ok []
  | name :: rest =>
      match textField schema name with
      | .error fault => .error fault
      | .ok id =>
          match textFieldsOf schema rest with
          | .error fault => .error fault
          | .ok ids => .ok (id :: ids)

/-- The fields that a full-text query looks at: those it names, or the default ones. -/
def targets (schema : Schema) (names : List String) : Except QueryError (List FieldId) :=
  match names with
  | [] =>
      match schema.targets with
      | [] => .error .noSearchFields
      | ids => .ok ids
  | names => textFieldsOf schema names

def byHandle (schema : Schema) (id : FieldId) : Except QueryError FieldDef :=
  match schema.tables.ofHandle? id with
  | none => .error (.unknownField s!"#{id}")
  | some field => .ok field.definition

def checkCut (schema : Schema) : List FieldId → Except QueryError Unit
  | [] => .ok ()
  | id :: rest =>
      match byHandle schema id with
      | .error fault => .error fault
      | .ok field =>
          if field.isTokenized then checkCut schema rest else .error (.phraseOnRawField field.name)

/-- The beginning to look for in a field: as given in a raw field, else in lower case. -/
def prefixClause (start : String) (id : FieldId) (field : FieldDef) : PrefixClause :=
  if field.effectiveTokenizer = .raw then ⟨id, start⟩ else ⟨id, Text.lower start⟩

/-- The beginnings to look for in fields. -/
def prefixClauses (schema : Schema) (start : String) :
    List FieldId → Except QueryError (List PrefixClause)
  | [] => .ok []
  | id :: rest =>
      match byHandle schema id with
      | .error fault => .error fault
      | .ok field =>
          match prefixClauses schema start rest with
          | .error fault => .error fault
          | .ok clauses => .ok (prefixClause start id field :: clauses)

def termValue? : FieldKind → Json → Option FieldValue
  | .text, .string s => some (.text s)
  | .i64, .integer n =>
      if -(signWeight : Int) ≤ n ∧ n < (signWeight : Int) then some (.i64 (Int64.ofInt n)) else none
  | .f64, .integer n => some (.f64 (Json.floatOfInteger n))
  | .f64, .float x => some (.f64 x)
  | _, _ => none

/-- Plans a search for a value. -/
def ofTerm (schema : Schema) (name : String) (json : Json) : Except QueryError Plan :=
  match schema.lookup? name with
  | none => .error (.unknownField name)
  | some (id, field) =>
      if !field.indexed then .error (.notIndexed name)
      else
        match termValue? field.kind json with
        | some value => .ok (.term id value)
        | none => .error (.valueMismatch name field.kind json)

def rangeField (schema : Schema) (name : String) (kind : FieldKind) : Except QueryError FieldId :=
  match schema.lookup? name with
  | none => .error (.unknownField name)
  | some (id, field) =>
      if field.kind ≠ kind then .error (.kindMismatch name kind field.kind)
      else if !field.fast then .error (.notFast name)
      else .ok id

/-- Refuses integer bounds that leave nothing between them. -/
def checkIntegers : Option Int64 → Option Int64 → Except QueryError Unit
  | some min, some max => if max < min then .error (.integersCrossed min max) else .ok ()
  | _, _ => .ok ()

/-- Refuses float bounds that leave nothing between them. -/
def checkFloats : Option Float → Option Float → Except QueryError Unit
  | some min, some max => if max < min then .error (.floatsCrossed min max) else .ok ()
  | _, _ => .ok ()

/-- Plans a search for misspelt words. -/
def ofFuzzy (schema : Schema) (cap : UInt8) (term : String) (distance : UInt8)
    (names : List String) : Except QueryError Plan :=
  if cap < distance then .error (.distanceTooLarge distance cap)
  else
    match targets schema names with
    | .error fault => .error fault
    | .ok ids =>
        match fuzzyWords term distance.toNat with
        | [] => .ok .nothing
        | words => .ok (.fuzzy words ids)

def ofPhrase (schema : Schema) (phrase : String) (names : List String) : Except QueryError Plan :=
  match targets schema names with
  | .error fault => .error fault
  | .ok ids =>
      match checkCut schema ids with
      | .error fault => .error fault
      | .ok () => if Text.isBlank phrase then .ok .nothing else .ok (.phrase phrase ids)

def ofPrefix (schema : Schema) (start : String) (names : List String) : Except QueryError Plan :=
  if start = "" then .error .emptyPrefix
  else
    match targets schema names with
    | .error fault => .error fault
    | .ok ids =>
        match prefixClauses schema start ids with
        | .error fault => .error fault
        | .ok clauses => .ok (.startsWith clauses)

mutual

/-- Plans a query; `cap` is the greatest edit distance that is accepted. -/
def ofQuery (schema : Schema) (cap : UInt8) : QueryDef → Except QueryError Plan
  | .text query names =>
      match targets schema names with
      | .error fault => .error fault
      | .ok ids => .ok (.text query ids)
  | .fuzzy sought distance names => ofFuzzy schema cap sought distance names
  | .phrase sought names => ofPhrase schema sought names
  | .startsWith start names => ofPrefix schema start names
  | .term field value => ofTerm schema field value
  | .rangeI64 name min max =>
      match rangeField schema name .i64 with
      | .error fault => .error fault
      | .ok id =>
          match checkIntegers min max with
          | .error fault => .error fault
          | .ok () => .ok (.rangeI64 id min max)
  | .rangeF64 name min max =>
      match rangeField schema name .f64 with
      | .error fault => .error fault
      | .ok id =>
          match checkFloats min max with
          | .error fault => .error fault
          | .ok () => .ok (.rangeF64 id min max)
  | .bool [] [] [] => .ok .nothing
  | .bool must should mustNot =>
      match ofQueries schema cap must with
      | .error fault => .error fault
      | .ok must =>
          match ofQueries schema cap should with
          | .error fault => .error fault
          | .ok should =>
              match ofQueries schema cap mustNot with
              | .error fault => .error fault
              | .ok mustNot => .ok (.bool must should mustNot)
  | .all => .ok .all

def ofQueries (schema : Schema) (cap : UInt8) : List QueryDef → Except QueryError (List Plan)
  | [] => .ok []
  | query :: rest =>
      match ofQuery schema cap query with
      | .error fault => .error fault
      | .ok plan =>
          match ofQueries schema cap rest with
          | .error fault => .error fault
          | .ok plans => .ok (plan :: plans)

end

/-- Plans a query under a configured greatest distance, which the general cap bounds. -/
def compile (schema : Schema) (maxDistance : UInt8) (query : QueryDef) : Except QueryError Plan :=
  ofQuery schema (min maxDistance distanceCap) query

end Plan

end DocIndex
