import DocIndex.Query.Plan
import DocIndex.TextQuery.Meaning

/-!
The criterion of a plan. Words and phrases become terms here, as each field cuts them; the clauses
of a plan are treated in the order `must`, `should`, `must_not`, and the first error is reported.
-/

namespace DocIndex.Plan

/-- Longer prefixes, in bytes, cannot be looked up. -/
def prefixBound : Nat := 981

/-- The tokenizer of the field at a position, as an open index finds it by its name. -/
def tokenizer? (schema : Schema) (id : FieldId) : Option Tokenizer :=
  (schema.indexing? id).bind fun indexing => Tokenizer.named? indexing.tokenizer.name

/-- A phrase in one field; a phrase that the field cuts into no term is left out. -/
def phraseCriterion [Segmenter] (schema : Schema) (sought : String) (id : FieldId) :
    Except SearchFault (Option Criterion) :=
  match tokenizer? schema id with
  | none => .error .noTokenizer
  | some tokenizer =>
      match tokenizer.analyze sought with
      | [] => .ok none
      | [token] => .ok (some (.term id (.text token.text)))
      | tokens => .ok (some (.phrase id (tokens.map Occurrence.ofToken) 0))

def phraseParts [Segmenter] (schema : Schema) (sought : String) :
    List FieldId → Except SearchFault (List Criterion)
  | [] => .ok []
  | id :: rest =>
      match phraseCriterion schema sought id with
      | .error fault => .error fault
      | .ok part =>
          match phraseParts schema sought rest with
          | .error fault => .error fault
          | .ok parts => .ok (part.toList ++ parts)

def phraseCriteria [Segmenter] (schema : Schema) (sought : String) (ids : List FieldId) :
    Except SearchFault Criterion :=
  match phraseParts schema sought ids with
  | .error fault => .error fault
  | .ok [] => .ok .nothing
  | .ok parts => .ok (.bool [] parts [])

def fuzzyCriteria (ids : List FieldId) (words : List FuzzyWord) : Criterion :=
  let inAnyField (word : FuzzyWord) : Criterion :=
    .bool [] (ids.map fun id => .fuzzy id word.text word.distance) []
  .bool (words.map inAnyField) [] []

/-- A beginning in one of some fields. -/
def prefixCriteria (clauses : List PrefixClause) : Except SearchFault Criterion :=
  if clauses.any fun clause => prefixBound < clause.start.utf8ByteSize then .error .prefixTooLong
  else .ok (.bool [] (clauses.map fun clause => .startsWith clause.field clause.start) [])

mutual

/-- The criterion of a plan. Exclusions alone exclude from all documents. -/
def criterion [Segmenter] (schema : Schema) : Plan → Except SearchFault Criterion
  | .text query ids => TextQuery.criterion schema ids query
  | .fuzzy words ids => .ok (fuzzyCriteria ids words)
  | .phrase sought ids => phraseCriteria schema sought ids
  | .startsWith clauses => prefixCriteria clauses
  | .term id value => .ok (.equals id value)
  | .rangeI64 id min max => .ok (.valueRange id (.integers min max))
  | .rangeF64 id min max => .ok (.valueRange id (.floats min max))
  | .bool must should mustNot =>
      match criteria schema must with
      | .error fault => .error fault
      | .ok musts =>
          match criteria schema should with
          | .error fault => .error fault
          | .ok shoulds =>
              match criteria schema mustNot with
              | .error fault => .error fault
              | .ok mustNots =>
                  if musts.isEmpty && shoulds.isEmpty then .ok (.bool [.all] [] mustNots)
                  else .ok (.bool musts shoulds mustNots)
  | .all => .ok .all
  | .nothing => .ok .nothing

def criteria [Segmenter] (schema : Schema) : List Plan → Except SearchFault (List Criterion)
  | [] => .ok []
  | plan :: rest =>
      match criterion schema plan with
      | .error fault => .error fault
      | .ok criterion =>
          match criteria schema rest with
          | .error fault => .error fault
          | .ok criteria => .ok (criterion :: criteria)

end

end DocIndex.Plan
