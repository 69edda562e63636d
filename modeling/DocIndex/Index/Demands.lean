import DocIndex.Index.Error
import DocIndex.Schema.Compiled
import DocIndex.Search.Criterion

/-!
What the index demands of a criterion before it looks at any document. Terms can be looked up in
indexed fields only, phrases in fields of which positions are kept, and a misspelt word may have few
edits. The parts of a criterion are gone through in the order `must`, `should`, `must_not`.
-/

namespace DocIndex

namespace Schema

/-- The refusal to look up terms in the field at a position. -/
def termRefusal? (schema : Schema) (id : FieldId) : Option EngineFault :=
  (schema.field? id).bind fun field =>
    if field.indexed then none else some (.fieldWithoutTerms field.name)

/-- The refusal to look up phrases in the field at a position. -/
def phraseRefusal? (schema : Schema) (id : FieldId) : Option EngineFault :=
  (schema.field? id).bind fun field =>
    match schema.indexing? id with
    | some ⟨.positions, _⟩ => none
    | _ => some (.fieldWithoutPositions field.name)

end Schema

namespace Criterion

mutual

def refusal? (schema : Schema) : Criterion → Option EngineFault
  | .term id _ | .equals id _ | .anyOf id _ => schema.termRefusal? id
  | .phrase id _ _ | .phraseStart id _ _ _ => schema.phraseRefusal? id
  | .fuzzy _ _ distance => if distance < editBound then none else some (.tooManyEdits distance)
  | .bool must should mustNot =>
      ((firstRefusal? schema must).or (firstRefusal? schema should)).or
        (firstRefusal? schema mustNot)
  | .boost _ criterion => refusal? schema criterion
  | .startsWith _ _ | .valueRange _ _ | .termRange _ _ | .all | .nothing => none

def firstRefusal? (schema : Schema) : List Criterion → Option EngineFault
  | [] => none
  | criterion :: rest => (refusal? schema criterion).or (firstRefusal? schema rest)

end

end Criterion

end DocIndex
