import DocIndex.Analysis.Analyzer
import DocIndex.Document.Typed

/-!
Entries: documents as a search looks at them. For every indexed field that has a value, an entry
holds the terms of the value with their positions; a number is a term of its own.
-/

namespace DocIndex

/-- A term at a position of a field. -/
structure Occurrence where
  term : FieldValue
  position : Nat
deriving Repr, DecidableEq

def Occurrence.ofToken (token : Analysis.Token) : Occurrence :=
  ⟨.text token.text, token.position⟩

def FieldDef.occurrences [Segmenter] (field : FieldDef) (value : FieldValue) : List Occurrence :=
  match field.indexed, value with
  | false, _ => []
  | true, .text s => (field.effectiveTokenizer.terms s).map Occurrence.ofToken
  | true, number => [⟨number, 0⟩]

/-- A document with the terms of its fields. -/
structure Entry where
  document : Document
  index : List (FieldId × List Occurrence)
deriving Repr, DecidableEq

namespace Entry

/-- The terms of one value of a document. -/
def indexValue [Segmenter] (schema : Schema) (id : FieldId) (value : FieldValue) :
    FieldId × List Occurrence :=
  match schema.field? id with
  | some field => (id, field.occurrences value)
  | none => (id, [])

def ofDocument [Segmenter] (schema : Schema) (document : Document) : Entry :=
  ⟨document, document.values.map fun (id, value) => indexValue schema id value⟩

/-- The occurrences of terms in a field, in the order of the text. -/
def occurrences (entry : Entry) (id : FieldId) : List Occurrence :=
  (entry.index.lookup id).getD []

/-- The terms of a field, once for each occurrence. -/
def terms (entry : Entry) (id : FieldId) : List FieldValue :=
  (entry.occurrences id).map (·.term)

def has (entry : Entry) (id : FieldId) (term : FieldValue) : Bool :=
  (entry.terms id).contains term

/-- The positions of a term in a field, in ascending order. -/
def positions (entry : Entry) (id : FieldId) (term : FieldValue) : List Nat :=
  ((entry.occurrences id).filter (·.term = term)).map (·.position)

end Entry

end DocIndex
