import DocIndex.Search.Phrase
import DocIndex.Search.Range
import DocIndex.Text.Edits

/-!
Criteria: what a search asks of a single document. Which documents a criterion admits does not
depend on the other documents of the index; scores do, and are another matter.
-/

namespace DocIndex

/-- A condition on a document. -/
inductive Criterion where
  /-- A field has a term. -/
  | term (field : FieldId) (term : FieldValue)
  /-- A field has a term, with the same score whatever the term. -/
  | equals (field : FieldId) (value : FieldValue)
  /-- A field has terms that stand as in a phrase, up to some slop. -/
  | phrase (field : FieldId) (phrase : List Occurrence) (slop : Nat)
  /-- A field has a phrase, followed by a term of some beginning. -/
  | phraseStart (field : FieldId) (phrase : List Occurrence) (start : String) (position : Nat)
  /-- A field has a term that some edits make of a word. -/
  | fuzzy (field : FieldId) (word : String) (distance : Nat)
  /-- A field has a term of some beginning, after which no line ends. -/
  | startsWith (field : FieldId) (start : String)
  /-- The value of a field lies in a range. -/
  | valueRange (field : FieldId) (range : ValueRange)
  /-- A term of a field lies in a range. -/
  | termRange (field : FieldId) (range : ValueRange)
  /-- A field has one of some terms. -/
  | anyOf (field : FieldId) (terms : List FieldValue)
  /--
  All of `must` hold, or one of `should` if `must` is empty, and none of `mustNot`.
  -/
  | bool (must should mustNot : List Criterion)
  /-- As the criterion, with its score multiplied. -/
  | boost (factor : Float32) (criterion : Criterion)
  | all
  | nothing
deriving Repr, Inhabited

/-- Tells whether a term begins in some way and goes on in the same line. -/
def FieldValue.continues (start : String) : FieldValue → Bool
  | .text s =>
      start.toList.isPrefixOf s.toList && (s.toList.drop start.toList.length).all (· ≠ '\n')
  | _ => false

/-- Tells whether a term is a word up to some edits. -/
def FieldValue.resembles (word : String) (distance : Nat) : FieldValue → Bool
  | .text s => Text.withinEdits distance word.toList s.toList
  | _ => false

namespace Criterion

mutual

/-- Tells whether a document fulfils a criterion. -/
def admits (entry : Entry) : Criterion → Bool
  | .term id sought => entry.has id sought
  | .equals id value => entry.has id value
  | .phrase id parts slop => 0 < Phrase.count slop entry id parts
  | .phraseStart id parts start position => Phrase.leadsTo entry id parts start position
  | .fuzzy id word distance => (entry.terms id).any (·.resembles word distance)
  | .startsWith id start => (entry.terms id).any (·.continues start)
  | .valueRange id range => (entry.document.value? id).any range.holds
  | .termRange id range => (entry.terms id).any range.holds
  | .anyOf id terms => terms.any (entry.has id)
  | .bool must should mustNot =>
      (if must.isEmpty then admitsAny entry should else admitsAll entry must)
        && !admitsAny entry mustNot
  | .boost _ criterion => admits entry criterion
  | .all => true
  | .nothing => false

/-- Tells whether a document fulfils all of some criteria. -/
def admitsAll (entry : Entry) : List Criterion → Bool
  | [] => true
  | criterion :: rest => admits entry criterion && admitsAll entry rest

/-- Tells whether a document fulfils one of some criteria. -/
def admitsAny (entry : Entry) : List Criterion → Bool
  | [] => false
  | criterion :: rest => admits entry criterion || admitsAny entry rest

end

end Criterion

end DocIndex
