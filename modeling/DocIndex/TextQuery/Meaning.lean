import DocIndex.Search.Criterion
import DocIndex.TextQuery.Grammar
import DocIndex.TextQuery.Number

/-!
What a text query asks of a document. Words without a field are looked for in all target fields;
each field cuts them into terms in its own way. Words that give no term ask for nothing and are left
out, as are ranges without an end; a query of which only exclusions remain is refused.
-/

namespace DocIndex.TextQuery

/-- A query in terms of criteria, before clauses that ask for nothing are left out. -/
inductive Meaning where
  | criterion (criterion : Criterion)
  | clauses (parts : List (Occur × Meaning))
  | boost (factor : Float32) (meaning : Meaning)
deriving Inhabited

namespace Meaning

/-- Asks for nothing. -/
def empty : Meaning :=
  .clauses []

mutual

/-- The criterion of a meaning, unless it asks for nothing. -/
def criterion? : Meaning → Option Criterion
  | .criterion sought => some sought
  | .clauses parts =>
      match partCriteria parts with
      | [] => none
      | parts =>
          let select (occur : Occur) : List Criterion :=
            (parts.filter fun part => part.1 = occur).map (·.2)
          some (.bool (select .must) (select .should) (select .mustNot))
  | .boost factor meaning => some (.boost factor ((criterion? meaning).getD .nothing))

/-- The criteria of clauses, less those that ask for nothing. -/
def partCriteria : List (Occur × Meaning) → List (Occur × Criterion)
  | [] => []
  | part :: rest =>
      match partCriterion part with
      | some part => part :: partCriteria rest
      | none => partCriteria rest

def partCriterion : Occur × Meaning → Option (Occur × Criterion)
  | (occur, meaning) => (criterion? meaning).map (occur, ·)

end

mutual

/-- Tells whether a meaning only excludes documents, or asks for nothing. -/
def onlyExcludes : Meaning → Bool
  | .criterion _ => false
  | .clauses parts => partsOnlyExclude parts
  | .boost _ meaning => onlyExcludes meaning

/-- Tells whether all clauses only exclude documents. -/
def partsOnlyExclude : List (Occur × Meaning) → Bool
  | [] => true
  | part :: rest => partOnlyExcludes part && partsOnlyExclude rest

/-- Tells whether a clause only excludes documents. -/
def partOnlyExcludes : Occur × Meaning → Bool
  | (occur, meaning) => occur = .mustNot || onlyExcludes meaning

end

end Meaning

/-- The places of the dots in a path; a dot after a backslash does not count. -/
def dotsFrom (position : Nat) : List Char → List Nat
  | [] => []
  | '\\' :: _ :: rest => dotsFrom (position + 2) rest
  | ch :: rest =>
      let others := dotsFrom (position + 1) rest
      if ch = '.' then position :: others else others

/-- A field and the path to a part of it, which is empty for the field itself. -/
structure Target where
  id : FieldId
  field : FieldDef
  path : String

/--
The field that a path names: all of it, or what stands before one of its dots, the last one first.
-/
def target? (schema : Schema) (path : String) : Option Target :=
  let ofCut (name path : String) : Option Target :=
    (schema.lookup? name).map fun (id, field) => ⟨id, field, path⟩
  let chars := path.toList
  (ofCut path "").or
    ((dotsFrom 0 chars).reverse.findSome? fun dot =>
      ofCut (String.ofList (chars.take dot)) (String.ofList (chars.drop (dot + 1))))

/-- The field that a path names. -/
def target (schema : Schema) (path : String) : Except SearchFault Target :=
  match target? schema path with
  | some found => .ok found
  | none => .error (.unknownField path)

def numberValue (kind : FieldKind) (text : String) : Except SearchFault FieldValue :=
  match kind with
  | .i64 =>
      match integer text with
      | .ok n => .ok (.i64 n)
      | .error fault => .error (.notAnInteger fault)
  | _ =>
      match float? text with
      | some x => .ok (.f64 x)
      | none => .error .notAFloat

/-- What words ask of a text field; words without a term ask for nothing. -/
def textCriterion [Segmenter] (target : Target) (text : String) (slop : Nat) (openEnded : Bool) :
    Except SearchFault (Option Criterion) :=
  let tokenizer := target.field.effectiveTokenizer
  match tokenizer.analyze text with
  | [] => if openEnded then .error (.phraseTooShort text tokenizer) else .ok none
  | [token] =>
      if openEnded then .error (.phraseTooShort text tokenizer)
      else .ok (some (.term target.id (.text token.text)))
  | token :: tokens =>
      let parts := (token :: tokens).map Occurrence.ofToken
      match openEnded, tokens.getLast? with
      | true, some last =>
          .ok (some (.phraseStart target.id parts.dropLast last.text last.position))
      | _, _ => .ok (some (.phrase target.id parts slop))

def wordsCriterion [Segmenter] (target : Target) (text : String) (slop : Nat) (openEnded : Bool) :
    Except SearchFault (Option Criterion) :=
  let field := target.field
  if !field.indexed then .error (.notIndexed field.name)
  else if target.path ≠ "" then .error (.unknownField s!"{field.name}.{target.path}")
  else
    match field.kind with
    | .text => textCriterion target text slop openEnded
    | kind => (numberValue kind text).map fun value => some (.term target.id value)

def defaultTarget? (schema : Schema) (id : FieldId) : Option Target :=
  (schema.field? id).map fun field => ⟨id, field, ""⟩

/-- What words without a field ask: what any of the target fields makes of them. -/
def anywhere (results : List (Except SearchFault (Option Criterion))) :
    Except SearchFault Meaning :=
  let criteria := results.filterMap fun
    | .ok criterion => criterion
    | .error _ => none
  let firstFault := results.findSome? fun
    | .error fault => some fault
    | .ok _ => none
  match criteria, firstFault with
  | [], some fault => .error fault
  | [criterion], _ => .ok (.criterion criterion)
  | criteria, _ => .ok (.clauses (criteria.map fun criterion => (.should, .criterion criterion)))

/-- Reads a value that a range or a list names. -/
def boundValue [Segmenter] (target : Target) (text : String) : Except SearchFault FieldValue :=
  let field := target.field
  if !field.indexed && !field.fast then .error (.notIndexed field.name)
  else if target.path ≠ "" then .error (.partOfPlainField field.name)
  else
    match field.kind with
    | .text =>
        if !field.indexed then .error (.notIndexed field.name)
        else
          match field.effectiveTokenizer.analyze text with
          | [token] => .ok (.text token.text)
          | _ => .error .boundIsPhrase
    | kind => numberValue kind text

/-- Reads an end of a range; a star leaves it open. -/
def bound [Segmenter] (target : Target) : Edge → Except SearchFault Bound
  | .unbounded => .ok .unbounded
  | .included text => (boundValue target text).map .included
  | .excluded text => (boundValue target text).map .excluded

/--
What a range on a field asks: on the values where the field keeps them in a column, else on the
terms.
-/
def rangeMeaning [Segmenter] (target : Target) (lower upper : Edge) : Except SearchFault Meaning :=
  match bound target lower with
  | .error fault => .error fault
  | .ok lower =>
      match bound target upper with
      | .error fault => .error fault
      | .ok upper =>
          if lower = .unbounded ∧ upper = .unbounded then .ok .empty
          else if target.field.fast then .ok (.criterion (.valueRange target.id ⟨lower, upper⟩))
          else .ok (.criterion (.termRange target.id ⟨lower, upper⟩))

def boundValues [Segmenter] (target : Target) : List String → Except SearchFault (List FieldValue)
  | [] => .ok []
  | text :: rest =>
      match boundValue target text with
      | .error fault => .error fault
      | .ok value =>
          match boundValues target rest with
          | .error fault => .error fault
          | .ok values => .ok (value :: values)

def leafMeaning [Segmenter] (schema : Schema) (fields : List FieldId) :
    Leaf → Except SearchFault Meaning
  | .words none text slop openEnded =>
      anywhere ((fields.filterMap (defaultTarget? schema)).map fun target =>
        wordsCriterion target text slop openEnded)
  | .words (some path) text slop openEnded =>
      match target schema path with
      | .error fault => .error fault
      | .ok target => anywhere [wordsCriterion target text slop openEnded]
  | .all => .ok (.criterion .all)
  | .range (some path) lower upper =>
      match target schema path with
      | .error fault => .error fault
      | .ok target => rangeMeaning target lower upper
  | .anyOf (some path) texts =>
      match target schema path with
      | .error fault => .error fault
      | .ok target =>
          match boundValues target texts with
          | .error fault => .error fault
          | .ok values => .ok (.criterion (.anyOf target.id values))
  | .range none _ _ | .anyOf none _ | .present _ => .error .rangeWithoutField

/-- Factors closer to one than this do nothing. -/
def boostTolerance : Float32 := 1.1920929e-7

mutual

/-- What an expression asks. The error is that of the first leaf that has one. -/
def meaning [Segmenter] (schema : Schema) (fields : List FieldId) :
    Expr → Except SearchFault Meaning
  | .leaf item => leafMeaning schema fields item
  | .clauses parts =>
      match partMeanings schema fields parts with
      | .error fault => .error fault
      | .ok parts => .ok (.clauses parts)
  | .boost factor expr =>
      match meaning schema fields expr with
      | .error fault => .error fault
      | .ok inner =>
          let factor := factor.toFloat32
          if (factor - 1.0).abs < boostTolerance then .ok inner else .ok (.boost factor inner)

/-- What clauses ask. -/
def partMeanings [Segmenter] (schema : Schema) (fields : List FieldId) :
    List (Option Occur × Expr) → Except SearchFault (List (Occur × Meaning))
  | [] => .ok []
  | part :: rest =>
      match partMeaning schema fields part with
      | .error fault => .error fault
      | .ok part =>
          match partMeanings schema fields rest with
          | .error fault => .error fault
          | .ok parts => .ok (part :: parts)

/-- What a clause asks; without a sign it is one of those of which one is to hold. -/
def partMeaning [Segmenter] (schema : Schema) (fields : List FieldId) :
    Option Occur × Expr → Except SearchFault (Occur × Meaning)
  | (occur, expr) => (meaning schema fields expr).map (occur.getD .should, ·)

end

def criterion [Segmenter] (schema : Schema) (fields : List FieldId) (query : String) :
    Except SearchFault Criterion :=
  match read? query with
  | none => .error (.wrongSyntax query)
  | some expr =>
      match meaning schema fields expr with
      | .error fault => .error fault
      | .ok (.clauses []) => .ok .nothing
      | .ok found =>
          if found.onlyExcludes then .error .onlyExclusions
          else .ok ((found.criterion?).getD .nothing)

end DocIndex.TextQuery
