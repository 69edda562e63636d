import DocIndex.Schema.Definition

/-!
What the fields of a definition become: fields with the handles that the index gives them, their
places under their names, and what the index keeps of each. The three are put together field by
field, and each is found through the others: a name leads to a place, a place to a field with its
handle, and a handle to what the index keeps.
-/

namespace DocIndex

/-- The handle of a field: the number of fields that the index had before it. -/
abbrev FieldId := Nat

/-- How much of each term the index keeps. -/
inductive TermDetail where
  /-- The documents of the term. -/
  | documents
  /-- The documents, and every position in them. -/
  | positions
deriving Repr, DecidableEq

structure TextIndexing where
  detail : TermDetail
  tokenizer : Tokenizer
deriving Repr, DecidableEq

/-- What the index needs to know about a field. -/
inductive FieldStorage where
  | text (stored fast : Bool) (indexing : Option TextIndexing)
  | number (kind : FieldKind) (indexed fast stored : Bool)
deriving Repr, DecidableEq

/-- How a field is kept. A raw field has one term, so its positions are of no use. -/
def FieldDef.storage (field : FieldDef) : FieldStorage :=
  match field.kind with
  | .text =>
      let tokenizer := field.effectiveTokenizer
      let detail := if tokenizer = .raw then .documents else .positions
      .text field.stored field.fast (if field.indexed then some ⟨detail, tokenizer⟩ else none)
  | kind => .number kind field.indexed field.fast field.stored

/-- Whether an index that keeps some fields can be given another of this name. -/
def admitsName (kept : List (String × FieldStorage)) (name : String) : Bool :=
  name ≠ "" && name.toList.head? ≠ some '-' && (kept.lookup name).isNone

/--
Gives an index one more field, and the caller its handle. There is no result for a name that the
index does not admit: it is a fault of the caller to offer one.
-/
def keepField (kept : List (String × FieldStorage)) (name : String) (storage : FieldStorage) :
    Option (FieldId × List (String × FieldStorage)) :=
  if admitsName kept name then some (kept.length, kept ++ [(name, storage)]) else none

/-- A field with its handle. -/
structure CompiledField where
  id : FieldId
  definition : FieldDef
deriving Repr, DecidableEq

/-- The fields of a schema as they are looked up. -/
structure Tables where
  /-- The fields in order. -/
  fields : List CompiledField := []
  /-- The places of the fields by their names. -/
  places : List (String × Nat) := []
  /-- What the index keeps, by handles. -/
  storage : List (String × FieldStorage) := []
deriving Repr, DecidableEq

namespace Tables

def add (tables : Tables) (place : Nat) (field : FieldDef) : Option Tables :=
  match keepField tables.storage field.name field.storage with
  | none => none
  | some (id, storage) =>
      some ⟨tables.fields ++ [⟨id, field⟩], (field.name, place) :: tables.places, storage⟩

/-- Adds fields in order, the first of which is at a place. -/
def addAll (tables : Tables) (place : Nat) : List FieldDef → Option Tables
  | [] => some tables
  | field :: rest =>
      match tables.add place field with
      | none => none
      | some tables => tables.addAll (place + 1) rest

def ofName? (tables : Tables) (name : String) : Option CompiledField :=
  (tables.places.lookup name).bind fun place => tables.fields[place]?

def ofHandle? (tables : Tables) (id : FieldId) : Option CompiledField :=
  tables.fields[id]?

/-- The handles of the named fields; without names, those of all that are cut into terms. -/
def targets (tables : Tables) : List String → List FieldId
  | [] =>
      (tables.fields.filter fun field =>
        field.definition.indexed && field.definition.isTokenized).map (·.id)
  | names => names.filterMap fun name => (tables.ofName? name).map (·.id)

end Tables

end DocIndex
