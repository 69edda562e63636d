import DocIndex.Document.Value
import DocIndex.Schema.Compiled
import DocIndex.Json.Reader

/-!
Documents in the terms of a schema. A document is read from the text of a JSON object: each declared
field that is present and not `null` gives a typed value, and keys that the schema does not declare
are either ignored or, in strict mode, refused before any value is looked at.
-/

namespace DocIndex

inductive DocumentError where
  | malformed (fault : Json.Fault)
  | notAnObject (found : Json)
  | typeMismatch (field : String) (expected : FieldKind) (found : Json)
  | unknownField (name : String)
deriving Repr

def DocumentError.message : DocumentError → String
  | .malformed fault => s!"Malformed document JSON: {fault.message}"
  | .notAnObject found => s!"Document must be a JSON object, got {found.kindName}"
  | .typeMismatch field expected found =>
      s!"Type mismatch on field '{field}': expected {expected.word}, got {found.kindName}"
  | .unknownField name => s!"Unknown field: {name}"

/-- A document with its values in the order of the schema's fields. -/
structure Document where
  values : List (FieldId × FieldValue)
  /-- The keys that the schema does not declare, in ascending order. -/
  ignored : List String
deriving Repr, DecidableEq

namespace Document

def value? (document : Document) (id : FieldId) : Option FieldValue :=
  document.values.lookup id

/-- The keys of an object that a schema does not declare. -/
def unknownKeys (schema : Schema) (members : List (String × Json)) : List String :=
  (members.map (·.1)).filter fun key => (schema.find? key).isNone

/-- The values of the fields from position `id` on. -/
def valuesFrom (members : List (String × Json)) (id : FieldId) :
    List FieldDef → Except DocumentError (List (FieldId × FieldValue))
  | [] => .ok []
  | field :: rest =>
      match Json.lookup field.name members with
      | none | some .null => valuesFrom members (id + 1) rest
      | some json =>
          match FieldValue.ofJson? field.kind json with
          | none => .error (.typeMismatch field.name field.kind json)
          | some value =>
              match valuesFrom members (id + 1) rest with
              | .error fault => .error fault
              | .ok values => .ok ((id, value) :: values)

/-- The document of an object's members, which are in ascending order of their keys. -/
def ofMembers (schema : Schema) (members : List (String × Json)) (strict : Bool) :
    Except DocumentError Document :=
  let unknown := unknownKeys schema members
  match strict, unknown with
  | true, name :: _ => .error (.unknownField name)
  | _, _ =>
      match valuesFrom members 0 schema.fields with
      | .error fault => .error fault
      | .ok values => .ok ⟨values, unknown⟩

def ofText (schema : Schema) (text : String) (strict : Bool) : Except DocumentError Document :=
  match Json.parse text with
  | .error fault => .error (.malformed fault)
  | .ok (.object members) => ofMembers schema members strict
  | .ok json => .error (.notAnObject json)

end Document

end DocIndex
