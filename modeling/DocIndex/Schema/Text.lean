import DocIndex.Schema.Compiled
import DocIndex.Json.Stream

/-!
The text form of a schema: an object with `fields` and, if there are any, `search_fields`. Reading
allows keys to be absent that have a default, and skips keys it does not know; writing gives the
keys in a fixed order.
-/

namespace DocIndex

open Json

namespace FieldDef

def kindWords : List (String × FieldKind) :=
  [("text", .text), ("i64", .i64), ("f64", .f64)]

/-- The words for tokenizers; two of them stand for the same one. -/
def tokenizerWords : List (String × Tokenizer) :=
  [("default", .standard), ("raw", .raw), ("en_stem", .stemmed), ("stemmed", .stemmed),
    ("jieba", .jieba)]

/-- The keys of a field definition read so far. -/
structure Partial where
  name : Option String := none
  kind : Option FieldKind := none
  stored : Option Bool := none
  indexed : Option Bool := none
  fast : Option Bool := none
  tokenizer : Option (Option Tokenizer) := none

/-- Decodes the value of a key. -/
def decodeMember (key : String) (before : Partial) : Stream.Step Partial := fun c => do
  match key with
  | "name" =>
      let (a, c) ← Stream.once key before.name (Stream.string "a string") c
      return ({ before with name := a }, c)
  | "type" =>
      let (a, c) ← Stream.once key before.kind (Stream.variant kindWords) c
      return ({ before with kind := a }, c)
  | "stored" =>
      let (a, c) ← Stream.once key before.stored Stream.boolean c
      return ({ before with stored := a }, c)
  | "indexed" =>
      let (a, c) ← Stream.once key before.indexed Stream.boolean c
      return ({ before with indexed := a }, c)
  | "fast" =>
      let (a, c) ← Stream.once key before.fast Stream.boolean c
      return ({ before with fast := a }, c)
  | "tokenizer" =>
      let step := Stream.optional (Stream.variant tokenizerWords)
      let (a, c) ← Stream.once key before.tokenizer step c
      return ({ before with tokenizer := a }, c)
  | _ =>
      let (_, c) ← Stream.skipValue c
      return (before, c)

def Partial.finish (read : Partial) : Except DecodeFault FieldDef := do
  let name ← Stream.required "name" read.name
  let kind ← Stream.required "type" read.kind
  return {
    name, kind
    stored := read.stored.getD true
    indexed := read.indexed.getD true
    fast := read.fast.getD false
    tokenizer := read.tokenizer.getD none }

def decodeMembers : Stream.Step FieldDef := fun c => do
  let (found, c) ← Stream.membersFrom decodeMember c.fuel true {} c
  return (← found.finish, c)

/-- Decodes a field definition that is given by position. -/
def decodeItems : Stream.Step FieldDef := fun c => do
  let tooShort {α : Type} (length : Nat) : Except DecodeFault α :=
    Stream.misshapen (.wrongLength length "struct FieldDef with 6 elements")
  let (name, c) ← Stream.positionalItem true (Stream.string "a string") c
  let some name := name | tooShort 0
  let (kind, c) ← Stream.positionalItem false (Stream.variant kindWords) c
  let some kind := kind | tooShort 1
  let (stored, c) ← Stream.positionalItem false Stream.boolean c
  let (indexed, c) ← Stream.positionalItem false Stream.boolean c
  let (fast, c) ← Stream.positionalItem false Stream.boolean c
  let (tokenizer, c) ←
    Stream.positionalItem false (Stream.optional (Stream.variant tokenizerWords)) c
  let found : Partial := ⟨some name, some kind, stored, indexed, fast, tokenizer⟩
  return (← found.finish, c)

/-- Decodes a field definition. -/
def decode : Stream.Step FieldDef :=
  Stream.record "struct FieldDef" decodeMembers decodeItems

/-- The members of a field definition as they are stored. -/
def toJson (field : FieldDef) : Json :=
  let tokenizer :=
    match field.tokenizer with
    | some tokenizer => [("tokenizer", .string tokenizer.word)]
    | none => []
  .object ([("name", .string field.name), ("type", .string field.kind.word),
    ("stored", .bool field.stored), ("indexed", .bool field.indexed), ("fast", .bool field.fast)]
    ++ tokenizer)

end FieldDef

namespace SchemaDef

/-- The keys of a schema definition read so far. -/
structure Partial where
  fields : Option (List FieldDef) := none
  searchFields : Option (List String) := none

/-- Decodes the value of a key. -/
def decodeMember (key : String) (before : Partial) : Stream.Step Partial := fun c => do
  match key with
  | "fields" =>
      let (a, c) ← Stream.once key before.fields (Stream.sequence FieldDef.decode) c
      return ({ before with fields := a }, c)
  | "search_fields" =>
      let step := Stream.sequence (Stream.string "a string")
      let (a, c) ← Stream.once key before.searchFields step c
      return ({ before with searchFields := a }, c)
  | _ =>
      let (_, c) ← Stream.skipValue c
      return (before, c)

def decodeMembers : Stream.Step SchemaDef := fun c => do
  let (found, c) ← Stream.membersFrom decodeMember c.fuel true {} c
  let fields ← Stream.required "fields" found.fields
  return (⟨fields, found.searchFields.getD []⟩, c)

/-- Decodes a schema definition that is given by position. -/
def decodeItems : Stream.Step SchemaDef := fun c => do
  let (fields, c) ← Stream.positionalItem true (Stream.sequence FieldDef.decode) c
  let some fields := fields
    | Stream.misshapen (.wrongLength 0 "struct SchemaDef with 2 elements")
  let (names, c) ← Stream.positionalItem false (Stream.sequence (Stream.string "a string")) c
  return (⟨fields, names.getD []⟩, c)

def ofText (text : String) : Except DecodeFault SchemaDef :=
  Stream.decode (Stream.record "struct SchemaDef" decodeMembers decodeItems) text

def toJson (definition : SchemaDef) : Json :=
  let searchFields :=
    match definition.searchFields with
    | [] => []
    | names => [("search_fields", .array (names.map .string))]
  .object (("fields", .array (definition.fields.map FieldDef.toJson)) :: searchFields)

end SchemaDef

def Schema.ofText (text : String) : Except SchemaError Schema :=
  match SchemaDef.ofText text with
  | .error fault => .error (.malformed fault)
  | .ok definition => definition.compile

def Schema.toText (schema : Schema) : String :=
  schema.definition.toJson.pretty

end DocIndex
