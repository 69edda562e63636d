import DocIndex.Document.Typed
import DocIndex.Json.Writer

/-!
What an index keeps on disk, and its text form: an object with the fields under `schema` and the
documents under `documents`, each a list of positions and values. Floats are given by their bits, as
not every float comes back from its decimal form.
-/

namespace DocIndex

/-- The documents of an index, and how it keeps their fields. -/
structure StoredIndex where
  storage : List (String × FieldStorage)
  documents : List Document
deriving Repr, DecidableEq

namespace FieldStorage

def indexingJson : Option TextIndexing → Json
  | none => .null
  | some indexing =>
      .object [("positions", .bool (indexing.detail = .positions)),
        ("tokenizer", .string indexing.tokenizer.word)]

def toJson (name : String) : FieldStorage → Json
  | .text stored fast indexing =>
      .object [("fast", .bool fast), ("indexing", indexingJson indexing), ("name", .string name),
        ("stored", .bool stored)]
  | .number kind indexed fast stored =>
      .object [("fast", .bool fast), ("indexed", .bool indexed), ("kind", .string kind.word),
        ("name", .string name), ("stored", .bool stored)]

def tokenizerOf? (word : String) : Option Tokenizer :=
  [Tokenizer.standard, .raw, .stemmed, .jieba].find? (·.word = word)

def kindOf? (word : String) : Option FieldKind :=
  [FieldKind.text, .i64, .f64].find? (·.word = word)

def flagOf? (json : Json) (key : String) : Option Bool :=
  match json.get? key with
  | some (.bool b) => some b
  | _ => none

def stringOf? (json : Json) (key : String) : Option String :=
  match json.get? key with
  | some (.string s) => some s
  | _ => none

def indexingOf? : Json → Option (Option TextIndexing)
  | .null => some none
  | json => do
      let positions ← flagOf? json "positions"
      let tokenizer ← tokenizerOf? (← stringOf? json "tokenizer")
      return some ⟨if positions then .positions else .documents, tokenizer⟩

def ofJson? (json : Json) : Option (String × FieldStorage) := do
  let name ← stringOf? json "name"
  let fast ← flagOf? json "fast"
  let stored ← flagOf? json "stored"
  match json.get? "indexing" with
  | some indexing => return (name, .text stored fast (← indexingOf? indexing))
  | none =>
      let kind ← kindOf? (← stringOf? json "kind")
      return (name, .number kind (← flagOf? json "indexed") fast stored)

end FieldStorage

namespace StoredIndex

def valueJson (id : FieldId) : FieldValue → Json
  | .text s => .array [.integer id, .string s]
  | .i64 n => .array [.integer id, .integer n.toInt]
  | .f64 x => .array [.integer id, .object [("bits", .integer x.toBits.toNat)]]

def valueOf? : Json → Option (FieldId × FieldValue)
  | .array [.integer id, .string s] => some (id.toNat, .text s)
  | .array [.integer id, .integer n] => some (id.toNat, .i64 (Int64.ofInt n))
  | .array [.integer id, .object [("bits", .integer n)]] =>
      some (id.toNat, .f64 (Float.ofBits (UInt64.ofNat n.toNat)))
  | _ => none

def documentJson (document : Document) : Json :=
  .array (document.values.map fun (id, value) => valueJson id value)

def documentOf? : Json → Option Document
  | .array items => (items.mapM valueOf?).map (⟨·, []⟩)
  | _ => none

def toText (stored : StoredIndex) : String :=
  let fields := stored.storage.map fun (name, storage) => storage.toJson name
  (Json.object [("documents", .array (stored.documents.map documentJson)),
    ("schema", .array fields)]).compact

def ofText? (text : String) : Option StoredIndex :=
  match Json.parse text with
  | .ok json =>
      match json.get? "schema", json.get? "documents" with
      | some (.array fields), some (.array documents) => do
          return ⟨← fields.mapM FieldStorage.ofJson?, ← documents.mapM documentOf?⟩
      | _, _ => none
  | .error _ => none

end StoredIndex

end DocIndex
