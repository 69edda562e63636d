import DocIndex.Json.Value

/-!
What a caller says about the fields of an index: for each field its name, its kind, how it is kept,
and for text fields how they are cut into terms; and which fields full-text queries look at by
default.
-/

namespace DocIndex

/-- The kind of value that a field holds. -/
inductive FieldKind where
  | text
  | i64
  | f64
deriving Repr, DecidableEq

def FieldKind.word : FieldKind → String
  | .text => "text"
  | .i64 => "i64"
  | .f64 => "f64"

/-- How a text is cut into terms. -/
inductive Tokenizer where
  /-- Runs of letters and digits, in lower case. -/
  | standard
  /-- The whole string as one term. -/
  | raw
  /-- As `standard`, then reduced to English word stems. -/
  | stemmed
  /-- Chinese word segmentation. -/
  | jieba
deriving Repr, DecidableEq

/-- The word that stands for a tokenizer in a stored schema. -/
def Tokenizer.word : Tokenizer → String
  | .standard => "default"
  | .raw => "raw"
  | .stemmed => "stemmed"
  | .jieba => "jieba"

/-- The name under which the index knows a tokenizer. -/
def Tokenizer.name : Tokenizer → String
  | .standard => "default"
  | .raw => "raw"
  | .stemmed => "en_stem"
  | .jieba => "jieba"

/-- The definition of one field. -/
structure FieldDef where
  name : String
  kind : FieldKind
  /-- Hits show the value. -/
  stored : Bool := true
  /-- Terms of the value can be looked up. -/
  indexed : Bool := true
  /-- The value is kept in a column, as ranges need it. -/
  fast : Bool := false
  /-- For text fields only; absent means `standard`. -/
  tokenizer : Option Tokenizer := none
deriving Repr, DecidableEq

/-- The tokenizer in force. -/
def FieldDef.effectiveTokenizer (field : FieldDef) : Tokenizer :=
  field.tokenizer.getD .standard

/-- A text field that is cut into terms. -/
def FieldDef.isTokenized (field : FieldDef) : Bool :=
  field.kind = .text && field.effectiveTokenizer ≠ .raw

/-- A field whose terms full-text queries can look up. -/
def FieldDef.isSearchable (field : FieldDef) : Bool :=
  field.kind = .text && field.indexed

/-- The fields of an index in order, and the names of the default fields of full-text queries. -/
structure SchemaDef where
  fields : List FieldDef
  /-- Empty means all indexed and tokenized text fields. -/
  searchFields : List String := []
deriving Repr, DecidableEq

end DocIndex
