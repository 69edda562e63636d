import DocIndex.Schema.Definition
import DocIndex.Json.Mismatch

/-!
Why a query is refused: its text cannot be read, it does not fit the schema, or it cannot be turned
into a search.
-/

namespace DocIndex

/-- Why a query's JSON is refused. -/
inductive QueryFault where
  | unreadable (fault : Json.Fault)
  | notAnObject
  | typeNotString
  | misshapen (mismatch : Json.Mismatch)
deriving Repr

/-- The wording of a fault in a query's JSON. -/
def QueryFault.message : QueryFault → String
  | .unreadable fault => fault.message
  | .notAnObject => "query must be a JSON object"
  | .typeNotString => "`type` must be a string"
  | .misshapen mismatch => mismatch.message

/-- Why a word is not an integer. -/
inductive IntegerFault where
  | empty
  | invalidDigit
  | aboveRange
  | belowRange
deriving Repr, DecidableEq

def IntegerFault.name : IntegerFault → String
  | .empty => "Empty"
  | .invalidDigit => "InvalidDigit"
  | .aboveRange => "PosOverflow"
  | .belowRange => "NegOverflow"

/-- Why a query cannot be turned into a search. -/
inductive SearchFault where
  /-- The text is not of the query language. -/
  | wrongSyntax (query : String)
  | unknownField (name : String)
  | notIndexed (name : String)
  | notAnInteger (fault : IntegerFault)
  | notAFloat
  /-- Nothing is sought; there are only terms to exclude. -/
  | onlyExclusions
  | rangeWithoutField
  /-- A range or a list on a part of a field that has no parts. -/
  | partOfPlainField (name : String)
  /-- A phrase whose last word is a beginning needs a word before it. -/
  | phraseTooShort (phrase : String) (tokenizer : Tokenizer)
  /-- A range bound on a text field was cut into more or less than one term. -/
  | boundIsPhrase
  /-- A prefix too long to be looked up. -/
  | prefixTooLong
  /-- The index does not know the tokenizer of a field. -/
  | noTokenizer
deriving Repr, DecidableEq

/-- The wording of a reason. -/
def SearchFault.message : SearchFault → String
  | .wrongSyntax query => s!"Syntax Error: {query}"
  | .unknownField name => s!"Field does not exist: '{name}'"
  | .notIndexed name => s!"The field '{name}' is not declared as indexed"
  | .notAnInteger fault =>
      s!"Expected a valid integer: 'ParseIntError \x7b kind: {fault.name} \x7d'"
  | .notAFloat | .onlyExclusions => "Invalid query: Only excluding terms given"
  | .rangeWithoutField =>
      "Unsupported query: Range query need to target a specific field."
  | .partOfPlainField name =>
      s!"Unsupported query: Json path is not supported for field {Text.quoted name}"
  | .phraseTooShort phrase tokenizer =>
      s!"The phrase '{Text.quoted phrase}' does not produce at least two terms using the tokenizer '{Text.quoted tokenizer.name}'"
  | .boundIsPhrase =>
      "The query contains a range query with a phrase as one of the bounds. Only terms can be used as bounds"
  | .prefixTooLong =>
      "An invalid argument was passed: 'RegexQueryError: Compiled regex exceeds size limit of 1000 states'"
  | .noTokenizer => "An invalid argument was passed: 'No Tokenizer found for field'"

inductive QueryError where
  | malformed (fault : QueryFault)
  | unknownType (name : String)
  | unknownField (name : String)
  /-- The field holds values of another kind than the query is about. -/
  | kindMismatch (field : String) (expected actual : FieldKind)
  /-- The value sought is not one of the field's kind. -/
  | valueMismatch (field : String) (expected : FieldKind) (actual : Json)
  | notIndexed (field : String)
  | notFast (field : String)
  | phraseOnRawField (field : String)
  | noSearchFields
  | distanceTooLarge (distance cap : UInt8)
  | emptyPrefix
  | integersCrossed (min max : Int64)
  | floatsCrossed (min max : Float)
  | unsearchable (fault : SearchFault)
deriving Repr

def QueryError.message : QueryError → String
  | .malformed fault => s!"Malformed query: {fault.message}"
  | .unknownType name => s!"Unknown query type: {name}"
  | .unknownField name => s!"Unknown field: {name}"
  | .kindMismatch field expected actual =>
      s!"Type mismatch on field '{field}': expected {expected.word}, got {actual.word}"
  | .valueMismatch field expected actual =>
      s!"Type mismatch on field '{field}': expected {expected.word}, got {actual.kindName}"
  | .notIndexed field => s!"Field is not indexed: {field}"
  | .notFast field => s!"Range query requires a fast field: {field}"
  | .phraseOnRawField field => s!"Phrase query on raw-tokenized field: {field}"
  | .noSearchFields => "No search fields available for full-text query"
  | .distanceTooLarge distance cap =>
      s!"Invalid parameter 'distance': {distance.toNat} exceeds the maximum of {cap.toNat}"
  | .emptyPrefix => "Invalid parameter 'prefix': must not be empty"
  | .integersCrossed min max =>
      let low := String.ofList (Json.integerText min.toInt)
      let high := String.ofList (Json.integerText max.toInt)
      s!"Invalid parameter 'min': {low} is greater than max {high}"
  | .floatsCrossed min max =>
      let low := Decimal.render Decimal.plain min
      let high := Decimal.render Decimal.plain max
      s!"Invalid parameter 'min': {low} is greater than max {high}"
  | .unsearchable fault => s!"Query parse error: {fault.message}"

end DocIndex
