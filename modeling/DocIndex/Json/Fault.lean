/-!
Where and why a text is not JSON. A fault names the line (from 1) and the column, counted in bytes
since the last line feed.
-/

namespace DocIndex.Json

/-- The ways in which a text fails to be JSON. -/
inductive FaultKind where
  | endInValue
  | endInObject
  | endInList
  | endInString
  | expectedValue
  | expectedIdent
  | expectedColon
  | expectedObjectCommaOrEnd
  | expectedListCommaOrEnd
  | keyMustBeString
  | trailingComma
  | trailingCharacters
  | depthExceeded
  | invalidNumber
  | numberOutOfRange
  | controlCharacter
  | invalidEscape
  | loneSurrogate
  | endOfHexEscape
deriving Repr, DecidableEq

def FaultKind.message : FaultKind → String
  | .endInValue => "EOF while parsing a value"
  | .endInObject => "EOF while parsing an object"
  | .endInList => "EOF while parsing a list"
  | .endInString => "EOF while parsing a string"
  | .expectedValue => "expected value"
  | .expectedIdent => "expected ident"
  | .expectedColon => "expected `:`"
  | .expectedObjectCommaOrEnd => "expected `,` or `\x7d`"
  | .expectedListCommaOrEnd => "expected `,` or `]`"
  | .keyMustBeString => "key must be a string"
  | .trailingComma => "trailing comma"
  | .trailingCharacters => "trailing characters"
  | .depthExceeded => "recursion limit exceeded"
  | .invalidNumber => "invalid number"
  | .numberOutOfRange => "number out of range"
  | .controlCharacter => "control character (\\u0000-\\u001F) found while parsing a string"
  | .invalidEscape => "invalid escape"
  | .loneSurrogate => "lone leading surrogate in hex escape"
  | .endOfHexEscape => "unexpected end of hex escape"

/-- A kind of fault and the place at which reading stopped. -/
structure Fault where
  kind : FaultKind
  line : Nat
  column : Nat
deriving Repr, DecidableEq

/-- The wording of a fault with its place. -/
def Fault.message (fault : Fault) : String :=
  s!"{fault.kind.message} at line {fault.line} column {fault.column}"

end DocIndex.Json
