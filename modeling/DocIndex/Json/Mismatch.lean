import DocIndex.Json.Writer
import DocIndex.Json.Fault
import DocIndex.Text.Quoted

/-!
Why JSON that is well formed does not have the shape that is asked for.
-/

namespace DocIndex.Json

/-- What was found in place of what was expected; the content of containers is not shown. -/
def describe : Json → String
  | .null => "null"
  | .bool b => s!"boolean `{b}`"
  | .integer n => s!"integer `{String.ofList (integerText n)}`"
  | .float x => s!"floating point `{String.ofList (floatText x)}`"
  | .string s => s!"string {Text.quoted s}"
  | .array _ => "sequence"
  | .object _ => "map"

/-- The ways in which a value misses the expected shape. -/
inductive Mismatch where
  | missingField (name : String)
  | duplicateField (name : String)
  | unknownVariant (name : String) (allowed : List String)
  | wrongType (found : Json) (expected : String)
  | wrongValue (found : Json) (expected : String)
  | wrongLength (length : Nat) (expected : String)
deriving Repr

def Mismatch.message : Mismatch → String
  | .missingField name => s!"missing field `{name}`"
  | .duplicateField name => s!"duplicate field `{name}`"
  | .unknownVariant name allowed =>
      let names := ", ".intercalate (allowed.map fun word => s!"`{word}`")
      s!"unknown variant `{name}`, expected one of {names}"
  | .wrongType found expected => s!"invalid type: {describe found}, expected {expected}"
  | .wrongValue found expected => s!"invalid value: {describe found}, expected {expected}"
  | .wrongLength length expected => s!"invalid length {length}, expected {expected}"

/-- Why a text does not decode: it is not JSON, or not of the expected shape. -/
inductive DecodeFault where
  | unreadable (fault : Fault)
  | misshapen (mismatch : Mismatch)
deriving Repr

/-- The wording of a decoding fault, without a place. -/
def DecodeFault.message : DecodeFault → String
  | .unreadable fault => fault.kind.message
  | .misshapen mismatch => mismatch.message

def orUnreadable {α : Type} : Except Fault α → Except DecodeFault α
  | .ok a => .ok a
  | .error fault => .error (.unreadable fault)

def orMisshapen {α : Type} : Except Mismatch α → Except DecodeFault α
  | .ok a => .ok a
  | .error mismatch => .error (.misshapen mismatch)

end DocIndex.Json
