import DocIndex.Schema.Definition

/-!
The typed values that fields hold, and how a JSON value becomes one: a string for a text field, an
integer of 64 signed bits for an integer field, and any number for a float field.
-/

namespace DocIndex

/-- The value of a field. -/
inductive FieldValue where
  | text (value : String)
  | i64 (value : Int64)
  | f64 (value : Float)
deriving Repr, DecidableEq

namespace FieldValue

def kind : FieldValue → FieldKind
  | .text _ => .text
  | .i64 _ => .i64
  | .f64 _ => .f64

def toJson : FieldValue → Json
  | .text s => .string s
  | .i64 n => .integer n.toInt
  | .f64 x => .ofFloat x

/-- The value as a field of some kind shows it; a value of another kind is passed over. -/
def shown? (kind : FieldKind) (value : FieldValue) : Option Json :=
  if value.kind = kind then some value.toJson else none

end FieldValue

namespace Json

/-- The integer of a value, if it is one of 64 signed bits. -/
def int64? : Json → Option Int64
  | .integer n =>
      if -(signWeight : Int) ≤ n ∧ n < (signWeight : Int) then some (Int64.ofInt n) else none
  | _ => none

/-- The binary64 number nearest to an integer of 64 bits, signed or not. -/
def floatOfInteger : Int → Float
  | .ofNat n => (UInt64.ofNat n).toFloat
  | .negSucc n => -(UInt64.ofNat (n + 1)).toFloat

def float? : Json → Option Float
  | .integer n => some (floatOfInteger n)
  | .float x => some x
  | _ => none

end Json

/-- The value that a JSON value means for a field of some kind; `null` means none. -/
def FieldValue.ofJson? (kind : FieldKind) (json : Json) : Option FieldValue :=
  match kind, json with
  | .text, .string s => some (.text s)
  | .i64, json => json.int64?.map .i64
  | .f64, json => json.float?.map .f64
  | _, _ => none

end DocIndex
