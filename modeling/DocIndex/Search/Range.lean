import DocIndex.Document.Value

/-!
Ranges of values. Strings are ordered by their characters, integers as usual, and floats by sign and
then by size, so that `-0.0` comes right before `0.0`. Values of different kinds are not comparable.
-/

namespace DocIndex

/-- The place of a float among all floats. -/
def floatRank (x : Float) : Nat :=
  let bits := x.toBits.toNat
  if bits < signWeight then bits + signWeight else UInt64.size - 1 - bits

/-- Tells whether a value is not after another one of its kind. -/
def FieldValue.atMost : FieldValue → FieldValue → Bool
  | .text a, .text b => a ≤ b
  | .i64 a, .i64 b => a ≤ b
  | .f64 a, .f64 b => floatRank a ≤ floatRank b
  | _, _ => false

/-- One end of a range. -/
inductive Bound where
  | unbounded
  | included (value : FieldValue)
  | excluded (value : FieldValue)
deriving Repr, DecidableEq

/-- The values between two ends. -/
structure ValueRange where
  lower : Bound
  upper : Bound
deriving Repr, DecidableEq

def ValueRange.holds (range : ValueRange) (value : FieldValue) : Bool :=
  let above :=
    match range.lower with
    | .unbounded => true
    | .included low => low.atMost value
    | .excluded low => low.atMost value && value ≠ low
  let below :=
    match range.upper with
    | .unbounded => true
    | .included high => value.atMost high
    | .excluded high => value.atMost high && value ≠ high
  above && below

/-- The range between two values, both of which belong to it. -/
def ValueRange.between (lower upper : FieldValue) : ValueRange :=
  ⟨.included lower, .included upper⟩

/-- The integers between two bounds; one that is left out is the last integer on its side. -/
def ValueRange.integers (min max : Option Int64) : ValueRange :=
  between (.i64 (min.getD Int64.minValue)) (.i64 (max.getD Int64.maxValue))

/-- The float above all numbers. -/
def infinity : Float := 1.0 / 0.0

/-- The floats between two bounds; one that is left out is the infinity on its side. -/
def ValueRange.floats (min max : Option Float) : ValueRange :=
  between (.f64 (min.getD (-infinity))) (.f64 (max.getD infinity))

end DocIndex
