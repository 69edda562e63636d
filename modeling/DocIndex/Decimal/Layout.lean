import DocIndex.Decimal.Shortest
import DocIndex.Word

/-!
How a decimal number is written out: positionally (`0.025`, `1500.0`) or with an exponent (`2.5e-7`,
`1e+16`). What differs between the places where numbers are written is kept in one record.
-/

namespace DocIndex.Decimal

/-- The choices of one way to write numbers. -/
structure Layout where
  /-- The exponents of the leading digit that are written positionally. -/
  isPositional : Int → Bool
  /-- Whole numbers keep a point and a zero. -/
  keepsPoint : Bool

/-- The digits of a natural number. -/
def digitChars (n : Nat) : List Char :=
  Nat.toDigits 10 n

/-- Digits with the point `pointAt` places after their start; zeros fill what is missing. -/
def positional (digits : List Char) (pointAt : Int) (keepsPoint : Bool) : List Char :=
  match pointAt with
  | .negSucc n => '0' :: '.' :: List.replicate (n + 1) '0' ++ digits
  | .ofNat 0 => '0' :: '.' :: digits
  | .ofNat n =>
      if digits.length ≤ n then
        digits ++ List.replicate (n - digits.length) '0'
          ++ (if keepsPoint then ['.', '0'] else [])
      else digits.take n ++ '.' :: digits.drop n

/-- Digits with a point after the first one, and the exponent of the leading digit. -/
def scientific (digits : List Char) (exponent : Int) : List Char :=
  let mantissa :=
    match digits with
    | lead :: second :: rest => lead :: '.' :: second :: rest
    | _ => digits
  let sign := if exponent < 0 then '-' else '+'
  mantissa ++ 'e' :: sign :: digitChars exponent.natAbs

/-- A nonnegative decimal number in a layout. -/
def Scaled.render (layout : Layout) (n : Scaled) : List Char :=
  let digits := digitChars n.digits
  let lead := n.exponent + digits.length - 1
  if n.digits = 0 then positional ['0'] 1 layout.keepsPoint
  else if layout.isPositional lead then positional digits (lead + 1) layout.keepsPoint
  else scientific digits lead

/-- A finite binary64 number by its shortest decimal; negative zero keeps its sign. -/
def render (layout : Layout) (x : Float) : String :=
  let text := (shortest x).render layout
  String.ofList (if x.toBits.toNat < signWeight then text else '-' :: text)

/-- Always positional, and whole numbers without a point: `1000000000000000000000`, `0.0000001`. -/
def plain : Layout where
  isPositional := fun _ => true
  keepsPoint := false

end DocIndex.Decimal
