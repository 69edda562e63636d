/-!
From decimal digits to a binary64 number. The digits are gathered into a 64-bit significand, and the
power of ten is applied by one multiplication or division by an exact table value. The result is
not always the nearest binary64 number: each of these steps rounds, and digits that no longer fit
the significand are dropped.
-/

namespace DocIndex.Decimal

/--
Gathers digits into a significand until the next one would no longer fit 64 bits. Gives the
significand and the number of digits taken.
-/
def gather (significand : Nat) : List Nat → Nat × Nat
  | [] => (significand, 0)
  | digit :: rest =>
      if significand * 10 + digit < UInt64.size then
        let (total, taken) := gather (significand * 10 + digit) rest
        (total, taken + 1)
      else (significand, 0)

/-- The binary64 number nearest to `10 ^ n`. -/
def powerOfTen (n : Nat) : Float :=
  Float.ofScientific 1 false n

/--
`x / 10 ^ n` in steps of at most `10 ^ 308`. The significand is below `2 ^ 64`, so from the third
step on the quotient is zero.
-/
def shrink (x : Float) (n : Nat) : Float :=
  if n ≤ 308 then x / powerOfTen n
  else if n ≤ 616 then x / powerOfTen 308 / powerOfTen (n - 308)
  else 0

/-- `x * 10 ^ n`, or `none` beyond the finite numbers. -/
def grow (x : Float) (n : Nat) : Option Float :=
  if n ≤ 308 then
    let y := x * powerOfTen n
    if y.isInf then none else some y
  else if x == 0 then some x
  else none

/-- A 64-bit significand times a power of ten, or `none` beyond the finite numbers. -/
def scale (significand : Nat) (exponent : Int) : Option Float :=
  let x := (UInt64.ofNat significand).toFloat
  match exponent with
  | .ofNat n => grow x n
  | .negSucc n => some (shrink x (n + 1))

end DocIndex.Decimal
