/-!
The binary64 number nearest to a decimal number.
-/

namespace DocIndex.Decimal

/-- The nearest binary64 number to `digits * 10 ^ exponent`; infinite beyond the finite numbers. -/
def nearest (digits : Nat) (exponent : Int) : Float :=
  let magnitude := exponent + (Nat.toDigits 10 digits).length
  if digits = 0 ∨ magnitude < -400 then 0
  else if 400 < magnitude then 1.0 / 0.0
  else Float.ofScientific digits (exponent < 0) exponent.natAbs

end DocIndex.Decimal
