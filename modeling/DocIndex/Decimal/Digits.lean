/-!
The numbers that decimal digits stand for.
-/

namespace DocIndex.Decimal

def digitsValue (digits : List Char) : Nat :=
  digits.foldl (fun n ch => n * 10 + (ch.toNat - '0'.toNat)) 0

end DocIndex.Decimal
