/-!
Integers of 64 bits.
-/

namespace DocIndex

/-- The weight of the highest of 64 bits; signed integers are at least its negative and below it. -/
abbrev signWeight : Nat := 9223372036854775808

end DocIndex
