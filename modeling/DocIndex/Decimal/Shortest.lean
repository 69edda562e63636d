/-!
The shortest decimal that reads back as a given binary64 number, found with exact arithmetic. A
positive finite number is `mantissa * 2 ^ exponent`; the reals that round to it form an interval
around it, whose ends belong to it when the mantissa is even. The grids of the multiples of a power
of ten are tried from coarse to fine: the first one with a point in the interval gives the fewest
digits, and of the two neighbours of the number on it the nearer one is taken.
-/

namespace DocIndex.Decimal

/-- A nonnegative decimal number `digits * 10 ^ exponent`. -/
structure Scaled where
  digits : Nat
  exponent : Int
deriving Repr, DecidableEq

/-- A positive finite binary number `mantissa * 2 ^ exponent`. -/
structure Binary where
  mantissa : Nat
  exponent : Int
  /-- The next smaller number is only half as far away as the next larger one. -/
  nearBelow : Bool
deriving Repr, DecidableEq

/-- The weight of the leading bit of a mantissa, which is not stored. -/
def hiddenBit : Nat := 4503599627370496

/-- The magnitude of a finite binary64 number by its bits; zero has the mantissa zero. -/
def Binary.ofBits (bits : Nat) : Binary :=
  let fraction : Nat := bits % hiddenBit
  let biased : Nat := bits / hiddenBit % 2048
  if biased = 0 then ⟨fraction, -1074, false⟩
  else ⟨hiddenBit + fraction, (biased : Int) - 1075, fraction = 0 && biased > 1⟩

/-- `2 ^ n` as a quotient of natural numbers. -/
def powerOfTwo : Int → Nat × Nat
  | .ofNat n => (Nat.pow 2 n, 1)
  | .negSucc n => (1, Nat.pow 2 (n + 1))

/--
The number on the grid of multiples of `10 ^ p`: a triple of the number, its lower and its upper
interval end, and the grid step, all multiplied by one common factor.
-/
def Binary.onGrid (b : Binary) (p : Int) : Nat × Nat × Nat × Nat :=
  let (num, den) := powerOfTwo (b.exponent - 2)
  let scaleUp := match p with | .ofNat _ => 1 | .negSucc n => Nat.pow 10 (n + 1)
  let step := match p with | .ofNat n => Nat.pow 10 n | .negSucc _ => 1
  let unit := num * scaleUp
  let below := if b.nearBelow then 1 else 2
  (4 * b.mantissa * unit, (4 * b.mantissa - below) * unit, (4 * b.mantissa + 2) * unit, step * den)

/-- The grid point nearest to the number among those that read back as it. -/
def Binary.hit? (b : Binary) (p : Int) : Option Nat :=
  let (value, low, high, step) := b.onGrid p
  let closed := b.mantissa % 2 = 0
  let inside (x : Nat) : Bool := if closed then low ≤ x && x ≤ high else low < x && x < high
  let lower := value / step
  let upper := lower + 1
  match inside (lower * step), inside (upper * step) with
  | true, true => some (if value - lower * step ≤ upper * step - value then lower else upper)
  | true, false => some lower
  | false, true => some upper
  | false, false => none

/-- Tries `fuel` grids downward from `10 ^ p`. -/
def Binary.search (b : Binary) : Nat → Int → Scaled
  | 0, p => ⟨b.mantissa, p⟩
  | fuel + 1, p =>
      match b.hit? p with
      | some digits => ⟨digits, p⟩
      | none => b.search fuel (p - 1)

/--
The shortest decimal for a positive number. The first grid is coarser than the number itself, and
seventeen digits always suffice, so the search ends well before its bound.
-/
def Binary.shortest (b : Binary) : Scaled :=
  let bits : Int := (Nat.log2 b.mantissa : Int) + 1 + b.exponent
  b.search 24 (bits * 30103 / 100000 + 1)

/-- The shortest decimal of the magnitude of a finite binary64 number. -/
def shortest (x : Float) : Scaled :=
  let b := Binary.ofBits x.toBits.toNat
  if b.mantissa = 0 then ⟨0, 0⟩ else b.shortest

end DocIndex.Decimal
