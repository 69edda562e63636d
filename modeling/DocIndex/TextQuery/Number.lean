import DocIndex.Decimal.Digits
import DocIndex.Decimal.Nearest
import DocIndex.Query.Error

/-!
Numbers in the text query language: integers of 64 signed bits, and floats with an optional fraction
and exponent or one of the words for infinity and for no number.
-/

namespace DocIndex.TextQuery

/-- Takes a sign off the front; tells whether it is a minus. -/
def signed : List Char → Bool × List Char
  | '-' :: rest => (true, rest)
  | '+' :: rest => (false, rest)
  | chars => (false, chars)

/-- Reads digits one by one as long as the number does not exceed a bound. -/
def boundedNumber (bound : Nat) (above : IntegerFault) (n : Nat) :
    List Char → Except IntegerFault Nat
  | [] => .ok n
  | ch :: rest =>
      if !ch.isDigit then .error .invalidDigit
      else
        let m := n * 10 + (ch.toNat - '0'.toNat)
        if bound < m then .error above else boundedNumber bound above m rest

def integer (text : String) : Except IntegerFault Int64 :=
  if text = "" then .error .empty
  else
    match signed text.toList with
    | (_, []) => .error .invalidDigit
    | (true, digits) =>
        (boundedNumber signWeight .belowRange 0 digits).map fun n => Int64.ofInt (-n)
    | (false, digits) =>
        (boundedNumber (signWeight - 1) .aboveRange 0 digits).map fun n => Int64.ofNat n

/-- The exponent of a float, with the letter before it; nothing means zero. -/
def exponentValue? : List Char → Option Int
  | [] => some 0
  | ch :: rest =>
      if ch = 'e' ∨ ch = 'E' then
        let (negative, digits) := signed rest
        if digits.isEmpty ∨ !digits.all Char.isDigit then none
        else
          let n : Int := Decimal.digitsValue digits
          some (if negative then -n else n)
      else none

/-- A float without its sign. -/
def unsignedFloat? (chars : List Char) : Option Float :=
  let word := String.ofList (chars.map Char.toLower)
  if word = "inf" ∨ word = "infinity" then some (1.0 / 0.0)
  else if word = "nan" then some (0.0 / 0.0)
  else
    let whole := chars.takeWhile Char.isDigit
    let rest := chars.drop whole.length
    let (fraction, rest) :=
      match rest with
      | '.' :: rest =>
          let fraction := rest.takeWhile Char.isDigit
          (fraction, rest.drop fraction.length)
      | rest => ([], rest)
    let digits := whole ++ fraction
    if digits.isEmpty then none
    else
      (exponentValue? rest).map fun exponent =>
        Decimal.nearest (Decimal.digitsValue digits) (exponent - fraction.length)

def float? (text : String) : Option Float :=
  let (negative, rest) := signed text.toList
  (unsignedFloat? rest).map fun x => if negative then -x else x

end DocIndex.TextQuery
