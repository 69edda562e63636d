import DocIndex.Toml.Table
import DocIndex.Word

/-!
The scalars of TOML that are written without quotes: booleans, integers, floats, dates and times.
Each is recognised from its whole spelling.
-/

namespace DocIndex.Toml

/-- Splits digits at single underscores that stand between two of them. -/
def digitsOf (isDigit : Char → Bool) : List Char → Option (List Char)
  | [] => none
  | [ch] => if isDigit ch then some [ch] else none
  | ch :: '_' :: rest => if isDigit ch then (digitsOf isDigit rest).map (ch :: ·) else none
  | ch :: rest => if isDigit ch then (digitsOf isDigit rest).map (ch :: ·) else none

/-- The value of a digit of any base up to sixteen. -/
def digitValue (ch : Char) : Nat :=
  if ch.isDigit then ch.toNat - 48
  else if 'a' ≤ ch ∧ ch ≤ 'f' then ch.toNat - 87
  else ch.toNat - 55

def numberOf (base : Nat) (digits : List Char) : Nat :=
  digits.foldl (fun n ch => n * base + digitValue ch) 0

def isDigitOf (base : Nat) (ch : Char) : Bool :=
  if base = 16 then ch.isDigit || ('a' ≤ ch && ch ≤ 'f') || ('A' ≤ ch && ch ≤ 'F')
  else ch.isDigit && digitValue ch < base

/-- Decimal digits without a superfluous leading zero. -/
def decimalDigits (chars : List Char) : Option (List Char) := do
  let digits ← digitsOf Char.isDigit chars
  match digits with
  | '0' :: _ :: _ => none
  | _ => some digits

/-- Takes a sign off the front: whether it is a minus, and the rest. -/
def splitSign : List Char → Bool × List Char
  | '-' :: rest => (true, rest)
  | '+' :: rest => (false, rest)
  | chars => (false, chars)

/-- Accepts integers of 64 signed bits. -/
def inRange (n : Int) : Option Value :=
  if -(signWeight : Int) ≤ n ∧ n < (signWeight : Int) then some (.integer n) else none

/-- An integer in a base that is given by a letter after a zero. -/
def basedInteger (base : Nat) (chars : List Char) : Option Value := do
  let digits ← digitsOf (isDigitOf base) chars
  inRange (numberOf base digits)

def integer? : List Char → Option Value
  | '0' :: 'x' :: rest => basedInteger 16 rest
  | '0' :: 'o' :: rest => basedInteger 8 rest
  | '0' :: 'b' :: rest => basedInteger 2 rest
  | chars => do
      let (isNegative, chars) := splitSign chars
      let digits ← decimalDigits chars
      let n : Int := numberOf 10 digits
      inRange (if isNegative then -n else n)

/--
Takes the characters up to the first one that satisfies a condition, and the rest from there on.
-/
def splitAt (stops : Char → Bool) (chars : List Char) : List Char × List Char :=
  (chars.takeWhile (!stops ·), chars.dropWhile (!stops ·))

/-- An exponent as written, with the letter before it; nothing means zero. -/
def exponent? : List Char → Option Int
  | [] => some 0
  | _ :: chars => do
      let (isNegative, chars) := splitSign chars
      let digits ← digitsOf Char.isDigit chars
      let n : Int := numberOf 10 digits
      return if isNegative then -n else n

/-- The digits of a fraction as written, with the point before them. -/
def fraction? : List Char → Option (List Char)
  | [] => some []
  | _ :: chars => digitsOf Char.isDigit chars

/-- Tells whether a number is beyond the finite binary64 numbers. -/
def isBeyondFloats (digits : List Char) (exponent : Int) : Bool :=
  let n := numberOf 10 digits
  let size := exponent + (Nat.toDigits 10 n).length
  if n = 0 ∨ size < 300 then false
  else if 320 < size then true
  else (Float.ofScientific n (exponent < 0) exponent.natAbs).isInf

/-- A float; a positive number beyond the finite ones is refused. -/
def float? (chars : List Char) : Option Value := do
  let written := String.ofList chars
  let (isNegative, unsigned) := splitSign chars
  if unsigned = ['i', 'n', 'f'] ∨ unsigned = ['n', 'a', 'n'] then some (.float written)
  else
    let isMark (ch : Char) : Bool := ch = 'e' || ch = 'E'
    let (mantissa, exponent) := splitAt isMark unsigned
    let (whole, fraction) := splitAt (· = '.') mantissa
    if fraction.isEmpty ∧ exponent.isEmpty then none
    else
      let whole ← decimalDigits whole
      let fraction ← fraction? fraction
      let exponent ← exponent? exponent
      if !isNegative ∧ isBeyondFloats (whole ++ fraction) (exponent - fraction.length) then none
      else some (.float written)

/-- The number of exactly `n` digits at the front, and the rest. -/
def takeNumber (n : Nat) (chars : List Char) : Option (Nat × List Char) :=
  let digits := chars.take n
  if digits.length = n ∧ digits.all Char.isDigit then some (numberOf 10 digits, chars.drop n)
  else none

/-- Takes a character off the front. -/
def takeChar (expected : Char) : List Char → Option (List Char)
  | ch :: rest => if ch = expected then some rest else none
  | [] => none

def daysIn (year month : Nat) : Nat :=
  if month = 2 then
    if year % 4 = 0 ∧ (year % 100 ≠ 0 ∨ year % 400 = 0) then 29 else 28
  else if month = 4 ∨ month = 6 ∨ month = 9 ∨ month = 11 then 30
  else 31

/-- Takes a date off the front. -/
def takeDate (chars : List Char) : Option (List Char) := do
  let (year, chars) ← takeNumber 4 chars
  let (month, chars) ← takeNumber 2 (← takeChar '-' chars)
  let (day, chars) ← takeNumber 2 (← takeChar '-' chars)
  if 1 ≤ month ∧ month ≤ 12 ∧ 1 ≤ day ∧ day ≤ daysIn year month then some chars else none

/-- Takes hours and minutes off the front. -/
def takeHourMinute (chars : List Char) : Option (List Char) := do
  let (hour, chars) ← takeNumber 2 chars
  let (minute, chars) ← takeNumber 2 (← takeChar ':' chars)
  if hour ≤ 23 ∧ minute ≤ 59 then some chars else none

/-- Takes a time of day off the front. -/
def takeClock (chars : List Char) : Option (List Char) := do
  let chars ← takeHourMinute chars
  let (second, chars) ← takeNumber 2 (← takeChar ':' chars)
  if 60 < second then none
  else
    match chars with
    | '.' :: ch :: rest => if ch.isDigit then some (rest.dropWhile Char.isDigit) else none
    | _ => some chars

/-- Accepts a distance from universal time, or nothing. -/
def isOffset : List Char → Bool
  | [] => true
  | ['Z'] | ['z'] => true
  | '+' :: rest | '-' :: rest => takeHourMinute rest = some []
  | _ => false

/-- Tells whether a spelling begins with a date that ends there. -/
def isDate (chars : List Char) : Bool :=
  takeDate chars = some []

/-- A date, a time, or both. -/
def time? (chars : List Char) : Option Value :=
  let accepted :=
    match takeDate chars with
    | some [] => true
    | some (mark :: rest) =>
        if mark = 'T' ∨ mark = 't' ∨ mark = ' ' then
          match takeClock rest with
          | some rest => isOffset rest
          | none => false
        else false
    | none => takeClock chars = some []
  if accepted then some (.time (String.ofList chars)) else none

/-- A scalar from its whole spelling. -/
def scalar? (chars : List Char) : Option Value :=
  if chars = ['t', 'r', 'u', 'e'] then some (.boolean true)
  else if chars = ['f', 'a', 'l', 's', 'e'] then some (.boolean false)
  else (time? chars).or ((float? chars).or (integer? chars))

end DocIndex.Toml
