import DocIndex.Json.Cursor
import DocIndex.Json.Value
import DocIndex.Decimal.Scale

/-!
The literals of JSON: strings with their escapes, and numbers. Each is read once in full, giving its
value, and once only to be passed over, which checks less: a skipped string may hold an unpaired
surrogate and a skipped number may be out of range.
-/

namespace DocIndex.Json

/-- The value of a hexadecimal digit. -/
def hexDigit? (ch : Char) : Option Nat :=
  if '0' ≤ ch ∧ ch ≤ '9' then some (ch.toNat - 48)
  else if 'a' ≤ ch ∧ ch ≤ 'f' then some (ch.toNat - 87)
  else if 'A' ≤ ch ∧ ch ≤ 'F' then some (ch.toNat - 55)
  else none

/-- The number written by four hexadecimal digits. -/
def hexUnit? : List Char → Option Nat
  | a :: b :: c :: d :: _ => do
      let high := (← hexDigit? a) * 16 + (← hexDigit? b)
      return (high * 16 + (← hexDigit? c)) * 16 + (← hexDigit? d)
  | _ => none

/-- The UTF-8 length of a list of characters. -/
def byteCount (chars : List Char) : Nat :=
  (String.ofList chars).utf8ByteSize

/-- Reads the four digits of a `\u` escape: a UTF-16 unit. -/
def readUnit (c : Cursor) : Except Fault (Nat × Cursor) :=
  if byteCount c.rest < 4 then .error (c.toEnd.faultHere .endInString)
  else
    match hexUnit? c.rest with
    | some unit => .ok (unit, c.skip 4)
    | none => .error (Cursor.faultAfterBytes .invalidEscape 4 c.rest c.line c.column)

/-- Reads one character that an escape requires. -/
def expectInEscape (expected : Char) (c : Cursor) : Except Fault Cursor :=
  match c.rest with
  | [] => .error (c.faultHere .endInString)
  | ch :: _ => if ch = expected then .ok c.next else .error (c.faultAtNext .endOfHexEscape)

/-- Reads what follows `\u`: one UTF-16 unit, or a surrogate pair in two escapes. -/
def readUnicodeEscape (c : Cursor) : Except Fault (Char × Cursor) := do
  let (lead, c) ← readUnit c
  if 0xDC00 ≤ lead ∧ lead ≤ 0xDFFF then
    .error (c.faultHere .loneSurrogate)
  else if lead < 0xD800 ∨ 0xDBFF < lead then
    .ok (Char.ofNat lead, c)
  else
    let c ← expectInEscape '\\' c
    let c ← expectInEscape 'u' c
    let (trail, c) ← readUnit c
    if trail < 0xDC00 ∨ 0xDFFF < trail then
      .error (c.faultHere .loneSurrogate)
    else
      .ok (Char.ofNat ((lead - 0xD800) * 1024 + (trail - 0xDC00) + 0x10000), c)

/-- The character that a one-letter escape stands for. -/
def simpleEscape? : Char → Option Char
  | '"' => some '"'
  | '\\' => some '\\'
  | '/' => some '/'
  | 'b' => some '\x08'
  | 'f' => some '\x0c'
  | 'n' => some '\n'
  | 'r' => some '\r'
  | 't' => some '\t'
  | _ => none

/-- Reads what follows a backslash. -/
def readEscape (c : Cursor) : Except Fault (Char × Cursor) :=
  match c.rest with
  | [] => .error (c.faultHere .endInString)
  | ch :: _ =>
      match simpleEscape? ch with
      | some value => .ok (value, c.next)
      | none =>
          if ch = 'u' then readUnicodeEscape c.next
          else .error (c.faultAtNext .invalidEscape)

/-- The rest of a string up to its closing quote; `read` holds the characters so far, last first. -/
def readStringRest : Nat → List Char → Cursor → Except Fault (String × Cursor)
  | 0, _, c => .error (c.faultHere .endInString)
  | fuel + 1, read, c =>
      match c.rest with
      | [] => .error (c.faultHere .endInString)
      | ch :: _ =>
          if ch = '"' then .ok (String.ofList read.reverse, c.next)
          else if ch = '\\' then
            match readEscape c.next with
            | .ok (value, c) => readStringRest fuel (value :: read) c
            | .error fault => .error fault
          else if ch.toNat < 0x20 then .error (c.faultAtNext .controlCharacter)
          else readStringRest fuel (ch :: read) c.next

/-- Reads a string whose opening quote has been read. -/
def readString (c : Cursor) : Except Fault (String × Cursor) :=
  readStringRest (c.rest.length + 1) [] c

/-- Passes over what follows a backslash. -/
def skipEscape (c : Cursor) : Except Fault Cursor :=
  match c.rest with
  | [] => .error (c.faultHere .endInString)
  | ch :: _ =>
      match simpleEscape? ch with
      | some _ => .ok c.next
      | none =>
          if ch = 'u' then (readUnit c.next).map (·.2)
          else .error (c.faultAtNext .invalidEscape)

def skipStringRest : Nat → Cursor → Except Fault Cursor
  | 0, c => .error (c.faultHere .endInString)
  | fuel + 1, c =>
      match c.rest with
      | [] => .error (c.faultHere .endInString)
      | ch :: _ =>
          if ch = '"' then .ok c.next
          else if ch = '\\' then
            match skipEscape c.next with
            | .ok c => skipStringRest fuel c
            | .error fault => .error fault
          else if ch.toNat < 0x20 then .error (c.faultAtNext .controlCharacter)
          else skipStringRest fuel c.next

/-- Passes over a string whose opening quote has been read. -/
def skipString (c : Cursor) : Except Fault Cursor :=
  skipStringRest (c.rest.length + 1) c

def readDigits (c : Cursor) : List Nat × Cursor :=
  let digits := c.rest.takeWhile Char.isDigit
  (digits.map (fun ch => ch.toNat - 48), c.skip digits.length)

/-- Reads the digits before the point: at least one, and no superfluous leading zero. -/
def readWhole (c : Cursor) : Except Fault (List Nat × Cursor) :=
  match c.rest with
  | [] => .error (c.faultHere .endInValue)
  | '0' :: ch :: _ =>
      if ch.isDigit then .error (c.next.faultAtNext .invalidNumber) else .ok ([0], c.next)
  | ch :: _ =>
      if ch.isDigit then .ok (readDigits c) else .error (c.faultAtNext .invalidNumber)

/-- Reads a point and the digits after it, if a point stands here. -/
def readFraction? (c : Cursor) : Except Fault (Option (List Nat) × Cursor) :=
  match c.rest with
  | '.' :: _ =>
      match readDigits c.next with
      | ([], c) =>
          match c.rest with
          | [] => .error (c.faultHere .endInValue)
          | _ :: _ => .error (c.faultAtNext .invalidNumber)
      | (digits, c) => .ok (some digits, c)
  | _ => .ok (none, c)

/--
A written exponent: a value, or one beyond the 32-bit numbers and the place where that showed.
-/
inductive Exponent where
  | value (n : Int)
  | huge (isNegative : Bool) (place : Cursor)
deriving Repr

/-- Gathers the digits of an exponent; `none` with the place once they exceed 32 bits. -/
def gatherExponent : Nat → List Nat → Cursor → Except Cursor Nat
  | n, [], _ => .ok n
  | n, digit :: rest, c =>
      if n * 10 + digit < 2147483648 then gatherExponent (n * 10 + digit) rest c.next
      else .error c.next

/-- Whether this character introduces an exponent. -/
def isExponentMark (ch : Char) : Bool :=
  ch = 'e' || ch = 'E'

/-- Reads the sign of an exponent, if one stands here. -/
def readSign (c : Cursor) : Bool × Cursor :=
  match c.rest with
  | '+' :: _ => (false, c.next)
  | '-' :: _ => (true, c.next)
  | _ => (false, c)

def readExponent? (c : Cursor) : Except Fault (Option Exponent × Cursor) :=
  match c.rest with
  | [] => .ok (none, c)
  | mark :: _ =>
      if isExponentMark mark then
        let (isNegative, c) := readSign c.next
        match c.rest with
        | [] => .error (c.faultHere .endInValue)
        | ch :: _ =>
            if ch.isDigit then
              let (digits, after) := readDigits c
              match gatherExponent 0 digits c with
              | .ok n => .ok (some (.value (if isNegative then -(n : Int) else n)), after)
              | .error place => .ok (some (.huge isNegative place), after)
            else .error (c.faultAtNext .invalidNumber)
      else .ok (none, c)

/-- The value of a literal with a fraction, an exponent, or more digits than an integer can hold. -/
def floatValue (isNegative : Bool) (whole fraction : List Nat) (exponent : Option Exponent)
    (after : Cursor) : Except Fault Json :=
  let (significand, wholeTaken) := Decimal.gather 0 whole
  let (significand, fractionTaken) := Decimal.gather significand fraction
  let start : Int := (whole.length : Int) - wholeTaken - fractionTaken
  let signed (x : Float) : Json := .float (if isNegative then -x else x)
  let scaled (n : Int) : Except Fault Json :=
    match Decimal.scale significand n with
    | some x => .ok (signed x)
    | none => .error (after.faultHere .numberOutOfRange)
  match exponent with
  | none => scaled start
  | some (.value n) => scaled (start + n)
  | some (.huge expNegative place) =>
      if significand ≠ 0 ∧ !expNegative then .error (place.faultHere .numberOutOfRange)
      else .ok (signed 0)

def ofDigits (digits : List Nat) : Nat :=
  digits.foldl (fun n digit => n * 10 + digit) 0

/-- The value of a literal that is all digits, if it is an integer of 64 bits; `-0` is none. -/
def integerValue? (isNegative : Bool) (digits : List Nat) : Option Int :=
  let n := ofDigits digits
  if isNegative then if n = 0 ∨ signWeight < n then none else some (-(n : Int))
  else if n < UInt64.size then some n
  else none

/-- Reads a number whose minus sign, if any, has been read. -/
def readNumber (isNegative : Bool) (c : Cursor) : Except Fault (Json × Cursor) := do
  let (whole, c) ← readWhole c
  let (fraction, c) ← readFraction? c
  let (exponent, c) ← readExponent? c
  match fraction, exponent, integerValue? isNegative whole with
  | none, none, some n => .ok (.integer n, c)
  | _, _, _ => do
      let value ← floatValue isNegative whole (fraction.getD []) exponent c
      .ok (value, c)

/-- Passes over a number whose minus sign, if any, has been read. -/
def skipNumber (c : Cursor) : Except Fault Cursor := do
  let c ←
    match c.rest with
    | '0' :: ch :: _ =>
        if ch.isDigit then .error (c.next.faultAtNext .invalidNumber) else .ok c.next
    | ch :: _ =>
        if ch.isDigit then .ok (readDigits c).2 else .error (c.faultAtNext .invalidNumber)
    | [] => .error (c.faultHere .invalidNumber)
  let c ←
    match c.rest with
    | '.' :: _ =>
        match readDigits c.next with
        | ([], c) => .error (c.faultAtNext .invalidNumber)
        | (_, c) => .ok c
    | _ => .ok c
  match c.rest with
  | [] => .ok c
  | mark :: _ =>
      if isExponentMark mark then
        let (_, c) := readSign c.next
        match readDigits c with
        | ([], c) => .error (c.faultAtNext .invalidNumber)
        | (_, c) => .ok c
      else .ok c

end DocIndex.Json
