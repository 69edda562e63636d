import DocIndex.Toml.Scalar

/-!
Reading TOML documents. A text that breaks a rule of the format gives nothing; what is wrong with it
is not told. The functions recurse on a bound that starts above the number of steps a text can need.
-/

namespace DocIndex.Toml

/-- What is left of the text. -/
abbrev Rest := List Char

/-- Passes over spaces and tabs. -/
def skipSpaces (chars : Rest) : Rest :=
  chars.dropWhile fun ch => ch = ' ' || ch = '\t'

/-- A character that may stand in a comment. -/
def isCommentChar (ch : Char) : Bool :=
  ch = '\t' || (0x20 ≤ ch.toNat && ch.toNat ≠ 0x7F)

/-- Passes over a comment, if one starts here. -/
def skipComment : Rest → Rest
  | '#' :: rest => rest.dropWhile isCommentChar
  | chars => chars

def lineEnd? : Rest → Option Rest
  | [] => some []
  | '\n' :: rest => some rest
  | '\r' :: '\n' :: rest => some rest
  | _ => none

/-- Reads what may follow on a line that is complete. -/
def finishLine? (chars : Rest) : Option Rest :=
  lineEnd? (skipComment (skipSpaces chars))

/-- Passes over spaces, comments and line ends within a list. -/
def skipGap : Nat → Rest → Rest
  | 0, chars => chars
  | fuel + 1, chars =>
      let chars := skipSpaces chars
      match chars with
      | '#' :: _ =>
          match skipComment chars with
          | '\n' :: rest => skipGap fuel rest
          | '\r' :: '\n' :: rest => skipGap fuel rest
          | rest => rest
      | '\n' :: rest => skipGap fuel rest
      | '\r' :: '\n' :: rest => skipGap fuel rest
      | _ => chars

/-- The character of a code point, if it is one. -/
def scalarValue? (n : Nat) : Option Char :=
  if n < 0xD800 ∨ (0xE000 ≤ n ∧ n < 0x110000) then some (Char.ofNat n) else none

def codePoint? (n : Nat) (chars : Rest) : Option (Char × Rest) := do
  let digits := chars.take n
  if digits.length = n ∧ digits.all (isDigitOf 16) then
    let ch ← scalarValue? (numberOf 16 digits)
    return (ch, chars.drop n)
  else none

/-- Reads what follows a backslash. -/
def escape? : Rest → Option (Char × Rest)
  | 'b' :: rest => some ('\x08', rest)
  | 't' :: rest => some ('\t', rest)
  | 'n' :: rest => some ('\n', rest)
  | 'f' :: rest => some ('\x0c', rest)
  | 'r' :: rest => some ('\r', rest)
  | '"' :: rest => some ('"', rest)
  | '\\' :: rest => some ('\\', rest)
  | 'u' :: rest => codePoint? 4 rest
  | 'U' :: rest => codePoint? 8 rest
  | _ => none

/-- A character that may stand in a string as it is. -/
def isPlainChar (ch : Char) : Bool :=
  isCommentChar ch

/-- Reads the rest of a string in double quotes; `read` holds the characters so far, last first. -/
def basicRest : Nat → List Char → Rest → Option (String × Rest)
  | 0, _, _ => none
  | fuel + 1, read, chars =>
      match chars with
      | '"' :: rest => some (String.ofList read.reverse, rest)
      | '\\' :: rest => do
          let (ch, rest) ← escape? rest
          basicRest fuel (ch :: read) rest
      | ch :: rest => if isPlainChar ch then basicRest fuel (ch :: read) rest else none
      | [] => none

/-- Reads the rest of a string in single quotes. -/
def literalRest (chars : Rest) : Option (String × Rest) :=
  let body := chars.takeWhile fun ch => ch ≠ '\'' && isPlainChar ch
  match chars.drop body.length with
  | '\'' :: rest => some (String.ofList body, rest)
  | _ => none

/-- The number of quotes at the front. -/
def countQuotes (quote : Char) (chars : Rest) : Nat :=
  (chars.takeWhile (· = quote)).length

/--
Quotes within a string of several lines: three or more close it, and up to two more belong to it.
Gives the number of quotes that belong to the string, and the rest if it is closed.
-/
def quoteRun (quote : Char) (chars : Rest) : Nat × Option Rest :=
  let n := min (countQuotes quote chars) 5
  if n < 3 then (n, none) else (n - 3, some (chars.drop n))

/-- Passes over the blanks and line ends after a backslash at the end of a line. -/
def continueLine? (chars : Rest) : Option Rest :=
  match skipSpaces chars with
  | '\n' :: rest | '\r' :: '\n' :: rest =>
      some (rest.dropWhile fun ch => ch = ' ' || ch = '\t' || ch = '\n' || ch = '\r')
  | _ => none

/-- Reads the rest of a string of several lines in double quotes. -/
def basicLines : Nat → List Char → Rest → Option (String × Rest)
  | 0, _, _ => none
  | fuel + 1, read, chars =>
      match chars with
      | '"' :: _ =>
          match quoteRun '"' chars with
          | (n, some rest) => some (String.ofList (List.replicate n '"' ++ read).reverse, rest)
          | (n, none) => basicLines fuel (List.replicate n '"' ++ read) (chars.drop n)
      | '\\' :: rest =>
          match continueLine? rest with
          | some rest => basicLines fuel read rest
          | none => do
              let (ch, rest) ← escape? rest
              basicLines fuel (ch :: read) rest
      | '\n' :: rest => basicLines fuel ('\n' :: read) rest
      | '\r' :: '\n' :: rest => basicLines fuel ('\n' :: read) rest
      | ch :: rest => if isPlainChar ch then basicLines fuel (ch :: read) rest else none
      | [] => none

/-- Reads the rest of a string of several lines in single quotes. -/
def literalLines : Nat → List Char → Rest → Option (String × Rest)
  | 0, _, _ => none
  | fuel + 1, read, chars =>
      match chars with
      | '\'' :: _ =>
          match quoteRun '\'' chars with
          | (n, some rest) => some (String.ofList (List.replicate n '\'' ++ read).reverse, rest)
          | (n, none) => literalLines fuel (List.replicate n '\'' ++ read) (chars.drop n)
      | '\n' :: rest => literalLines fuel ('\n' :: read) rest
      | '\r' :: '\n' :: rest => literalLines fuel ('\n' :: read) rest
      | ch :: rest => if isPlainChar ch then literalLines fuel (ch :: read) rest else none
      | [] => none

/-- Drops the line end that directly follows the opening quotes. -/
def dropFirstLineEnd : Rest → Rest
  | '\n' :: rest => rest
  | '\r' :: '\n' :: rest => rest
  | chars => chars

/-- Reads a string in any quotes, if a quote stands here. -/
def string? (chars : Rest) : Option (String × Rest) :=
  match chars with
  | '"' :: '"' :: '"' :: rest => basicLines chars.length [] (dropFirstLineEnd rest)
  | '"' :: rest => basicRest chars.length [] rest
  | '\'' :: '\'' :: '\'' :: rest => literalLines chars.length [] (dropFirstLineEnd rest)
  | '\'' :: rest => literalRest rest
  | _ => none

/-- A character of a key without quotes. -/
def isBareKeyChar (ch : Char) : Bool :=
  ch.isAlphanum || ch = '_' || ch = '-'

def keyPart? (chars : Rest) : Option (String × Rest) :=
  match chars with
  | '"' :: rest => basicRest chars.length [] rest
  | '\'' :: rest => literalRest rest
  | _ =>
      match chars.takeWhile isBareKeyChar with
      | [] => none
      | name => some (String.ofList name, chars.drop name.length)

/-- Reads the parts of a key, with points and blanks between them. -/
def keyParts : Nat → Rest → Option (List String × Rest)
  | 0, _ => none
  | fuel + 1, chars => do
      let (part, rest) ← keyPart? (skipSpaces chars)
      let rest := skipSpaces rest
      match rest with
      | '.' :: rest =>
          let (parts, rest) ← keyParts fuel rest
          return (part :: parts, rest)
      | _ => return ([part], rest)

/-- The greatest number of nested lists and inline tables, and of parts of a key, is below this. -/
def nestingBound : Nat := 80

/-- Reads a key and passes over the blanks after it. -/
def key? (chars : Rest) : Option (List String × Rest) := do
  let (parts, rest) ← keyParts (chars.length + 1) chars
  if parts.length < nestingBound then return (parts, rest) else none

/-- A character of a scalar without quotes. -/
def isScalarChar (ch : Char) : Bool :=
  ch.isAlphanum || ch = '_' || ch = '-' || ch = '+' || ch = '.' || ch = ':'

/-- Reads a scalar without quotes; a date and a time may stand apart by one space. -/
def bare? (chars : Rest) : Option (Value × Rest) := do
  let word := chars.takeWhile isScalarChar
  let rest := chars.drop word.length
  match rest with
  | ' ' :: ch :: _ =>
      if isDate word ∧ ch.isDigit then
        let clock := (rest.drop 1).takeWhile isScalarChar
        let value ← time? (word ++ ' ' :: clock)
        return (value, rest.drop (1 + clock.length))
      else return (← scalar? word, rest)
  | _ => return (← scalar? word, rest)

mutual

/-- Reads a value; `depth` is the number of lists and inline tables that may still be opened. -/
def value? : Nat → Nat → Rest → Option (Value × Rest)
  | 0, _, _ => none
  | fuel + 1, depth, chars =>
      match chars with
      | '"' :: _ | '\'' :: _ => (string? chars).map fun (s, rest) => (.string s, rest)
      | '[' :: rest =>
          match depth with
          | 0 => none
          | depth + 1 => items? fuel depth [] rest
      | '{' :: rest =>
          match depth with
          | 0 => none
          | depth + 1 =>
              match skipSpaces rest with
              | '}' :: rest => some (.inlineTable [], rest)
              | rest => pairs? fuel depth [] rest
      | _ => bare? chars

/-- Reads the items of a list; `read` holds those so far, last first. -/
def items? : Nat → Nat → List Value → Rest → Option (Value × Rest)
  | 0, _, _, _ => none
  | fuel + 1, depth, read, chars =>
      let chars := skipGap chars.length chars
      match chars with
      | ']' :: rest => some (.array read.reverse, rest)
      | _ =>
          match value? fuel depth chars with
          | none => none
          | some (value, rest) =>
              match skipGap rest.length rest with
              | ',' :: rest => items? fuel depth (value :: read) rest
              | ']' :: rest => some (.array (value :: read).reverse, rest)
              | _ => none

/-- Reads the pairs of an inline table that is not empty. -/
def pairs? : Nat → Nat → List (List String × Value) → Rest → Option (Value × Rest)
  | 0, _, _, _ => none
  | fuel + 1, depth, read, chars =>
      match key? chars with
      | some (path, '=' :: rest) =>
          match value? fuel depth (skipSpaces rest) with
          | none => none
          | some (value, rest) =>
              let read := (path, value) :: read
              match skipSpaces rest with
              | ',' :: rest => pairs? fuel depth read rest
              | '}' :: rest => (inlineTable read.reverse).map (·, rest)
              | _ => none
      | _ => none

end

/-- A document being read: its entries, and the path of the last header. -/
structure Draft where
  entries : Entries := []
  path : List String := []

/-- Reads a line with a key and a value. -/
def pairLine? (draft : Draft) (chars : Rest) : Option (Draft × Rest) := do
  let (key, rest) ← key? chars
  let rest ← takeChar '=' rest
  let rest := skipSpaces rest
  let (value, rest) ← value? (2 * rest.length + 2) (nestingBound - 1) rest
  let rest ← finishLine? rest
  let entries ← withinPath (addDotted value key) draft.path draft.entries
  return ({ draft with entries }, rest)

def openHeader (isList : Bool) (path : List String) (entries : Entries) : Option Entries := do
  let key ← path.getLast?
  withinPath (if isList then openListItem key else openTable key) path.dropLast entries

/-- Reads a header line after its brackets. -/
def headerLine? (isList : Bool) (draft : Draft) (chars : Rest) : Option (Draft × Rest) := do
  let (path, rest) ← key? chars
  let rest ← takeChar ']' rest
  let rest ← if isList then takeChar ']' rest else some rest
  let rest ← finishLine? rest
  let entries ← openHeader isList path draft.entries
  return (⟨entries, path⟩, rest)

/-- Reads the lines of a document. -/
def lines? : Nat → Draft → Rest → Option Entries
  | 0, _, _ => none
  | fuel + 1, draft, chars =>
      match skipSpaces chars with
      | [] => some draft.entries
      | '[' :: '[' :: rest => do
          let (draft, rest) ← headerLine? true draft rest
          lines? fuel draft rest
      | '[' :: rest => do
          let (draft, rest) ← headerLine? false draft rest
          lines? fuel draft rest
      | '\n' :: rest => lines? fuel draft rest
      | '\r' :: '\n' :: rest => lines? fuel draft rest
      | '#' :: rest => do
          let rest ← finishLine? ('#' :: rest)
          lines? fuel draft rest
      | chars => do
          let (draft, rest) ← pairLine? draft chars
          lines? fuel draft rest

/-- Passes over a byte order mark at the start of a text. -/
def dropMark : List Char → List Char
  | ch :: rest => if ch.toNat = 0xFEFF then rest else ch :: rest
  | [] => []

/-- Reads a document into the entries of its top table. -/
def read? (text : String) : Option Entries :=
  let chars := dropMark text.toList
  lines? (chars.length + 1) {} chars

end DocIndex.Toml
