import DocIndex.Decimal.Digits
import DocIndex.Decimal.Nearest
import DocIndex.TextQuery.Expr
import DocIndex.Unicode.Classes

/-!
Reading the text query language. Each function reads one form from the front of a text and gives
what is left, or nothing if the form is not there; where several forms are possible, the first that
is there is taken. Forms that hold expressions recurse on a bound that starts above the number of
steps a text needs.
-/

namespace DocIndex.TextQuery

/-- Reads a form from the front of a text. -/
abbrev Read (α : Type) := List Char → Option (α × List Char)

def isBlank (ch : Char) : Bool :=
  ch = ' ' || ch = '\t' || ch = '\r' || ch = '\n'

def skipBlanks (chars : List Char) : List Char :=
  chars.dropWhile isBlank

/-- Passes over blanks, of which there must be one. -/
def blanks? : List Char → Option (List Char)
  | ch :: rest => if isBlank ch then some (skipBlanks rest) else none
  | [] => none

def token? (expected : List Char) (chars : List Char) : Option (List Char) :=
  if expected.isPrefixOf chars then some (chars.drop expected.length) else none

/-- Characters that a field name has only after a backslash. -/
def specialChars : List Char :=
  ['+', '^', '`', ':', '\x7b', '\x7d', '"', '\'', '[', ']', '(', ')', '!', '\\', '*', ' ']

def wordEnds : List Char :=
  ['^', '`', ':', '\x7b', '\x7d', '"', '\'', '[', ']', '(', ')', '\\']

def boundEnds : List Char :=
  ['\x7b', '\x7d', '"', '[', ']', '(', ')']

/-- Reads a character of a field name. -/
def nameChar? : Read Char
  | '\\' :: ch :: rest => if specialChars.contains ch then some (ch, rest) else none
  | ch :: rest => if specialChars.contains ch then none else some (ch, rest)
  | [] => none

/--
Reads the characters of a field name after the first; a backslash before others stands for itself.
-/
def nameRest : Nat → List Char → List Char × List Char
  | 0, chars => ([], chars)
  | fuel + 1, chars =>
      match nameChar? chars with
      | some (ch, rest) =>
          let (name, rest) := nameRest fuel rest
          (ch :: name, rest)
      | none =>
          match chars with
          | '\\' :: rest =>
              let (name, rest) := nameRest fuel rest
              ('\\' :: name, rest)
          | _ => ([], chars)

/-- Reads the name of a field and the colon after it. -/
def fieldName? : Read String := fun chars => do
  if chars.head? = some '-' then none
  let (first, rest) ← nameChar? chars
  let (name, rest) := nameRest rest.length rest
  let rest ← token? [':'] (skipBlanks rest)
  return (String.ofList (first :: name), skipBlanks rest)

/-- Reads the rest of a word as it is written. -/
def wordRest : List Char → List Char × List Char
  | [] => ([], [])
  | '\\' :: ch :: rest =>
      let (word, rest) := wordRest rest
      ('\\' :: ch :: word, rest)
  | ch :: rest =>
      if Unicode.isWhiteSpace ch || wordEnds.contains ch then ([], ch :: rest)
      else
        let (word, rest) := wordRest rest
        (ch :: word, rest)

/-- A word without the backslashes that escape something. -/
def unescape : List Char → List Char
  | '\\' :: ch :: rest =>
      if Unicode.isWhiteSpace ch || wordEnds.contains ch || ch = '-' then ch :: unescape rest
      else '\\' :: ch :: unescape rest
  | ch :: rest => ch :: unescape rest
  | [] => []

/-- Words that mean something else. -/
def reservedWords : List (List Char) :=
  [['O', 'R'], ['A', 'N', 'D'], ['N', 'O', 'T'], ['I', 'N']]

def word? : Read String := fun chars =>
  if chars.head? = some '-' then none
  else
    match wordRest chars with
    | ([], _) => none
    | (word, rest) =>
        if reservedWords.contains word then none else some (String.ofList (unescape word), rest)

def digits? : Read (List Char) := fun chars =>
  match chars.takeWhile Char.isDigit with
  | [] => none
  | digits => some (digits, chars.drop digits.length)

/-- Reads digits, with a point and more digits if they are there. -/
def decimal? : Read (List Char × List Char) := fun chars => do
  let (whole, rest) ← digits? chars
  match rest with
  | '.' :: after =>
      match digits? after with
      | some (fraction, rest) => some ((whole, fraction), rest)
      | none => some ((whole, []), rest)
  | _ => some ((whole, []), rest)

/-- Reads a negative number as it is written. -/
def negative? : Read (List Char) := fun chars => do
  let rest ← token? ['-'] chars
  let ((whole, fraction), rest) ← decimal? rest
  let fraction := if fraction.isEmpty then [] else '.' :: fraction
  return ('-' :: whole ++ fraction, rest)

/-- Reads up to the closing quote; a backslash makes the next character stand for itself. -/
def quotedRest (quote : Char) : Read (List Char)
  | [] => none
  | '\\' :: ch :: rest => do
      let (text, rest) ← quotedRest quote rest
      return (ch :: text, rest)
  | ch :: rest =>
      if ch = quote then some ([], rest)
      else do
        let (text, rest) ← quotedRest quote rest
        return (ch :: text, rest)

def quoted? (quote : Char) : Read String := fun chars => do
  let rest ← token? [quote] chars
  let (text, rest) ← quotedRest quote rest
  return (String.ofList text, rest)

/-- Reads a negative number, a text in quotes, or a word. -/
def text? : Read String := fun chars =>
  ((negative? chars).map fun (number, rest) => (String.ofList number, rest))
    <|> quoted? '\'' chars <|> quoted? '"' chars <|> word? chars

/-- Reads how far off terms may be, or that the last one is a beginning. -/
def loose : List Char → (Nat × Bool) × List Char
  | '*' :: rest => ((0, true), rest)
  | '~' :: rest =>
      match digits? rest with
      | some (digits, after) =>
          let slop := Decimal.digitsValue digits
          if slop < UInt32.size then ((slop, false), after)
          else ((0, false), '~' :: rest)
      | none => ((0, false), '~' :: rest)
  | chars => ((0, false), chars)

def words? : Read Leaf := fun chars => do
  let (text, rest) ← text? chars
  let ((slop, openEnded), rest) := loose rest
  return (.words none text slop openEnded, rest)

/-- Reads a bound of a range that is not a number. -/
def boundWord? : Read (List Char)
  | [] => none
  | first :: rest =>
      if Unicode.isWhiteSpace first || first = '`' || boundEnds.contains first then none
      else
        let word := rest.takeWhile fun ch => !Unicode.isWhiteSpace ch && !boundEnds.contains ch
        some (first :: word, rest.drop word.length)

def bound? : Read (List Char) := fun chars =>
  negative? chars <|> boundWord? chars

/-- The end of a range with a given bound, where a star means none. -/
def edge (included : Bool) (bound : List Char) : Edge :=
  if bound = ['*'] then .unbounded
  else if included then .included (String.ofList bound)
  else .excluded (String.ofList bound)

/-- Reads a range with one end. -/
def halfRange? : Read Leaf
  | '>' :: '=' :: rest => do
      let (bound, rest) ← bound? (skipBlanks rest)
      return (.range none (edge true bound) .unbounded, rest)
  | '<' :: '=' :: rest => do
      let (bound, rest) ← bound? (skipBlanks rest)
      return (.range none .unbounded (edge true bound), rest)
  | '<' :: rest => do
      let (bound, rest) ← bound? (skipBlanks rest)
      return (.range none .unbounded (edge false bound), rest)
  | '>' :: rest => do
      let (bound, rest) ← bound? (skipBlanks rest)
      return (.range none (edge false bound) .unbounded, rest)
  | _ => none

/-- Reads a bracket: a square one takes the bound into the range, a curly one does not. -/
def bracket? (square curly : Char) : Read Bool
  | ch :: rest =>
      if ch = square then some (true, rest) else if ch = curly then some (false, rest) else none
  | [] => none

/-- Reads a range with two ends. -/
def fullRange? : Read Leaf := fun chars => do
  let (lowerIncluded, rest) ← bracket? '[' '\x7b' chars
  let (lower, rest) ← bound? (skipBlanks rest)
  let rest ← token? ['T', 'O'] (← blanks? rest)
  let (upper, rest) ← bound? (← blanks? rest)
  let (upperIncluded, rest) ← bracket? ']' '\x7d' (skipBlanks rest)
  return (.range none (edge lowerIncluded lower) (edge upperIncluded upper), rest)

def range? : Read Leaf := fun chars =>
  halfRange? chars <|> fullRange? chars

/-- Reads the members of a list after the first. -/
def membersRest : Nat → List Char → List String × List Char
  | 0, chars => ([], chars)
  | fuel + 1, chars =>
      match (blanks? chars).bind text? with
      | some (text, rest) =>
          let (members, rest) := membersRest fuel rest
          (text :: members, rest)
      | none => ([], chars)

/-- Reads a list of words. -/
def anyOf? : Read Leaf := fun chars => do
  let rest ← token? ['I', 'N'] (skipBlanks chars)
  let rest ← token? ['['] (← blanks? rest)
  let rest := skipBlanks rest
  let (members, rest) :=
    match text? rest with
    | some (text, rest) =>
        let (members, rest) := membersRest rest.length rest
        (text :: members, rest)
    | none => ([], rest)
  let rest ← token? [']'] rest
  return (.anyOf none members, rest)

def endsWord : List Char → Bool
  | [] => true
  | ch :: _ => Unicode.isWhiteSpace ch || wordEnds.contains ch

/-- Reads the star that stands for any value of a field. -/
def present? : Read Leaf := fun chars => do
  let rest ← token? ['*'] (skipBlanks chars)
  if endsWord rest then some (.present "", rest) else none

/-- Reads a leaf without the field before it. -/
def bare? : Read Leaf := fun chars =>
  range? chars <|> anyOf? chars <|> present? chars <|> words? chars

/-- Reads the sign before a clause. -/
def sign : List Char → Option Occur × List Char
  | '-' :: rest => (some .mustNot, rest)
  | '+' :: rest => (some .must, rest)
  | chars => (none, chars)

/-- Reads the operator before a clause. -/
def operator (chars : List Char) : Option Operator × List Char :=
  match token? ['A', 'N', 'D', ' '] chars, token? ['O', 'R', ' '] chars with
  | some rest, _ => (some .and, rest)
  | none, some rest => (some .or, rest)
  | none, none => (none, chars)

/-- Reads the factor after a clause. -/
def boosted (expr : Expr) (chars : List Char) : Expr × List Char :=
  match (token? ['^'] chars).bind decimal? with
  | none => (expr, chars)
  | some ((whole, fraction), rest) =>
      let factor := Decimal.nearest (Decimal.digitsValue (whole ++ fraction)) (-fraction.length)
      (if (factor - 1.0).abs ≤ 2.220446049250313e-16 then expr else .boost factor expr, rest)

mutual

/-- Reads an expression with the blanks around it. -/
def expr? (fuel : Nat) : Read Expr := fun chars =>
  match fuel with
  | 0 => none
  | fuel + 1 => do
      let ((occur, first), rest) ← clause? fuel (skipBlanks chars)
      let operands := (blanks? rest).map (operands fuel)
      match operands with
      | some (operand :: operands, rest) =>
          return (Expr.ofOperands (⟨none, occur, first⟩ :: operand :: operands), skipBlanks rest)
      | _ =>
          let expr := if occur = some .mustNot then first.exclude else first
          return (expr, skipBlanks rest)

/-- Reads clauses with their operators and the blanks after them. -/
def operands (fuel : Nat) (chars : List Char) : List Operand × List Char :=
  match fuel with
  | 0 => ([], chars)
  | fuel + 1 =>
      let (operator, rest) := operator chars
      match clause? fuel (skipBlanks rest) with
      | none => ([], chars)
      | some ((occur, expr), rest) =>
          let (others, rest) := operands fuel (skipBlanks rest)
          (⟨operator, occur, expr⟩ :: others, rest)

def clause? (fuel : Nat) : Read Part := fun chars =>
  match fuel with
  | 0 => none
  | fuel + 1 => do
      let (occur, rest) := sign chars
      let (expr, rest) ← leaf? fuel rest
      let (expr, rest) := boosted expr rest
      return ((occur, expr), rest)

/-- Reads an expression in parentheses, an excluded leaf, or a leaf. -/
def leaf? (fuel : Nat) : Read Expr := fun chars =>
  match fuel with
  | 0 => none
  | fuel + 1 =>
      match chars with
      | '(' :: rest => do
          let (expr, rest) ← expr? fuel rest
          let rest ← token? [')'] rest
          return (expr, rest)
      | '*' :: rest => some (.leaf .all, rest)
      | chars =>
          let excluded := do
            let rest ← token? ['N', 'O', 'T'] chars
            let (expr, rest) ← leaf? fuel (← blanks? rest)
            return (expr.exclude, rest)
          excluded <|> literal? fuel chars

/-- Reads a leaf with the field before it, or a group of clauses on a field. -/
def literal? (fuel : Nat) : Read Expr := fun chars =>
  match fuel with
  | 0 => none
  | fuel + 1 =>
      match fieldName? chars with
      | none => (bare? chars).map fun (leaf, rest) => (.leaf leaf, rest)
      | some (field, rest) =>
          match bare? rest with
          | some (leaf, rest) => some (.leaf (leaf.withField (some field)), rest)
          | none => do
              let rest ← token? ['('] rest
              let (expr, rest) ← expr? fuel rest
              let rest ← token? [')'] rest
              return (expr.within field, rest)

end

/-- Reads a whole query; blanks alone are the empty query. -/
def read? (query : String) : Option Expr :=
  let chars := skipBlanks query.toList
  match chars with
  | [] => some (.clauses [])
  | chars =>
      match expr? (5 * chars.length + 5) chars with
      | some (expr, []) => some expr.unwrap
      | _ => none

end DocIndex.TextQuery
