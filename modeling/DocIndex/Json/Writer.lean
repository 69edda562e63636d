import DocIndex.Json.Value
import DocIndex.Decimal.Layout

/-!
Writing JSON values: in one line without blanks, or in lines indented by two spaces per level.
Members are written in the order in which the value holds them.
-/

namespace DocIndex.Json

/--
Floats are written by their shortest digits, positionally when the exponent of the leading digit
is at least -5 and below 16, and always with a point unless an exponent is written.
-/
def floatLayout : Decimal.Layout where
  isPositional := fun exponent => -5 ≤ exponent && exponent < 16
  keepsPoint := true

/-- The text of a float; a float that is not finite has no number and is written `null`. -/
def floatText (x : Float) : List Char :=
  if x.isFinite then (Decimal.render floatLayout x).toList else ['n', 'u', 'l', 'l']

def integerText : Int → List Char
  | .ofNat n => Decimal.digitChars n
  | .negSucc n => '-' :: Decimal.digitChars (n + 1)

/-- A hexadecimal digit in lower case. -/
def hexChar (n : Nat) : Char :=
  if n < 10 then Char.ofNat (48 + n) else Char.ofNat (87 + n)

/-- The characters that stand for a character within quotes. -/
def escapeChar (ch : Char) : List Char :=
  if ch = '"' then ['\\', '"']
  else if ch = '\\' then ['\\', '\\']
  else if ch = '\x08' then ['\\', 'b']
  else if ch = '\x0c' then ['\\', 'f']
  else if ch = '\n' then ['\\', 'n']
  else if ch = '\r' then ['\\', 'r']
  else if ch = '\t' then ['\\', 't']
  else if ch.toNat < 0x20 then
    ['\\', 'u', '0', '0', hexChar (ch.toNat / 16), hexChar (ch.toNat % 16)]
  else [ch]

def quotedText (s : String) : List Char :=
  '"' :: s.toList.flatMap escapeChar ++ ['"']

/-- The blanks between the tokens of a text. -/
structure Spacing where
  /-- Before an item and before a closing bracket, by the level of the one or the other. -/
  line : Nat → List Char
  /-- After a colon. -/
  colon : List Char

namespace Spacing

/-- No blanks: all stands in one line. -/
def none : Spacing :=
  ⟨fun _ => [], []⟩

/-- A line for each item, indented by two blanks a level. -/
def lines : Spacing :=
  ⟨fun level => '\n' :: List.replicate (2 * level) ' ', [' ']⟩

/-- What stands before an item at a level; `first` tells that no item came before it. -/
def lead (spacing : Spacing) (level : Nat) (first : Bool) : List Char :=
  (if first then [] else [',']) ++ spacing.line level

/-- What stands before a closing bracket; a container without items is written together. -/
def close (spacing : Spacing) (level : Nat) (first : Bool) : List Char :=
  if first then [] else spacing.line level

end Spacing

mutual

/-- The text of a value; `level` counts the containers around it. -/
def writeValue (spacing : Spacing) (level : Nat) : Json → List Char
  | .null => ['n', 'u', 'l', 'l']
  | .bool true => ['t', 'r', 'u', 'e']
  | .bool false => ['f', 'a', 'l', 's', 'e']
  | .integer n => integerText n
  | .float x => floatText x
  | .string s => quotedText s
  | .array items => '[' :: writeItems spacing level true items
  | .object members => '{' :: writeMembers spacing level true members

/-- The items of a list and its closing bracket; `first` tells that no item came before. -/
def writeItems (spacing : Spacing) (level : Nat) (first : Bool) : List Json → List Char
  | [] => spacing.close level first ++ [']']
  | item :: rest =>
      spacing.lead (level + 1) first ++ writeValue spacing (level + 1) item
        ++ writeItems spacing level false rest

/-- The members of an object and its closing brace. -/
def writeMembers (spacing : Spacing) (level : Nat) (first : Bool) :
    List (String × Json) → List Char
  | [] => spacing.close level first ++ ['}']
  | member :: rest =>
      spacing.lead (level + 1) first ++ writeMember spacing (level + 1) member
        ++ writeMembers spacing level false rest

def writeMember (spacing : Spacing) (level : Nat) : String × Json → List Char
  | (key, value) => quotedText key ++ ':' :: spacing.colon ++ writeValue spacing level value

end

/-- The text of a value in one line. -/
def compact (value : Json) : String :=
  String.ofList (writeValue .none 0 value)

/-- The text of a value in indented lines. -/
def pretty (value : Json) : String :=
  String.ofList (writeValue .lines 0 value)

end DocIndex.Json
