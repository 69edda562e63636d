import DocIndex.Unicode.Alphabetic
import DocIndex.Unicode.Numeric
import DocIndex.Unicode.Cased
import DocIndex.Unicode.Visible
import DocIndex.Unicode.LowerCase

/-!
The classes of characters that text is cut and folded by. ASCII characters are decided by their own
short rules, all others by the tables.
-/

namespace DocIndex.Unicode

/-- Tells whether one of the ranges holds a code point. -/
def holds (ranges : List (Nat × Nat)) (n : Nat) : Bool :=
  ranges.any fun range => range.1 ≤ n && n ≤ range.2

/-- Letters: the property Alphabetic. -/
def isAlphabetic (ch : Char) : Bool :=
  if ch.toNat < 128 then ch.isAlpha else holds alphabeticRanges ch.toNat

/-- Digits and numerals: the general categories Nd, Nl and No. -/
def isNumeric (ch : Char) : Bool :=
  if ch.toNat < 128 then ch.isDigit else holds numericRanges ch.toNat

/-- Letters, digits and numerals. -/
def isAlphanumeric (ch : Char) : Bool :=
  isAlphabetic ch || isNumeric ch

def whiteSpaceRanges : List (Nat × Nat) :=
  [(0x9, 0xD), (0x20, 0x20), (0x85, 0x85), (0xA0, 0xA0), (0x1680, 0x1680), (0x2000, 0x200A),
    (0x2028, 0x2029), (0x202F, 0x202F), (0x205F, 0x205F), (0x3000, 0x3000)]

def isWhiteSpace (ch : Char) : Bool :=
  holds whiteSpaceRanges ch.toNat

def isCased (ch : Char) : Bool :=
  if ch.toNat < 128 then ch.isAlpha else holds casedRanges ch.toNat

def isCaseIgnorable (ch : Char) : Bool :=
  holds caseIgnorableRanges ch.toNat

/-- A character with a glyph of its own that leaves its neighbours alone. -/
def isVisible (ch : Char) : Bool :=
  if ch.toNat < 128 then 0x20 ≤ ch.toNat && ch.toNat < 0x7F
  else !holds glyphlessRanges ch.toNat && !holds graphemeExtendRanges ch.toNat

/-- The lower-case form of a character on its own; `İ` becomes `i` and a combining dot. -/
def lowerChar (ch : Char) : List Char :=
  if ch.toNat < 128 then [ch.toLower]
  else if ch.toNat = 0x130 then ['i', Char.ofNat 0x307]
  else
    match lowerCaseRuns.find? (·.holds ch.toNat) with
    | some run => [Char.ofNat (ch.toNat + run.shift).toNat]
    | none => [ch]

end DocIndex.Unicode
