import DocIndex.Analysis.Token

/-!
Words of a text in a language that writes none apart, such as Chinese. To find them takes a
dictionary, so an index leaves it to a segmenter from outside, and what is said of an index holds
whatever that makes of a text.
-/

namespace DocIndex

open Analysis

/-- Cuts a text into words, each with the number of characters before it. -/
class Segmenter where
  words : String → List Token

namespace Segmenter

/-- Pieces that stand one after the other, with their places. -/
def placed (place : Nat) : List (List Char) → List Token
  | [] => []
  | piece :: rest => ⟨String.ofList piece, place⟩ :: placed (place + piece.length) rest

/--
The segmenter without a dictionary. Every character of white space is a word, and so is what stands
between two of them.
-/
@[reducible]
def byRuns : Segmenter where
  words text :=
    placed 0 (text.toList.splitBy fun ch next =>
      !Unicode.isWhiteSpace ch && !Unicode.isWhiteSpace next)

end Segmenter

end DocIndex
