import DocIndex.Unicode.Classes

/-!
Cutting text at white space.
-/

namespace DocIndex.Text

open Unicode

/-- The maximal runs of characters that satisfy `keeps`; `word` is the open run, last first. -/
def runsFrom (keeps : Char → Bool) (word : List Char) : List Char → List (List Char)
  | [] => if word.isEmpty then [] else [word.reverse]
  | ch :: rest =>
      if keeps ch then runsFrom keeps (ch :: word) rest
      else if word.isEmpty then runsFrom keeps [] rest
      else word.reverse :: runsFrom keeps [] rest

/-- The words of a text: its maximal runs without white space. -/
def words (s : String) : List String :=
  (runsFrom (fun ch => !isWhiteSpace ch) [] s.toList).map String.ofList

/-- A text of white space only, or none at all. -/
def isBlank (s : String) : Bool :=
  s.toList.all isWhiteSpace

end DocIndex.Text
