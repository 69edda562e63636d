import DocIndex.Unicode.Classes

/-!
Lower-casing in two ways: character by character, as terms are folded when a document is indexed,
and of a whole string, where a capital sigma at the end of a word becomes the final form.
-/

namespace DocIndex.Text

open Unicode

/-- Every character in its lower-case form. -/
def lowerEach (s : List Char) : List Char :=
  s.flatMap lowerChar

/-- The nearest character that is not case-ignorable is cased. -/
def meetsCased (s : List Char) : Bool :=
  match s.dropWhile isCaseIgnorable with
  | [] => false
  | ch :: _ => isCased ch

/-- Lower-cases what follows `before`, which holds the characters already passed, last first. -/
def lowerAfter (before : List Char) : List Char → List Char
  | [] => []
  | ch :: rest =>
      let lowered :=
        if ch = 'Σ' then
          if meetsCased before && !meetsCased rest then ['ς'] else ['σ']
        else lowerChar ch
      lowered ++ lowerAfter (ch :: before) rest

def lower (s : String) : String :=
  String.ofList (lowerAfter [] s.toList)

end DocIndex.Text
