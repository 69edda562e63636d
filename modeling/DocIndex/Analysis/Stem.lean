/-!
Reducing English words to their stems by the second Porter algorithm. Suffixes are taken off in a
fixed order of steps, each of which removes or replaces the longest suffix of its list, provided
that the suffix lies in a region that leaves enough of the word. The words are in lower case and
have no apostrophes. A `y` that acts as a consonant is written `Y` meanwhile.
-/

namespace DocIndex.Analysis.Stem

/-- A vowel; a consonant `y` is written `Y` and is none. -/
def isVowel (ch : Char) : Bool :=
  ch = 'a' || ch = 'e' || ch = 'i' || ch = 'o' || ch = 'u' || ch = 'y'

/-- Marks each `y` that acts as a consonant: at the start and after a vowel. -/
def markConsonants (afterVowel : Bool) : List Char → List Char
  | [] => []
  | ch :: rest =>
      let ch := if ch = 'y' && afterVowel then 'Y' else ch
      ch :: markConsonants (isVowel ch) rest

/-- Takes the marks off again. -/
def unmark (word : List Char) : List Char :=
  word.map fun ch => if ch = 'Y' then 'y' else ch

/-- The number of characters up to and with the first consonant that follows a vowel. -/
def pastVowelConsonant (word : List Char) : Nat :=
  let start := (word.takeWhile (!isVowel ·)).length
  let vowels := ((word.drop start).takeWhile isVowel).length
  min word.length (start + vowels + 1)

/-- Beginnings after which the first region starts in any case. -/
def longBeginnings : List (List Char) :=
  [['g', 'e', 'n', 'e', 'r'], ['c', 'o', 'm', 'm', 'u', 'n'], ['a', 'r', 's', 'e', 'n']]

/-- Where the first region starts. -/
def firstRegion (word : List Char) : Nat :=
  match longBeginnings.find? (·.isPrefixOf word) with
  | some beginning => beginning.length
  | none => pastVowelConsonant word

/-- Where the second region starts. -/
def secondRegion (word : List Char) : Nat :=
  let first := firstRegion word
  first + pastVowelConsonant (word.drop first)

/-- A word, reversed, with the regions in which suffixes may be taken off. -/
structure Shape where
  /-- The characters, last first. -/
  reversed : List Char
  first : Nat
  second : Nat
deriving Repr, DecidableEq

def Shape.ofWord (word : List Char) : Shape :=
  ⟨word.reverse, firstRegion word, secondRegion word⟩

/-- The suffix of a list, given as strings, that is the longest one of the word. -/
def longestSuffix? (suffixes : List String) (reversed : List Char) : Option String :=
  suffixes.foldl
    (fun best suffix =>
      if (suffix.toList.reverse).isPrefixOf reversed then
        match best with
        | some found => if found.length < suffix.length then some suffix else best
        | none => some suffix
      else best)
    none

/-- The word without its last `n` characters and with a new ending. -/
def replaceEnd (n : Nat) (ending : String) (reversed : List Char) : List Char :=
  ending.toList.reverse ++ reversed.drop n

/-- A short syllable at the end: a vowel between consonants, the last not `w`, `x` or `Y`, or a
beginning of a vowel and a consonant. -/
def endsShort : List Char → Bool
  | c :: v :: b :: _ =>
      !isVowel c && c ≠ 'w' && c ≠ 'x' && c ≠ 'Y' && isVowel v && !isVowel b
  | [c, v] => !isVowel c && isVowel v
  | _ => false

/-- Plural endings. -/
def step1a (word : List Char) : List Char :=
  match longestSuffix? ["sses", "ied", "ies", "s", "us", "ss"] word with
  | some "sses" => replaceEnd 4 "ss" word
  | some "ied" | some "ies" => replaceEnd 3 (if 2 ≤ word.length - 3 then "i" else "ie") word
  | some "s" => if (word.drop 2).any isVowel then word.drop 1 else word
  | _ => word

/-- Consonants that are not doubled at the end of a stem. -/
def isDouble (a b : Char) : Bool :=
  a = b && ['b', 'd', 'f', 'g', 'm', 'n', 'p', 'r', 't'].contains a

/-- Mends a stem that lost `ed` or `ing`; `first` is where the first region starts. -/
def mend (first : Nat) (word : List Char) : List Char :=
  match longestSuffix? ["at", "bl", "iz"] word with
  | some _ => 'e' :: word
  | none =>
      match word with
      | a :: b :: rest =>
          if isDouble a b then b :: rest
          else if word.length = first && endsShort word then 'e' :: word
          else word
      | _ => word

/-- Past and progressive endings. -/
def step1b (first : Nat) (word : List Char) : List Char :=
  match longestSuffix? ["eed", "eedly", "ed", "edly", "ing", "ingly"] word with
  | none => word
  | some suffix =>
      let n := suffix.length
      if suffix = "eed" ∨ suffix = "eedly" then
        if first ≤ word.length - n then replaceEnd n "ee" word else word
      else if (word.drop n).any isVowel then mend first (word.drop n)
      else word

/-- A final `y` after a consonant that is not the first character. -/
def step1c : List Char → List Char
  | y :: b :: c :: rest =>
      if (y = 'y' || y = 'Y') && !isVowel b then 'i' :: b :: c :: rest else y :: b :: c :: rest
  | word => word

/-- The suffixes of the second step with what replaces them. -/
def suffixes2 : List (String × String) :=
  [("tional", "tion"), ("enci", "ence"), ("anci", "ance"), ("abli", "able"), ("entli", "ent"),
    ("izer", "ize"), ("ization", "ize"), ("ational", "ate"), ("ation", "ate"), ("ator", "ate"),
    ("alism", "al"), ("aliti", "al"), ("alli", "al"), ("fulness", "ful"), ("ousli", "ous"),
    ("ousness", "ous"), ("iveness", "ive"), ("iviti", "ive"), ("biliti", "ble"), ("bli", "ble"),
    ("ogi", "og"), ("fulli", "ful"), ("lessli", "less"), ("li", "")]

/-- Letters that may stand before `li`. -/
def beforeLi : List Char :=
  ['c', 'd', 'e', 'g', 'h', 'k', 'm', 'n', 'r', 't']

/-- Derivational endings, in the first region. -/
def step2 (first : Nat) (word : List Char) : List Char :=
  match longestSuffix? (suffixes2.map (·.1)) word with
  | none => word
  | some suffix =>
      let n := suffix.length
      let stem := word.drop n
      let allowed :=
        if suffix = "ogi" then stem.head? = some 'l'
        else if suffix = "li" then stem.head?.any beforeLi.contains
        else true
      if first ≤ word.length - n && allowed then
        replaceEnd n ((suffixes2.lookup suffix).getD "") word
      else word

/-- The suffixes of the third step with what replaces them. -/
def suffixes3 : List (String × String) :=
  [("tional", "tion"), ("ational", "ate"), ("alize", "al"), ("icate", "ic"), ("iciti", "ic"),
    ("ical", "ic"), ("ful", ""), ("ness", ""), ("ative", "")]

/-- More derivational endings, in the first region; `ative` in the second. -/
def step3 (first second : Nat) (word : List Char) : List Char :=
  match longestSuffix? (suffixes3.map (·.1)) word with
  | none => word
  | some suffix =>
      let n := suffix.length
      let region := if suffix = "ative" then max first second else first
      if region ≤ word.length - n then replaceEnd n ((suffixes3.lookup suffix).getD "") word
      else word

/-- The suffixes of the fourth step. -/
def suffixes4 : List String :=
  ["al", "ance", "ence", "er", "ic", "able", "ible", "ant", "ement", "ment", "ent", "ism", "ate",
    "iti", "ous", "ive", "ize", "ion"]

/-- Endings that fall in the second region. -/
def step4 (second : Nat) (word : List Char) : List Char :=
  match longestSuffix? suffixes4 word with
  | none => word
  | some suffix =>
      let n := suffix.length
      let stem := word.drop n
      let allowed := suffix ≠ "ion" || stem.head? = some 's' || stem.head? = some 't'
      if second ≤ word.length - n && allowed then stem else word

/-- A final `e`, or one of two final `l`. -/
def step5 (first second : Nat) (word : List Char) : List Char :=
  match word with
  | 'e' :: stem =>
      if second ≤ stem.length || (first ≤ stem.length && !endsShort stem) then stem else word
  | 'l' :: 'l' :: stem => if second ≤ stem.length + 1 then 'l' :: stem else word
  | _ => word

/-- Words whose stem is given. -/
def exceptions : List (String × String) :=
  [("skis", "ski"), ("skies", "sky"), ("dying", "die"), ("lying", "lie"), ("tying", "tie"),
    ("idly", "idl"), ("gently", "gentl"), ("ugly", "ugli"), ("early", "earli"), ("only", "onli"),
    ("singly", "singl"), ("sky", "sky"), ("news", "news"), ("howe", "howe"), ("atlas", "atlas"),
    ("cosmos", "cosmos"), ("bias", "bias"), ("andes", "andes")]

/-- Words that keep their form once a plural ending is off. -/
def invariants : List String :=
  ["inning", "outing", "canning", "herring", "earring", "proceed", "exceed", "succeed"]

/-- The steps after the first one. -/
def laterSteps (shape : Shape) (word : List Char) : List Char :=
  step5 shape.first shape.second
    (step4 shape.second
      (step3 shape.first shape.second (step2 shape.first (step1c (step1b shape.first word)))))

def stem (word : List Char) : List Char :=
  match exceptions.lookup (String.ofList word) with
  | some given => given.toList
  | none =>
      if word.length < 3 then word
      else
        let shape := Shape.ofWord (markConsonants true word)
        let singular := step1a shape.reversed
        let plain := unmark singular.reverse
        if invariants.contains (String.ofList plain) then plain
        else unmark (laterSteps shape singular).reverse

end DocIndex.Analysis.Stem
