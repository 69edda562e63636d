import DocIndex.Analysis.Segmenter
import DocIndex.Analysis.Stem
import DocIndex.Schema.Definition

/-!
The terms that each tokenizer makes of a text, and the tokenizers that an index knows by name.
-/

namespace DocIndex

open Analysis

/-- The terms of a text under a tokenizer, in order. -/
def Tokenizer.analyze [Segmenter] : Tokenizer → String → List Token
  | .standard, text => Analysis.standard text
  | .raw, text => Analysis.whole text
  | .stemmed, text =>
      (loweredRuns text).map fun (run, position) => ⟨String.ofList (Stem.stem run), position⟩
  | .jieba, text => Segmenter.words text

/-- The tokenizers that every index knows. -/
def Tokenizer.builtIn : List Tokenizer :=
  [.standard, .raw, .stemmed]

/-- The tokenizers that an index is taught whenever it is created or opened. -/
def Tokenizer.taught : List Tokenizer :=
  [.jieba]

/-- The tokenizer that an open index knows by a name. -/
def Tokenizer.named? (name : String) : Option Tokenizer :=
  (builtIn ++ taught).find? (·.name = name)

/-- Longer terms, in bytes, are left out of an index. -/
def Analysis.termBound : Nat := 65530

/-- The terms of a text that an index keeps. -/
def Tokenizer.terms [Segmenter] (tokenizer : Tokenizer) (text : String) : List Token :=
  (tokenizer.analyze text).filter fun token => token.text.utf8ByteSize ≤ termBound

end DocIndex
