import DocIndex.Search.Criterion

/-!
Scores. A term counts for more the rarer it is, the oftener it occurs in the field and the shorter
the field is (BM25 with `k1 = 1.2` and `b = 0.75`); ranges, prefixes, misspellings and the like have
a constant score. The clauses of a boolean criterion that hold add up. All numbers are binary32.
-/

namespace DocIndex

namespace Score

/--
The length of a field as it is remembered: exact up to 40, then rounded down to a step that doubles
with every eight lengths.
-/
def roundLength (length : Nat) : Nat :=
  if length ≤ 40 then length
  else
    let scale := Nat.log2 ((length - 24) / 8)
    24 + ((length - 24) >>> scale) <<< scale

/-- How much a term is worth that so many of all documents have. -/
def rarity (documents withTerm : Nat) : Float32 :=
  let rest := Float32.ofNat (documents - withTerm)
  (1.0 + (rest + 0.5) / (Float32.ofNat withTerm + 0.5)).log

def documentsWith (entries : List Entry) (id : FieldId) (term : FieldValue) : Nat :=
  (entries.filter (·.has id term)).length

/-- The number of terms in a field of all documents. -/
def totalLength (entries : List Entry) (id : FieldId) : Nat :=
  (entries.flatMap fun entry => entry.terms id).length

/-- The share of occurrences in a score: it grows with their number and falls with the length. -/
def saturation (entries : List Entry) (id : FieldId) (occurrences : Nat) (entry : Entry) :
    Float32 :=
  let average := Float32.ofNat (totalLength entries id) / Float32.ofNat entries.length
  let length := Float32.ofNat (roundLength (entry.terms id).length)
  let norm : Float32 := 1.2 * (1.0 - 0.75 + 0.75 * length / average)
  let n := Float32.ofNat occurrences
  n / (n + norm)

/-- The score of terms that occur together so many times. -/
def ofTerms (entries : List Entry) (boost : Float32) (id : FieldId) (terms : List FieldValue)
    (occurrences : Nat) (entry : Entry) : Float32 :=
  let rarities := terms.map fun term => rarity entries.length (documentsWith entries id term)
  let weight := rarities.foldl (· + ·) 0 * (1.0 + 1.2) * boost
  weight * saturation entries id occurrences entry

/-- How often a term counts: once in a field that keeps no positions. -/
def frequency (entry : Entry) (id : FieldId) (term : FieldValue) : Nat :=
  (entry.positions id term).length

end Score

namespace Criterion

open Score

mutual

/-- The score of a document that fulfils a criterion; `entries` are all documents. -/
def score (entries : List Entry) (boost : Float32) (entry : Entry) : Criterion → Float32
  | .term id sought => ofTerms entries boost id [sought] (frequency entry id sought) entry
  | .phrase id parts slop =>
      ofTerms entries boost id (parts.map (·.term)) (Phrase.count slop entry id parts) entry
  | .phraseStart id parts _ _ =>
      match parts with
      | [] | [_] => 1.0
      | parts => ofTerms entries boost id (parts.map (·.term)) (Phrase.count 0 entry id parts) entry
  | .bool must should _ =>
      addScores entries boost entry (addScores entries boost entry 0 must) should
  | .boost factor criterion => score entries (boost * factor) entry criterion
  | _ => boost

/-- Adds the scores of the criteria that a document fulfils to a sum. -/
def addScores (entries : List Entry) (boost : Float32) (entry : Entry) (sum : Float32) :
    List Criterion → Float32
  | [] => sum
  | criterion :: rest =>
      let sum := if criterion.admits entry then sum + score entries boost entry criterion else sum
      addScores entries boost entry sum rest

end

end Criterion

end DocIndex
