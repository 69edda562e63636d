import DocIndex.Search.Page
import DocIndex.Search.Score

/-!
Searching a list of documents. The documents that a criterion admits are ranked by descending score,
those of equal score in the order of the list, and a part of the ranking is shown.
-/

namespace DocIndex

/-- A document that a search found, with its score. -/
abbrev Hit := Float32 × Document

/-- The documents that a criterion admits, best first. -/
def rank (entries : List Entry) (criterion : Criterion) : List Hit :=
  let admitted := entries.filter fun entry => criterion.admits entry
  let hits := admitted.map fun entry => (criterion.score entries 1.0 entry, entry.document)
  hits.mergeSort fun a b => b.1 ≤ a.1

/-- The part of a ranking that is collected: at most so many hits, after those passed over. -/
structure Window where
  limit : UInt64
  offset : UInt64
deriving Repr, DecidableEq

def Window.collect (window : Window) (hits : List Hit) : List Hit :=
  (hits.drop window.offset.toNat).take window.limit.toNat

/--
What is collected in an index of `total` documents. The limit is cut to their number, and at an
offset past all of them hits are only counted.
-/
def Paging.window? (paging : Paging) (total : UInt64) : Option Window :=
  if total ≤ paging.offset then none
  else
    let limit := if paging.limit = 0 then total else min paging.limit total
    some ⟨max limit 1, paging.offset⟩

/-- The part of a ranking that is shown. -/
def Paging.select (paging : Paging) (total : UInt64) (hits : List Hit) : List Hit :=
  match paging.window? total with
  | none => []
  | some window => window.collect hits

def searchDocuments [Segmenter] (schema : Schema) (documents : List Document)
    (criterion : Criterion) (paging : Paging) : Page :=
  let hits := rank (documents.map (Entry.ofDocument schema)) criterion
  let total := UInt64.ofNat documents.length
  Page.ofHits schema (paging.select total hits) (UInt64.ofNat hits.length) paging

end DocIndex
