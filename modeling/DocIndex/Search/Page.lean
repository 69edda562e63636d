import DocIndex.Document.Typed
import DocIndex.Json.Stream

/-!
Pages of hits. A row shows the stored fields of a document and its score, with the keys in ascending
order. A page also tells how many documents match in all, so that a caller knows whether more
follow.
-/

namespace DocIndex

/-- The part of all hits that is asked for; a limit of zero means no bound. -/
structure Paging where
  limit : UInt64
  offset : UInt64
deriving Repr, DecidableEq

/-- A page of hits. -/
structure Page where
  rows : List Json
  /-- The number of rows. -/
  count : UInt64
  /-- The number of matching documents, on whatever page they are. -/
  totalCount : UInt64
  limit : UInt64
  offset : UInt64
deriving Repr, Inhabited

def scoreKey : String := "_score"

def scoreJson (score : Float32) : Json :=
  .ofFloat score.toFloat

/-- The members of a row for the stored fields from position `id` on. -/
def storedMembers (document : Document) (id : FieldId) : List FieldDef → List (String × Json)
  | [] => []
  | field :: rest =>
      match field.stored, (document.value? id).bind (FieldValue.shown? field.kind) with
      | true, some json => (field.name, json) :: storedMembers document (id + 1) rest
      | _, _ => storedMembers document (id + 1) rest

def Document.row (schema : Schema) (document : Document) (score : Float32) : Json :=
  .object (Json.sortMembers
    (storedMembers document 0 schema.fields ++ [(scoreKey, scoreJson score)]))

namespace Page

def ofRows (rows : List Json) (totalCount : UInt64) (paging : Paging) : Page :=
  ⟨rows, UInt64.ofNat rows.length, totalCount, paging.limit, paging.offset⟩

def ofHits (schema : Schema) (hits : List (Float32 × Document)) (totalCount : UInt64)
    (paging : Paging) : Page :=
  ofRows (hits.map fun (score, document) => document.row schema score) totalCount paging

/-- Whether hits follow after this page. -/
def hasMore (page : Page) : Bool :=
  page.offset + page.count < page.totalCount

def countJson (n : UInt64) : Json :=
  .integer n.toNat

def toJson (page : Page) : Json :=
  .object [("results", .array page.rows), ("count", countJson page.count),
    ("total_count", countJson page.totalCount), ("limit", countJson page.limit),
    ("offset", countJson page.offset)]

def toText (page : Page) : String :=
  page.toJson.compact

open Json

/-- The keys of a page read so far. -/
structure Partial where
  rows : Option (List Json) := none
  count : Option Nat := none
  totalCount : Option Nat := none
  limit : Option Nat := none
  offset : Option Nat := none

def decodeRows : Stream.Step (List Json) :=
  Stream.sequence (Stream.value 2)

/-- Decodes the value of a key. -/
def decodeMember (key : String) (before : Partial) : Stream.Step Partial := fun c => do
  match key with
  | "results" =>
      let (a, c) ← Stream.once key before.rows decodeRows c
      return ({ before with rows := a }, c)
  | "count" =>
      let (a, c) ← Stream.once key before.count Stream.count c
      return ({ before with count := a }, c)
  | "total_count" =>
      let (a, c) ← Stream.once key before.totalCount Stream.count c
      return ({ before with totalCount := a }, c)
  | "limit" =>
      let (a, c) ← Stream.once key before.limit Stream.count c
      return ({ before with limit := a }, c)
  | "offset" =>
      let (a, c) ← Stream.once key before.offset Stream.count c
      return ({ before with offset := a }, c)
  | _ =>
      let (_, c) ← Stream.skipValue c
      return (before, c)

/-- The page with the keys read. -/
def Partial.finish (found : Partial) : Except DecodeFault Page := do
  let rows ← Stream.required "results" found.rows
  let count ← Stream.required "count" found.count
  let totalCount ← Stream.required "total_count" found.totalCount
  let limit ← Stream.required "limit" found.limit
  let offset ← Stream.required "offset" found.offset
  return {
    rows := rows
    count := UInt64.ofNat count
    totalCount := UInt64.ofNat totalCount
    limit := UInt64.ofNat limit
    offset := UInt64.ofNat offset }

def decodeMembers : Stream.Step Page := fun c => do
  let (found, c) ← Stream.membersFrom decodeMember c.fuel true {} c
  return (← found.finish, c)

def decodeCount (position : Nat) : Stream.Step Nat := fun c => do
  let (n, c) ← Stream.positionalItem false Stream.count c
  let some n := n | Stream.misshapen (.wrongLength position "struct SearchResults with 5 elements")
  return (n, c)

/-- Decodes a page that is given by position. -/
def decodeItems : Stream.Step Page := fun c => do
  let (rows, c) ← Stream.positionalItem true decodeRows c
  let some rows := rows
    | Stream.misshapen (.wrongLength 0 "struct SearchResults with 5 elements")
  let (count, c) ← decodeCount 1 c
  let (totalCount, c) ← decodeCount 2 c
  let (limit, c) ← decodeCount 3 c
  let (offset, c) ← decodeCount 4 c
  let page : Page :=
    ⟨rows, UInt64.ofNat count, UInt64.ofNat totalCount, UInt64.ofNat limit, UInt64.ofNat offset⟩
  return (page, c)

def ofText (text : String) : Except DecodeFault Page :=
  Stream.decode (Stream.record "struct SearchResults" decodeMembers decodeItems) text

end Page

end DocIndex
