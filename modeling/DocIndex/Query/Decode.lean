import DocIndex.Query.Definition
import DocIndex.Document.Value
import DocIndex.Json.Stream

/-!
Queries in JSON. A query is an object whose `type` names its type and whose other members give its
parts, in any order; unknown members are ignored. It may also be a list of its type and its parts in
their order. A text can be decoded while it is read; then the type is looked at as soon as it is
met, and the other members only once the whole query has been read.
-/

namespace DocIndex.Query

open Json (Mismatch DecodeFault)
open Json.Mismatch

/-- What messages call a query. -/
def queryName : String :=
  "internally tagged enum QueryDef"

def stringOf : Json → Except Mismatch String
  | .string s => .ok s
  | json => .error (wrongType json "a string")

/-- Decodes every item of a list. -/
def allOf {α : Type} (decode : Json → Except Mismatch α) : List Json → Except Mismatch (List α)
  | [] => .ok []
  | item :: rest =>
      match decode item with
      | .error fault => .error fault
      | .ok a =>
          match allOf decode rest with
          | .error fault => .error fault
          | .ok as => .ok (a :: as)

def stringsOf : Json → Except Mismatch (List String)
  | .array items => allOf stringOf items
  | json => .error (wrongType json "a sequence")

/-- Decodes an integer that lies in the range of the named target type. -/
def integerOf (target : String) (least bound : Int) : Json → Except Mismatch Int
  | .integer n => if least ≤ n ∧ n < bound then .ok n else .error (wrongValue (.integer n) target)
  | json => .error (wrongType json target)

/-- Decodes an integer of 8 unsigned bits. -/
def byteOf (json : Json) : Except Mismatch UInt8 :=
  (integerOf "u8" 0 UInt8.size json).map fun n => UInt8.ofNat n.toNat

/-- Decodes an integer of 64 unsigned bits. -/
def countOf (json : Json) : Except Mismatch UInt64 :=
  (integerOf "usize" 0 UInt64.size json).map fun n => UInt64.ofNat n.toNat

/-- Decodes an integer of 64 signed bits. -/
def int64Of (json : Json) : Except Mismatch Int64 :=
  (integerOf "i64" (-signWeight) signWeight json).map Int64.ofInt

/-- Decodes a number. -/
def floatOf (json : Json) : Except Mismatch Float :=
  match json.float? with
  | some x => .ok x
  | none => .error (wrongType json "f64")

/-- Decodes a value or `null`. -/
def optionalOf {α : Type} (decode : Json → Except Mismatch α) : Json → Except Mismatch (Option α)
  | .null => .ok none
  | json => (decode json).map some

/-- The queries of a list item: its type is the item itself. -/
def typeOfItem : Json → Except Mismatch QueryType
  | .string word => Json.Stream.variantOf queryTypeWords word
  | .integer (.ofNat n) =>
      match queryTypeWords[n]? with
      | some (_, type) => .ok type
      | none => .error (wrongValue (.integer n) "variant index 0 <= i < 9")
  | json => .error (wrongType json "variant identifier")

/-- The type among the members of an object, which must occur once. -/
def typeOfMembers : Option QueryType → List (String × Json) → Except Mismatch QueryType
  | none, [] => .error (missingField "type")
  | some type, [] => .ok type
  | before, (key, value) :: rest =>
      if key = "type" then
        match before with
        | some _ => .error (duplicateField "type")
        | none =>
            match typeOfItem value with
            | .error fault => .error fault
            | .ok type => typeOfMembers (some type) rest
      else typeOfMembers before rest

/-- Refuses a part that is given twice. -/
def unlessGiven {α β : Type} (name : String) (before : Option α) (value : Except Mismatch β) :
    Except Mismatch β :=
  match before with
  | some _ => .error (duplicateField name)
  | none => value

/-- A part that must be given. -/
def required {α : Type} (name : String) : Option α → Except Mismatch α
  | some a => .ok a
  | none => .error (missingField name)

/-- The parts of a query without sub-queries, each as far as it has been read. -/
structure Parts where
  main : Option String := none
  distance : Option UInt8 := none
  fields : Option (List String) := none
  value : Option Json := none
  minI64 : Option (Option Int64) := none
  maxI64 : Option (Option Int64) := none
  minF64 : Option (Option Float) := none
  maxF64 : Option (Option Float) := none

/-- Adds the part that names what is sought, or the field. -/
def Parts.addMain (parts : Parts) (name : String) (json : Json) : Except Mismatch Parts :=
  unlessGiven name parts.main ((stringOf json).map fun s => { parts with main := some s })

def Parts.addFields (parts : Parts) (json : Json) : Except Mismatch Parts :=
  unlessGiven "fields" parts.fields ((stringsOf json).map fun s => { parts with fields := some s })

def Parts.addDistance (parts : Parts) (json : Json) : Except Mismatch Parts :=
  unlessGiven "distance" parts.distance
    ((byteOf json).map fun n => { parts with distance := some n })

def Parts.addValue (parts : Parts) (json : Json) : Except Mismatch Parts :=
  unlessGiven "value" parts.value (.ok { parts with value := some json.canonical })

def Parts.addMinI64 (parts : Parts) (json : Json) : Except Mismatch Parts :=
  unlessGiven "min" parts.minI64
    ((optionalOf int64Of json).map fun n => { parts with minI64 := some n })

def Parts.addMaxI64 (parts : Parts) (json : Json) : Except Mismatch Parts :=
  unlessGiven "max" parts.maxI64
    ((optionalOf int64Of json).map fun n => { parts with maxI64 := some n })

def Parts.addMinF64 (parts : Parts) (json : Json) : Except Mismatch Parts :=
  unlessGiven "min" parts.minF64
    ((optionalOf floatOf json).map fun x => { parts with minF64 := some x })

def Parts.addMaxF64 (parts : Parts) (json : Json) : Except Mismatch Parts :=
  unlessGiven "max" parts.maxF64
    ((optionalOf floatOf json).map fun x => { parts with maxF64 := some x })

/-- The name of the part that a query of this type is about. -/
def mainName : QueryType → String
  | .text => "query"
  | .fuzzy => "term"
  | .phrase => "phrase"
  | .startsWith => "prefix"
  | _ => "field"

/-- A part of a query: its key, and how it is added. -/
abbrev Part := String × (Parts → Json → Except Mismatch Parts)

/-- The parts of a type of query in their order, sub-queries apart. -/
def partsOf (type : QueryType) : List Part :=
  let main : Part := (mainName type, fun parts => parts.addMain (mainName type))
  let fields : Part := ("fields", Parts.addFields)
  match type with
  | .text | .phrase | .startsWith => [main, fields]
  | .fuzzy => [main, ("distance", Parts.addDistance), fields]
  | .term => [main, ("value", Parts.addValue)]
  | .rangeI64 => [main, ("min", Parts.addMinI64), ("max", Parts.addMaxI64)]
  | .rangeF64 => [main, ("min", Parts.addMinF64), ("max", Parts.addMaxF64)]
  | .bool | .all => []

/-- The query of the parts read; the first missing part is the error. -/
def Parts.finish (type : QueryType) (parts : Parts) : Except Mismatch QueryDef := do
  match type with
  | .bool => .ok (.bool [] [] [])
  | .all => .ok .all
  | type =>
      let main ← required (mainName type) parts.main
      let fields := parts.fields.getD []
      match type with
      | .text => .ok (.text main fields)
      | .fuzzy => .ok (.fuzzy main (parts.distance.getD 2) fields)
      | .phrase => .ok (.phrase main fields)
      | .startsWith => .ok (.startsWith main fields)
      | .term => return .term main (← required "value" parts.value)
      | .rangeI64 => .ok (.rangeI64 main (parts.minI64.getD none) (parts.maxI64.getD none))
      | .rangeF64 => .ok (.rangeF64 main (parts.minF64.getD none) (parts.maxF64.getD none))
      | .bool | .all => .ok .all

def Parts.addMembers (known : List Part) (parts : Parts) :
    List (String × Json) → Except Mismatch Parts
  | [] => .ok parts
  | (key, json) :: rest =>
      match known.find? (·.1 = key) with
      | none => addMembers known parts rest
      | some (_, add) =>
          match add parts json with
          | .error fault => .error fault
          | .ok parts => addMembers known parts rest

/-- What messages call a type of query that is given by position. -/
def variantName (type : QueryType) : String :=
  match type with
  | .text => "struct variant QueryDef::Text with 2 elements"
  | .fuzzy => "struct variant QueryDef::Fuzzy with 3 elements"
  | .phrase => "struct variant QueryDef::Phrase with 2 elements"
  | .startsWith => "struct variant QueryDef::Prefix with 2 elements"
  | .term => "struct variant QueryDef::TermMatch with 2 elements"
  | .rangeI64 => "struct variant QueryDef::RangeI64 with 3 elements"
  | .rangeF64 => "struct variant QueryDef::RangeF64 with 3 elements"
  | .bool => "struct variant QueryDef::Bool with 3 elements"
  | .all => "struct variant QueryDef::All with 0 elements"

/-- The number of parts that cannot be left out when a query is given by position. -/
def requiredParts : QueryType → Nat
  | .term => 2
  | .bool | .all => 0
  | _ => 1

def Parts.addItems (parts : Parts) : List Part → List Json → Except Mismatch Parts
  | (_, add) :: known, json :: rest =>
      match add parts json with
      | .error fault => .error fault
      | .ok parts => addItems parts known rest
  | _, _ => .ok parts

/-- Refuses a list with more items than parts. -/
def checkSurplus (known given : Nat) : Except Mismatch Unit :=
  if given ≤ known then .ok ()
  else .error (wrongLength given
    (if known = 1 then "1 element in sequence" else s!"{known} elements in sequence"))

/-- The query, without sub-queries, of a type and the items that follow it. -/
def ofItems (type : QueryType) (items : List Json) : Except Mismatch QueryDef := do
  let known := partsOf type
  let parts ← ({} : Parts).addItems known items
  if items.length < requiredParts type then
    .error (wrongLength items.length (variantName type))
  else
    let query ← parts.finish type
    checkSurplus known.length items.length
    .ok query

/-- The query, without sub-queries, of a type and the members of an object. -/
def ofMembers (type : QueryType) (members : List (String × Json)) : Except Mismatch QueryDef := do
  let parts ← ({} : Parts).addMembers (partsOf type) members
  parts.finish type

/-- The clauses of a `bool` query as far as they have been read. -/
structure Clauses where
  must : Option (List QueryDef) := none
  should : Option (List QueryDef) := none
  mustNot : Option (List QueryDef) := none

/-- The three lists of clauses. -/
inductive ClauseList where
  | must
  | should
  | mustNot
deriving Repr, DecidableEq

def clauseKeys : List (String × ClauseList) :=
  [("must", .must), ("should", .should), ("must_not", .mustNot)]

/-- The clauses of a list, if they have been read. -/
def Clauses.get? (clauses : Clauses) : ClauseList → Option (List QueryDef)
  | .must => clauses.must
  | .should => clauses.should
  | .mustNot => clauses.mustNot

def Clauses.set (clauses : Clauses) (queries : List QueryDef) : ClauseList → Clauses
  | .must => { clauses with must := some queries }
  | .should => { clauses with should := some queries }
  | .mustNot => { clauses with mustNot := some queries }

def Clauses.finish (clauses : Clauses) : QueryDef :=
  .bool (clauses.must.getD []) (clauses.should.getD []) (clauses.mustNot.getD [])

mutual

/-- Decodes a query that has been read in full. -/
def ofJson : Json → Except Mismatch QueryDef
  | .object members =>
      match typeOfMembers none members with
      | .error fault => .error fault
      | .ok .bool => boolOfMembers {} members
      | .ok type => ofMembers type members
  | .array [] => .error (missingField "type")
  | .array (type :: items) =>
      match typeOfItem type with
      | .error fault => .error fault
      | .ok .bool => boolOfItems {} (clauseKeys.map (·.2)) items.length items
      | .ok type => ofItems type items
  | json => .error (wrongType json queryName)

/-- Decodes queries. -/
def listOfJson : List Json → Except Mismatch (List QueryDef)
  | [] => .ok []
  | item :: rest =>
      match ofJson item with
      | .error fault => .error fault
      | .ok query =>
          match listOfJson rest with
          | .error fault => .error fault
          | .ok queries => .ok (query :: queries)

def clausesOfJson : Json → Except Mismatch (List QueryDef)
  | .array items => listOfJson items
  | json => .error (wrongType json "a sequence")

/-- Decodes the lists of clauses among the members of an object. -/
def boolOfMembers (clauses : Clauses) : List (String × Json) → Except Mismatch QueryDef
  | [] => .ok clauses.finish
  | member :: rest =>
      match boolOfMember clauses member with
      | .error fault => .error fault
      | .ok clauses => boolOfMembers clauses rest

/-- Decodes a member that is a list of clauses; others are ignored. -/
def boolOfMember (clauses : Clauses) : String × Json → Except Mismatch Clauses
  | (key, json) =>
      match clauseKeys.lookup key with
      | none => .ok clauses
      | some list =>
          unlessGiven key (clauses.get? list)
            ((clausesOfJson json).map fun queries => clauses.set queries list)

/-- Decodes lists of clauses by position, for a query with `given` items in all. -/
def boolOfItems (clauses : Clauses) (lists : List ClauseList) (given : Nat) :
    List Json → Except Mismatch QueryDef
  | [] => .ok clauses.finish
  | json :: rest =>
      match lists with
      | [] => (checkSurplus clauseKeys.length given).map fun _ => clauses.finish
      | list :: lists =>
          match clausesOfJson json with
          | .error fault => .error fault
          | .ok queries => boolOfItems (clauses.set queries list) lists given rest

end

/-- A type and the rest of a query, which is a list of members or of items. -/
structure Tagged where
  type : QueryType
  content : Json

/-- Decodes what a type and the rest of a query mean. -/
def Tagged.decode : Tagged → Except Mismatch QueryDef
  | ⟨.bool, .array items⟩ => boolOfItems {} (clauseKeys.map (·.2)) items.length items
  | ⟨type, .array items⟩ => ofItems type items
  | ⟨.bool, .object members⟩ => boolOfMembers {} members
  | ⟨type, .object members⟩ => ofMembers type members
  | ⟨_, json⟩ => .error (wrongType json queryName)

open Json.Stream in
def readType : Step QueryType := fun c => do
  let (word, c) ← Json.Stream.string "variant identifier" c
  return (← Json.orMisshapen (variantOf queryTypeWords word), c)

/-- Reads a value within the container of a query. -/
def readPart : Json.Stream.Step Json := fun c =>
  Json.orUnreadable (Json.readValue c.fuel (Json.maxDepth - 1) c)

open Json.Stream in
/-- Reads the members of a query: its type, and the others with the last one first. -/
def readMembers : Step Tagged := fun c => do
  let member (key : String) (before : Option QueryType × List (String × Json)) :
      Step (Option QueryType × List (String × Json)) := fun c => do
    if key = "type" then
      let (type, c) ← once key before.1 readType c
      return ((type, before.2), c)
    else
      let (json, c) ← readPart c
      return ((before.1, (key, json) :: before.2), c)
  let ((type, members), c) ← membersFrom member c.fuel true (none, []) c
  let type ← Json.Stream.required "type" type
  return (⟨type, .object members.reverse⟩, c)

open Json.Stream in
def readItems : Step Tagged := fun c => do
  let (type, c) ← positionalItem true readType c
  let type ← Json.Stream.required "type" type
  let item (c : Json.Cursor) : Except DecodeFault (Option Json × Json.Cursor) :=
    positionalItem false readPart c
  let (items, c) ← readAll item c.fuel [] c
  return (⟨type, .array items⟩, c)
where
  /-- Reads items until there is none left. -/
  readAll (item : Step (Option Json)) : Nat → List Json → Step (List Json)
    | 0, _, c => unreadable (c.faultHere .endInList)
    | fuel + 1, read, c =>
        match item c with
        | .error fault => .error fault
        | .ok (none, c) => .ok (read.reverse, c)
        | .ok (some json, c) => readAll item fuel (json :: read) c

/-- Decodes a query while reading its text. -/
def ofText (text : String) : Except DecodeFault QueryDef :=
  Json.Stream.decode
    (fun c => do
      let (tagged, c) ← Json.Stream.record queryName readMembers readItems c
      return (← Json.orMisshapen tagged.decode, c))
    text

end DocIndex.Query
