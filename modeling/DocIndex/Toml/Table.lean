/-!
The values of TOML and the tables that a document builds up. A table can be opened by a header, by
the path of a deeper header, or by a dotted key, and these may not be mixed freely: a header must
not open a table again, a dotted key must not reach into a table that a header opened, and a written
value, an inline table included, is closed.
-/

namespace DocIndex.Toml

/-- How a table came to be. -/
inductive Origin where
  /-- Opened by its own header, or the whole document. -/
  | header
  /-- Passed on the way to the table of a deeper header. -/
  | path
  /-- Passed by a dotted key. -/
  | dotted
deriving Repr, DecidableEq

/--
A TOML value. Floats, dates and times are kept as they are written. A table that is still growing
knows its origin; a list of tables grows by headers, its last table first.
-/
inductive Value where
  | string (value : String)
  | integer (value : Int)
  | float (written : String)
  | boolean (value : Bool)
  | time (written : String)
  | array (items : List Value)
  /-- A table written in one place. -/
  | inlineTable (entries : List (String × Value))
  | table (origin : Origin) (entries : List (String × Value))
  | tables (lastFirst : List (List (String × Value)))
deriving Repr, Inhabited

abbrev Entries := List (String × Value)

/-- The entries with the value of a key replaced, or added at the end. -/
def Entries.set (key : String) (value : Value) : Entries → Entries
  | [] => [(key, value)]
  | (k, v) :: rest => if k = key then (key, value) :: rest else (k, v) :: Entries.set key value rest

/-- Changes the table at a path of header keys, and makes the tables on the way that are missing. -/
def withinPath (change : Entries → Option Entries) : List String → Entries → Option Entries
  | [], entries => change entries
  | key :: rest, entries =>
      match entries.lookup key with
      | none => do
          let inner ← withinPath change rest []
          return entries.set key (.table .path inner)
      | some (.table origin inner) => do
          let inner ← withinPath change rest inner
          return entries.set key (.table origin inner)
      | some (.tables (last :: earlier)) => do
          let last ← withinPath change rest last
          return entries.set key (.tables (last :: earlier))
      | some _ => none

def openTable (key : String) (entries : Entries) : Option Entries :=
  match entries.lookup key with
  | none => some (entries.set key (.table .header []))
  | some (.table .path inner) => some (entries.set key (.table .header inner))
  | some _ => none

/-- Adds a table to the list of a header with this last key. -/
def openListItem (key : String) (entries : Entries) : Option Entries :=
  match entries.lookup key with
  | none => some (entries.set key (.tables [[]]))
  | some (.tables earlier) => some (entries.set key (.tables ([] :: earlier)))
  | some _ => none

/-- Adds a value under a dotted key. Below the first key only tables of dotted keys are entered. -/
def addDotted (value : Value) : List String → Entries → Option Entries
  | [], _ => none
  | [key], entries =>
      match entries.lookup key with
      | none => some (entries.set key value)
      | some _ => none
  | key :: rest, entries =>
      match entries.lookup key with
      | none => do
          let inner ← addDotted value rest []
          return entries.set key (.table .dotted inner)
      | some (.table .dotted inner) => do
          let inner ← addDotted value rest inner
          return entries.set key (.table .dotted inner)
      | some (.table .path inner) =>
          match rest with
          | [_] => none
          | _ => do
              let inner ← addDotted value rest inner
              return entries.set key (.table .path inner)
      | some (.tables (last :: earlier)) =>
          match rest with
          | [_] => none
          | _ => do
              let last ← addDotted value rest last
              return entries.set key (.tables (last :: earlier))
      | some _ => none

def inlineTable (pairs : List (List String × Value)) : Option Value := do
  let entries ← pairs.foldlM (fun entries (path, value) => addDotted value path entries) []
  return .inlineTable entries

end DocIndex.Toml
