import DocIndex.Toml.Reader

/-!
Settings: the memory of a writer, the name of the schema file, paging defaults, the greatest edit
distance, and whether documents may have unknown keys. They can be read from a TOML document;
whatever it does not say keeps its default, and keys it should not have are ignored.
-/

namespace DocIndex

/-- The settings of an index. -/
structure Settings where
  /-- The memory budget of a writer in bytes. -/
  writerMemory : UInt64 := 50000000
  /-- The name of the file that holds the schema, in the directory of the index. -/
  schemaFile : String := "_schema.json"
  /-- The limit of a request that has none. -/
  defaultLimit : UInt64 := 100
  /-- The greatest limit; zero means no bound. -/
  maxLimit : UInt64 := 0
  /-- The greatest edit distance of fuzzy queries. -/
  maxFuzzyDistance : UInt8 := 2
  /-- Documents with unknown keys are refused. -/
  strict : Bool := false
deriving Repr, DecidableEq, Inhabited

namespace Settings

open Toml (Value Entries)

/-- A count of 64 bits. -/
def countOf : Value → Option UInt64
  | .integer n => if 0 ≤ n then some (UInt64.ofNat n.toNat) else none
  | _ => none

/-- A count of 8 bits. -/
def byteOf : Value → Option UInt8
  | .integer n => if 0 ≤ n ∧ n < 256 then some (UInt8.ofNat n.toNat) else none
  | _ => none

def stringOf : Value → Option String
  | .string s => some s
  | _ => none

def booleanOf : Value → Option Bool
  | .boolean b => some b
  | _ => none

/-- Takes a value into the settings. -/
abbrev Setter := Settings → Value → Option Settings

def indexKeys : List (String × Setter) :=
  [("writer_memory", fun s v => (countOf v).map fun n => { s with writerMemory := n }),
    ("schema_file", fun s v => (stringOf v).map fun name => { s with schemaFile := name })]

def searchKeys : List (String × Setter) :=
  [("default_limit", fun s v => (countOf v).map fun n => { s with defaultLimit := n }),
    ("max_limit", fun s v => (countOf v).map fun n => { s with maxLimit := n }),
    ("max_fuzzy_distance", fun s v => (byteOf v).map fun n => { s with maxFuzzyDistance := n })]

def documentKeys : List (String × Setter) :=
  [("strict", fun s v => (booleanOf v).map fun b => { s with strict := b })]

/-- Takes the entries of a table; unknown keys are ignored. -/
def takeEntries (keys : List (String × Setter)) (settings : Settings) : Entries → Option Settings
  | [] => some settings
  | (key, value) :: rest =>
      match keys.lookup key with
      | none => takeEntries keys settings rest
      | some set =>
          match set settings value with
          | none => none
          | some settings => takeEntries keys settings rest

/-- Takes values by position; values without a key are ignored. -/
def takeItems (settings : Settings) : List (String × Setter) → List Value → Option Settings
  | (_, set) :: keys, value :: rest =>
      match set settings value with
      | none => none
      | some settings => takeItems settings keys rest
  | _, _ => some settings

/-- Takes a section, which is a table or a list of values by position. -/
def takeSection (keys : List (String × Setter)) : Setter := fun settings value =>
  match value with
  | .inlineTable entries | .table _ entries => takeEntries keys settings entries
  | .array items => takeItems settings keys items
  | .tables _ => none
  | _ => none

def sections : List (String × Setter) :=
  [("index", takeSection indexKeys), ("search", takeSection searchKeys),
    ("documents", takeSection documentKeys)]

/-- No fuzzy query allows more edits than this, whatever the settings say. -/
def fuzzyCap : UInt8 := 2

/-- Reads settings from a TOML document. -/
def ofText (text : String) : Option Settings := do
  let entries ← Toml.read? text
  let settings ← takeEntries sections {} entries
  return { settings with maxFuzzyDistance := min settings.maxFuzzyDistance fuzzyCap }

/-- Why a settings file gives no settings. -/
inductive FileFault where
  | unreadable
  | malformed
deriving Repr, DecidableEq

/-- The settings of a file, given by its text if it can be read. -/
def ofFile : Option String → Except FileFault Settings
  | none => .error .unreadable
  | some text =>
      match ofText text with
      | none => .error .malformed
      | some settings => .ok settings

/-- The settings of a file, or the defaults if it does not give any. -/
def load (file : Option String) : Settings :=
  match ofFile file with
  | .ok settings => settings
  | .error _ => {}

/-- The limit in force for a requested one, where zero means none: at most the greatest limit. -/
def effectiveLimit (settings : Settings) (requested : UInt64) : UInt64 :=
  if settings.maxLimit = 0 then requested
  else if requested = 0 then settings.maxLimit
  else min requested settings.maxLimit

end Settings

end DocIndex
