import DocIndex.Document.Typed
import DocIndex.Query.Error
import DocIndex.Storage.Files

/-!
Why an operation on an index fails.
-/

namespace DocIndex

/-- Why the index itself refuses an operation. -/
inductive EngineFault where
  | budgetTooSmall
  | budgetTooLarge
  | directoryMissing (directory : String)
  | notADirectory (directory : String)
  /-- The directory holds documents already. -/
  | indexExists
  /-- The files of the index cannot be read. -/
  | unreadable
  /-- The files of the index cannot be written. -/
  | unwritable
  /-- Terms are looked up in a field that has none. -/
  | fieldWithoutTerms (name : String)
  /-- A phrase is looked up in a field of which no positions are kept. -/
  | fieldWithoutPositions (name : String)
  /-- More edits than a search for misspelt words can allow. -/
  | tooManyEdits (distance : Nat)
deriving Repr, DecidableEq

/-- The least memory budget of a writer in bytes, however many threads it may have. -/
def leastBudget : Nat := 15000000

/-- What a thread of a writer gets of the memory budget is below this number of bytes. -/
def budgetBound : Nat := 4293967295

/-- Edit distances are below this number. -/
def editBound : Nat := 3

def EngineFault.message : EngineFault → String
  | .budgetTooSmall =>
      s!"An invalid argument was passed: 'The memory arena in bytes per thread needs to be at least {leastBudget}.'"
  | .budgetTooLarge =>
      s!"An invalid argument was passed: 'The memory arena in bytes per thread cannot exceed {budgetBound}'"
  | .directoryMissing directory =>
      s!"Failed to open the directory: 'DoesNotExist({Text.quoted directory})'"
  | .notADirectory directory =>
      s!"Failed to open the directory: 'NotADirectory({Text.quoted directory})'"
  | .indexExists => "Index already exists"
  | .unreadable => "Data corrupted: 'Meta file cannot be deserialized.'"
  | .unwritable => "An IO error occurred: 'No such file or directory (os error 2)'"
  | .fieldWithoutTerms name => s!"Schema error: 'Field {Text.quoted name} is not indexed.'"
  | .fieldWithoutPositions name =>
      s!"Schema error: 'Applied phrase query on field {Text.quoted name}, which does not have positions indexed'"
  | .tooManyEdits distance =>
      s!"An invalid argument was passed: 'Levenshtein distance of {distance} is not allowed. Choose a value less than {editBound}'"

/-- Why an operation on an index fails. -/
inductive IndexError where
  | engine (fault : EngineFault)
  | io (fault : Storage.IoFault)
  | schema (error : SchemaError)
  | document (error : DocumentError)
  | query (error : QueryError)
  | indexExists (path : String)
  | schemaMissing (path : String)
  | schemaMismatch (path : String)
  /-- Another writer works on the directory. -/
  | lockBusy
  | readOnly
  | closed
deriving Repr

def IndexError.message : IndexError → String
  | .engine fault => s!"Tantivy error: {fault.message}"
  | .io fault => s!"IO error: {fault.message}"
  | .schema error => error.message
  | .document error => error.message
  | .query error => error.message
  | .indexExists path => s!"An index already exists at {path}"
  | .schemaMissing path => s!"No schema metadata found at {path}"
  | .schemaMismatch path => s!"Persisted schema does not match the index at {path}"
  | .lockBusy =>
      "Index is locked by another writer: Failed to acquire index lock. If you are using a regular directory, this means there is already an `IndexWriter` working on this `Directory`, in this process or in a different process."
  | .readOnly => "Index was opened read-only"
  | .closed => "Index handle is closed"

/-- The error that caused an error, as far as it is told apart. -/
def IndexError.cause? : IndexError → Option String
  | .io fault => some fault.message
  | _ => none

end DocIndex
