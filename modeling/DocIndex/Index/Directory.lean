import DocIndex.Index.Handle

/-!
Creating an index in a directory and opening it again. Beside the documents the directory holds the
schema, in a file of its own; an index opens only if that schema keeps its fields as the documents
were kept. Creating checks everything it can before it touches the files, and takes away what it
wrote if a later step fails.
-/

namespace DocIndex

open Storage

/-- How an index is created or opened. -/
structure IndexOptions where
  path : Option String := none
  settings : Settings := {}
  /-- The memory budget of the writer in bytes; absent means the configured one. -/
  budget : Option Nat := none
  /-- Opens without a writer. -/
  readOnly : Bool := false
deriving Repr

/-- The name of the file that lists the files of an index. -/
def listFile : String := ".managed.json"

/-- The path of the file that lists the files of a directory. -/
def listPath (directory : String) : Path :=
  pathOf (joinText directory listFile)

namespace IndexOptions

/-- The memory budget in force. -/
def writerBudget (options : IndexOptions) : Nat :=
  options.budget.getD options.settings.writerMemory.toNat

/-- The path of the schema file in a directory, as text. -/
def schemaText (options : IndexOptions) (directory : String) : String :=
  joinText directory options.settings.schemaFile

end IndexOptions

namespace Index

/--
Takes a directory for a writer. It works with one thread, which gets the whole budget; where it has
more of them, the upper limit is on the share of each, so that greater budgets are taken as well.
-/
def lock (disk : Disk) (directory : Path) (budget : Nat) : Except IndexError Disk :=
  if directory ∈ disk.locked then .error .lockBusy
  else if budget < leastBudget then .error (.engine .budgetTooSmall)
  else if budgetBound ≤ budget then .error (.engine .budgetTooLarge)
  else .ok { disk with locked := directory :: disk.locked }

def isFileList (text : String) : Bool :=
  match Json.parse text with
  | .ok (.array items) => items.all fun
      | .string _ => true
      | _ => false
  | _ => false

/--
Why the engine cannot work in a directory, if it cannot. Where it can, it works from then on at the
path of the text, whatever the way there.
-/
def openingFault? (files : Files) (directory : String) : Option EngineFault :=
  match files.resolve directory with
  | .error _ => some (.directoryMissing directory)
  | .ok path =>
      match files.node? path with
      | some .directory => none
      | some (.file _) => some (.notADirectory directory)
      | none => some (.directoryMissing directory)

/-- Tells whether the list of files of a directory is missing or readable. -/
def hasReadableList (files : Files) (directory : String) : Bool :=
  match files.node? (listPath directory) with
  | none => true
  | some (.file (.text text)) => isFileList text
  | some _ => false

/-- The documents of a directory, if they can be read. -/
def stored (files : Files) (directory : String) : Except IndexError StoredIndex :=
  match files.read (storePath directory) with
  | .ok (.index stored) => .ok stored
  | _ => .error (.engine .unreadable)

/-- A step of creation: the files after it, or those left behind and the error. -/
abbrev Creation := Except (Files × IndexError) Files

/-- Goes on from the files if an operation on them succeeds. -/
def ioStep (files : Files) (result : Except IoFault Files) : Creation :=
  match result with
  | .ok files => .ok files
  | .error fault => .error (files, .io fault)

/-- Writes the files of an index without documents. -/
def writeStore (files : Files) (directory : String) (schema : Schema) : Creation :=
  match openingFault? files directory with
  | some fault => .error (files, .engine fault)
  | none =>
      if files.hasNode (storePath directory) then .error (files, .engine .indexExists)
      else if !hasReadableList files directory then .error (files, .engine .unreadable)
      else
        match files.write (listPath directory) (.text s!"[\"{storeFile}\"]") with
        | .error _ => .error (files, .engine .unwritable)
        | .ok listed =>
            match listed.write (storePath directory) (.index ⟨schema.storage, []⟩) with
            | .error _ => .error (listed, .engine .unwritable)
            | .ok files => .ok files

/-- The text of the path at which a file is prepared. -/
def draftText (target : String) : String :=
  target ++ ".tmp"

/-- Writes a text at another path and then gives it its own, so that no half of it is ever seen. -/
def writeWhole (files : Files) (target text : String) : Creation := do
  let drafted ← ioStep files (files.writeAt (draftText target) (.text text))
  ioStep drafted (drafted.renameAt (draftText target) target)

/-- Makes the directory of a new index; what was made of the way to it stays on a failure. -/
def makeWay (files : Files) (directory : String) : Creation :=
  (files.createDirectories directory).mapError fun (files, fault) => (files, .io fault)

def writeAll (files : Files) (directory schemaFile : String) (schema : Schema) : Creation := do
  let files ← makeWay files directory
  let files ← writeStore files directory schema
  writeWhole files schemaFile schema.toText

/-- The texts by which a failed creation takes away files, whether or not it wrote them. -/
def cleanUpTexts (directory schemaFile : String) : List String :=
  [joinText directory storeFile, joinText directory listFile, schemaFile, draftText schemaFile]

/--
Takes away what a failed creation wrote; `existed` tells whether the directory was there before.
-/
def cleanUp (files : Files) (directory schemaFile : String) (existed : Bool) : Files :=
  if existed then (cleanUpTexts directory schemaFile).foldl Files.removeFileAt files
  else files.removeDirectoryAt directory

/--
Creates an index on a schema. The disk is given in either case, as a failure may leave a trace.
-/
def create (disk : Disk) (options : IndexOptions) (schema : Schema) :
    Disk × Except IndexError Index :=
  match options.path with
  | none => (disk, .error (.io .pathNotSet))
  | some directory =>
      let schemaFile := options.schemaText directory
      if disk.files.existsAt schemaFile || disk.files.existsAt (joinText directory storeFile) then
        (disk, .error (.indexExists directory))
      else
        let existed := disk.files.existsAt directory
        let clean (files : Files) : Disk :=
          { disk with files := cleanUp files directory schemaFile existed }
        match writeAll disk.files directory schemaFile schema with
        | .error (files, fault) => (clean files, .error fault)
        | .ok files =>
            let locking := do
              let locked ← lock { disk with files := files } (pathOf directory) options.writerBudget
              let _ ← stored files directory
              return locked
            match locking with
            | .error fault => (clean files, .error fault)
            | .ok disk => (disk, .ok ⟨directory, options.settings, some ⟨schema, [], some []⟩⟩)

def createFromText (disk : Disk) (options : IndexOptions) (text : String) :
    Disk × Except IndexError Index :=
  match Schema.ofText text with
  | .error fault => (disk, .error (.schema fault))
  | .ok schema => create disk options schema

def createFromDefinition (disk : Disk) (options : IndexOptions) (definition : SchemaDef) :
    Disk × Except IndexError Index :=
  match definition.compile with
  | .error fault => (disk, .error (.schema fault))
  | .ok schema => create disk options schema

def readSchema (files : Files) (options : IndexOptions) (directory : String) :
    Except IndexError Schema :=
  let schemaFile := options.schemaText directory
  if !files.isFileAt schemaFile then .error (.schemaMissing directory)
  else
    match files.readTextAt schemaFile with
    | .error fault => .error (.io fault)
    | .ok text => (Schema.ofText text).mapError .schema

/--
Opens the index of a directory with the documents that were committed. They are those that the index
shows from then on; that one opened for reading turns to later commits after a while is left out.
-/
def openExisting (disk : Disk) (options : IndexOptions) : Except IndexError (Disk × Index) := do
  let directory ←
    match options.path with
    | none => Except.error (.io .pathNotSet)
    | some directory => .ok directory
  let schema ← readSchema disk.files options directory
  if let some fault := openingFault? disk.files directory then
    Except.error (.engine fault)
  if !hasReadableList disk.files directory then
    Except.error (.engine .unreadable)
  let found ← stored disk.files directory
  if found.storage ≠ schema.storage then
    Except.error (.schemaMismatch directory)
  else if options.readOnly then
    return (disk, ⟨directory, options.settings, some ⟨schema, found.documents, none⟩⟩)
  else
    let disk ← lock disk (pathOf directory) options.writerBudget
    return (disk, ⟨directory, options.settings, some ⟨schema, found.documents, some []⟩⟩)

end Index

end DocIndex
