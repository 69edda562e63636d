import DocIndex.Command

/-!
The program. It reads the settings and the files that a command looks at, runs the command on them,
writes back what the command changed, and prints what it prints.
-/

namespace DocIndex.Program

open Storage

/-- The environment variable that names the settings file. -/
def settingsVariable : String := "JSONSEARCH_CONFIG"

/-- The settings file if none is named. -/
def settingsFile : String := "./jsonsearch.toml"

/-- The name of a path for the file system, given the name of the top. -/
def nameOf (top : String) (path : Path) : String :=
  top ++ String.intercalate "/" path

/-- The bytes of a file, or nothing if there is no file that can be read. -/
def bytesOf? (name : String) : IO (Option ByteArray) := do
  try
    return some (← IO.FS.readBinFile name)
  catch _ =>
    return none

/-- Tells whether something stands at a path. -/
def isThere (name : String) : IO Bool := do
  try
    let _ ← IO.FS.realPath name
    return true
  catch _ =>
    return false

def contentOf (path : Path) (bytes : ByteArray) : Content :=
  match String.fromUTF8? bytes with
  | none => .binary bytes.toList
  | some text =>
      if path.getLast? = some storeFile then
        match StoredIndex.ofText? text with
        | some stored => .index stored
        | none => .text text
      else .text text

/-- The names of what is in a directory. -/
def entriesOf (name : String) : IO (List String) := do
  try
    let entries ← (← IO.FS.realPath name).readDir
    return entries.toList.map (·.fileName)
  catch _ =>
    return []

def takeNode (top : String) (files : Files) (path : Path) : IO Files := do
  if files.hasNode path then return files
  let name := nameOf top path
  match ← bytesOf? name with
  | some bytes => return files.put path (.file (contentOf path bytes))
  | none => if ← isThere name then return files.put path .directory else return files

/-- Takes what stands on the way of a text into the files, and what is in the directory it names. -/
def takeText (top : String) (files : Files) (text : String) : IO Files := do
  let path := pathOf text
  let entries ← entriesOf (nameOf top path)
  (way (namesOf text) ++ entries.map fun name => path ++ [name]).foldlM (takeNode top) files

def writeNode (name : String) : Node → IO Unit
  | .directory => IO.FS.createDirAll name
  | .file (.text text) => IO.FS.writeFile name text
  | .file (.binary bytes) => IO.FS.writeBinFile name ⟨bytes.toArray⟩
  | .file (.index stored) => IO.FS.writeFile name stored.toText

/-- Removes a node, unless it went with the directory that it was in. -/
def removeNode (name : String) : Node → IO Unit
  | .directory => do if ← isThere name then IO.FS.removeDirAll name
  | .file _ => do if ← isThere name then IO.FS.removeFile name

/-- Writes the nodes that changed and removes those that are gone. -/
def writeChanges (top : String) (before after : Files) : IO Unit := do
  for (path, node) in after.nodes do
    if before.node? path ≠ some node then writeNode (nameOf top path) node
  for (path, node) in before.nodes do
    if !after.hasNode path then removeNode (nameOf top path) node

/-- Tells whether names lead out of the directory that they start from. -/
def leadsOut (path : Path) : List String → Bool
  | [] => false
  | name :: rest => (name = ".." && path = []) || leadsOut (enter path name) rest

/-- Tells whether a text names something below the directory that the program was started in. -/
def isBelow (text : String) : Bool :=
  text.toList.head? ≠ some '/' && !leadsOut [] (namesOf text)

def loadSettings : IO Settings := do
  let name := (← IO.getEnv settingsVariable).getD settingsFile
  let bytes ← bytesOf? name
  return Settings.load (bytes.bind String.fromUTF8?)

/--
Runs the command of some arguments. The top of its tree is the directory that the program was
started in; if that will not do, it is the top of the file system, and paths are given from there.
-/
def runCommand [Segmenter] (arguments : List String) : IO UInt32 := do
  let settings ← loadSettings
  let below := (Command.lookedAt settings arguments).all isBelow
  let top := if below then "./" else "/"
  let start ← IO.currentDir
  let arguments := if below then arguments else Command.seenFrom start.toString arguments
  let files ← (Command.lookedAt settings arguments).foldlM (takeText top) {}
  let (disk, outcome) := Command.run settings { files := files } arguments
  writeChanges top files disk.files
  IO.print outcome.stdout
  IO.eprint outcome.stderr
  return outcome.status

end DocIndex.Program

/-- Runs the program, which has no dictionary to find words by. -/
def main (arguments : List String) : IO UInt32 :=
  let _ := DocIndex.Segmenter.byRuns
  DocIndex.Program.runCommand arguments
