import DocIndex.Storage.Stored

/-!
A tree of files. A path is the list of the names on the way from the top; what stands at a path is a
directory or a file, and the top is always a directory. A file holds text, bytes that are no text,
or the documents of an index.

A text names a file by the names on the way to it. The program works at the top of the tree, so it
makes no difference whether a text starts with a slash. The names are followed one after the other:
each is looked up in a directory that stands, also the name that leads back to the directory above.
-/

namespace DocIndex

namespace Storage

/-- Why the file system refuses an operation. -/
inductive IoFault where
  | notFound
  | alreadyExists
  | notADirectory
  | isADirectory
  | busy
  | pathNotSet
  | notUtf8
deriving Repr, DecidableEq

def IoFault.message : IoFault → String
  | .notFound => "No such file or directory (os error 2)"
  | .alreadyExists => "File exists (os error 17)"
  | .notADirectory => "Not a directory (os error 20)"
  | .isADirectory => "Is a directory (os error 21)"
  | .busy => "Device or resource busy (os error 16)"
  | .pathNotSet => "index path not set"
  | .notUtf8 => "stream did not contain valid UTF-8"

/-- The names from the top to a file or directory. -/
abbrev Path := List String

/-- Where a name leads from a directory; above the top there is nothing but the top. -/
def enter (path : Path) (name : String) : Path :=
  if name = "" ∨ name = "." then path
  else if name = ".." then path.dropLast
  else path ++ [name]

/-- Where names lead from a directory, the first one first, if directories stand all along. -/
def walk (path : Path) (names : List String) : Path :=
  names.foldl enter path

/-- Cuts a text at slashes; `name` holds the characters since the last one, last first. -/
def namesFrom (name : List Char) : List Char → List String
  | [] => [String.ofList name.reverse]
  | ch :: rest =>
      if ch = '/' then String.ofList name.reverse :: namesFrom [] rest
      else namesFrom (ch :: name) rest

def namesOf (text : String) : List String :=
  namesFrom [] text.toList

/-- The names in a text without the empty ones at its slashes. -/
def filledNames (text : String) : List String :=
  (namesOf text).filter (· ≠ "")

/-- The path that a text means, if directories stand all along. -/
def pathOf (text : String) : Path :=
  walk [] (namesOf text)

/-- All that some names lead to on their way from the top. -/
def way (names : List String) : List Path :=
  (List.range (names.length + 1)).map fun n => walk [] (names.take n)

/-- Tells whether the last name in a text is that of an entry in a directory. -/
def endsInName (text : String) : Bool :=
  match (filledNames text).getLast? with
  | none | some "." | some ".." => false
  | some _ => true

def isSlashed (text : String) : Bool :=
  text.toList.getLast? = some '/'

/--
The text of a path that goes on from another one; a text that starts with a slash stands alone.
-/
def joinText (base text : String) : String :=
  if text.toList.head? = some '/' ∨ base = "" then text
  else if base.toList.getLast? = some '/' then base ++ text
  else s!"{base}/{text}"

/-- The paths on the way to a path, from the top to the path itself. -/
def ancestors (path : Path) : List Path :=
  (List.range (path.length + 1)).map path.take

/-- What a file holds. -/
inductive Content where
  | text (text : String)
  /-- Bytes that are not UTF-8. -/
  | binary (bytes : List UInt8)
  | index (stored : StoredIndex)
deriving Repr, DecidableEq

/-- What stands at a path. -/
inductive Node where
  | directory
  | file (content : Content)
deriving Repr, DecidableEq

/-- The files and directories below the top. -/
structure Files where
  nodes : List (Path × Node) := []
deriving Repr, DecidableEq

namespace Files

def node? (files : Files) (path : Path) : Option Node :=
  match path with
  | [] => some .directory
  | path => files.nodes.lookup path

/-- Tells whether something stands at a path. -/
def hasNode (files : Files) (path : Path) : Bool :=
  (files.node? path).isSome

def isFile (files : Files) (path : Path) : Bool :=
  match files.node? path with
  | some (.file _) => true
  | _ => false

/-- The fault of an operation below a path, unless the path is a directory. -/
def directoryFault? (files : Files) (path : Path) : Option IoFault :=
  if (ancestors path).any files.isFile then some .notADirectory
  else if files.hasNode path then none
  else some .notFound

def put (files : Files) (path : Path) (node : Node) : Files :=
  ⟨files.nodes.filter (fun entry => entry.1 ≠ path) ++ [(path, node)]⟩

def read (files : Files) (path : Path) : Except IoFault Content :=
  match files.node? path with
  | some (.file content) => .ok content
  | some .directory => .error .isADirectory
  | none => .error ((files.directoryFault? path.dropLast).getD .notFound)

def readText (files : Files) (path : Path) : Except IoFault String :=
  match files.read path with
  | .ok (.text text) => .ok text
  | .ok (.index stored) => .ok stored.toText
  | .ok (.binary _) => .error .notUtf8
  | .error fault => .error fault

/-- Writes a file. -/
def write (files : Files) (path : Path) (content : Content) : Except IoFault Files :=
  match files.node? path with
  | some .directory => .error .isADirectory
  | _ =>
      match files.directoryFault? path.dropLast with
      | some fault => .error fault
      | none => .ok (files.put path (.file content))

/-- Removes a file; a path without a file stays as it is. -/
def removeFile (files : Files) (path : Path) : Files :=
  if files.isFile path then ⟨files.nodes.filter fun entry => entry.1 ≠ path⟩ else files

/-- Takes everything out of a directory. -/
def empty (files : Files) (path : Path) : Files :=
  ⟨files.nodes.filter fun entry => !(path.isPrefixOf entry.1 && entry.1 ≠ path)⟩

/-- Gives a file a new path, where it replaces a file. -/
def rename (files : Files) (source target : Path) : Except IoFault Files :=
  match files.read source, files.node? target with
  | .error fault, _ => .error fault
  | .ok _, some .directory => .error .isADirectory
  | .ok content, _ => (files.removeFile source).write target content

/-! Files by texts -/

/-- Follows names from a directory. Each is looked up in a directory that stands. -/
def follow (files : Files) (path : Path) : List String → Except IoFault Path
  | [] => .ok path
  | name :: rest =>
      match files.node? path with
      | some .directory => follow files (enter path name) rest
      | some (.file _) => .error .notADirectory
      | none => .error .notFound

/-- The path that a text leads to, whether or not something stands there. -/
def resolve (files : Files) (text : String) : Except IoFault Path :=
  if text = "" then .error .notFound else files.follow [] (namesOf text)

/-- Tells whether a text leads to something that stands. -/
def existsAt (files : Files) (text : String) : Bool :=
  match files.resolve text with
  | .ok path => files.hasNode path
  | .error _ => false

def isFileAt (files : Files) (text : String) : Bool :=
  match files.resolve text with
  | .ok path => files.isFile path
  | .error _ => false

def readAt (files : Files) (text : String) : Except IoFault Content :=
  (files.resolve text).bind files.read

def readTextAt (files : Files) (text : String) : Except IoFault String :=
  (files.resolve text).bind files.readText

def writeAt (files : Files) (text : String) (content : Content) : Except IoFault Files :=
  (files.resolve text).bind fun path => files.write path content

def removeFileAt (files : Files) (text : String) : Files :=
  match files.resolve text with
  | .ok path => files.removeFile path
  | .error _ => files

/-- Gives a file a new path. Where a slash follows the new name only a directory could be put. -/
def renameAt (files : Files) (source target : String) : Except IoFault Files := do
  let path ← files.resolve source
  let place ← files.resolve target
  if !endsInName target then .error .busy
  else if isSlashed target then .error .notADirectory
  else files.rename path place

/-- Makes the directory that some names lead to. -/
def makeDirectory (files : Files) (names : List String) : Except IoFault Files :=
  match files.follow [] names with
  | .error fault => .error fault
  | .ok path =>
      if files.hasNode path then .error .alreadyExists else .ok (files.put path .directory)

/-- Tells whether names lead to a directory that stands. -/
def hasDirectory (files : Files) (names : List String) : Bool :=
  match files.follow [] names with
  | .ok path => files.node? path = some .directory
  | .error _ => false

/-- Makes the directory that some names lead to, unless it stands. -/
def ensureDirectory (files : Files) (names : List String) : Except (Files × IoFault) Files :=
  match files.makeDirectory names with
  | .ok made => .ok made
  | .error fault => if files.hasDirectory names then .ok files else .error (files, fault)

/-- The names to each of the directories above the last one. -/
def leading (names : List String) : List (List String) :=
  let names := names.filter (· ≠ ".")
  (List.range (names.length - 1)).map fun n => names.take (n + 1)

/--
Makes the directory of a text, and where there is no way to it yet the directories above it first,
from the top on. A failure leaves those that were made before it.
-/
def createDirectories (files : Files) (text : String) : Except (Files × IoFault) Files :=
  if text = "" then .ok files
  else
    let names := filledNames text
    match files.makeDirectory names with
    | .error .notFound => (leading names ++ [names]).foldlM ensureDirectory files
    | _ => files.ensureDirectory names

/--
Removes the directory of a text with all that is in it. What is in it goes first; the directory
stays if the text does not end in its name, or if the way of the text was among what has gone.
-/
def removeDirectoryAt (files : Files) (text : String) : Files :=
  match files.resolve text with
  | .error _ => files
  | .ok path =>
      if files.node? path = some .directory then
        let emptied := files.empty path
        if endsInName text && (emptied.resolve text).isOk then
          ⟨emptied.nodes.filter fun entry => entry.1 ≠ path⟩
        else emptied
      else files

end Files

end Storage

end DocIndex
