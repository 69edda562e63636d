import DocIndex.Index.Directory

/-!
The command line. Each command works on the index of a directory: it creates the index, adds the
documents of a file line by line and commits them together, answers a query, or counts the
documents. Lines that are no documents are skipped and counted; a file that cannot be read to its
end adds nothing at all.
-/

namespace DocIndex

open Storage

inductive CommandError where
  | invalidArguments
  | schemaFile (path : String) (fault : IoFault)
  | documentFile (path : String) (fault : IoFault)
  | reading (fault : IoFault)
  | index (error : IndexError)
deriving Repr

namespace CommandError

def message : CommandError → String
  | .invalidArguments => "invalid arguments"
  | .schemaFile path _ => s!"读取 Schema 文件失败: {path}"
  | .documentFile path _ => s!"打开文档文件失败: {path}"
  | .reading fault => fault.message
  | .index error => error.message

def cause? : CommandError → Option String
  | .schemaFile _ fault => some fault.message
  | .documentFile _ fault => some fault.message
  | .index error => error.cause?
  | .invalidArguments | .reading _ => none

/-- What is printed about an error. -/
def report (error : CommandError) : String :=
  match error.cause? with
  | none => s!"Error: {error.message}\n"
  | some cause => s!"Error: {error.message}\n\nCaused by:\n    {cause}\n"

end CommandError

namespace Command

/-- What a command prints, and the number it ends with. -/
structure Outcome where
  stdout : String := ""
  stderr : String := ""
  status : UInt32 := 0
deriving Repr, DecidableEq

/-- What is printed when the arguments are wrong. -/
def usage : String :=
  "用法:\n  jsonsearch create <dir> <schema.json>   创建索引\n  jsonsearch add <dir> <docs.jsonl>       逐行添加文档并提交\n  jsonsearch search <dir> <query-json>    执行查询\n  jsonsearch count <dir>                  已提交文档数\n"

def Outcome.ofResult : Except CommandError String → Outcome
  | .ok text => { stdout := text }
  | .error .invalidArguments =>
      { stderr := usage ++ CommandError.invalidArguments.report, status := 1 }
  | .error fault => { stderr := fault.report, status := 1 }

def optionsOf (settings : Settings) (directory : String) (readOnly : Bool) : IndexOptions :=
  { path := some directory, settings := settings, readOnly := readOnly }

def create (settings : Settings) (disk : Disk) (directory schemaFile : String) :
    Disk × Except CommandError String :=
  match disk.files.readTextAt schemaFile with
  | .error fault => (disk, .error (.schemaFile schemaFile fault))
  | .ok text =>
      match Index.createFromText disk (optionsOf settings directory false) text with
      | (disk, .error fault) => (disk, .error (.index fault))
      | (disk, .ok index) =>
          let count := (index.schema.map (·.fields.length)).toOption.getD 0
          (index.drop disk, .ok s!" [索引] 已创建 {directory} ({count} 个字段)\n")

/--
The lines of a text or of bytes; `line` holds what was seen since the last line end, last first. A
carriage return before a line end belongs to it.
-/
def cutLines {α : Type} [DecidableEq α] (newline carriage : α) (line : List α) :
    List α → List (List α)
  | [] => if line.isEmpty then [] else [line.reverse]
  | a :: rest =>
      if a = newline then
        let line := if line.head? = some carriage then line.tail else line
        line.reverse :: cutLines newline carriage [] rest
      else cutLines newline carriage (a :: line) rest

/-- A line of a file, if it can be read. -/
abbrev Line := Except IoFault String

def lineOfBytes (bytes : List UInt8) : Line :=
  match String.fromUTF8? ⟨bytes.toArray⟩ with
  | some text => .ok text
  | none => .error .notUtf8

def linesOfText (text : String) : List Line :=
  (cutLines '\n' '\r' [] text.toList).map fun line => .ok (String.ofList line)

/-- The lines of what a file holds. -/
def linesOf : Content → List Line
  | .text text => linesOfText text
  | .binary bytes => (cutLines 10 13 [] bytes).map lineOfBytes
  | .index stored => linesOfText stored.toText

/-- Opens a file of documents; that it is a directory is noticed when its first line is read. -/
def openLines (files : Files) (documentFile : String) : Except IoFault (List Line) :=
  match files.readAt documentFile with
  | .ok content => .ok (linesOf content)
  | .error .isADirectory => .ok [.error .isADirectory]
  | .error fault => .error fault

/-- The number of lines that became documents, and of those that did not. -/
structure Tally where
  added : Nat := 0
  skipped : Nat := 0
deriving Repr, DecidableEq

/--
Adds lines to an index one after the other. A blank line is passed over, a line that is no document
is skipped and counted, and a line that cannot be read puts an end to it.
-/
def addLines (index : Index) (tally : Tally) : List Line → Index × Except IoFault Tally
  | [] => (index, .ok tally)
  | .error fault :: _ => (index, .error fault)
  | .ok line :: rest =>
      if Text.isBlank line then addLines index tally rest
      else
        match index.add line with
        | .ok index => addLines index { tally with added := tally.added + 1 } rest
        | .error _ => addLines index { tally with skipped := tally.skipped + 1 } rest

/-- What is told about lines that were added, with the number of all documents since. -/
structure Report where
  tally : Tally
  total : Nat
deriving Repr, DecidableEq

def Report.message (report : Report) : String :=
  s!" [索引] 新增 {report.tally.added} 篇，跳过 {report.tally.skipped} 篇，共 {report.total} 篇\n"

/-- Commits what was added to an index, unless a line could not be read. -/
def commitLines (disk : Disk) (index : Index) :
    Except IoFault Tally → Except CommandError (Disk × Index × Report)
  | .error fault => .error (.reading fault)
  | .ok tally => do
      let (disk, index) ← (index.commit disk).mapError .index
      let total ← index.size.mapError .index
      return (disk, index, ⟨tally, total⟩)

def add (settings : Settings) (disk : Disk) (directory documentFile : String) :
    Disk × Except CommandError Report :=
  match Index.openExisting disk (optionsOf settings directory false) with
  | .error fault => (disk, .error (.index fault))
  | .ok (disk, index) =>
      match openLines disk.files documentFile with
      | .error fault => (index.drop disk, .error (.documentFile documentFile fault))
      | .ok lines =>
          let (index, tally) := addLines index {} lines
          match commitLines disk index tally with
          | .error fault => (index.drop disk, .error fault)
          | .ok (disk, index, report) => (index.drop disk, .ok report)

def ask (settings : Settings) (disk : Disk) (directory : String)
    (question : Index → Except IndexError String) : Disk × Except CommandError String :=
  match Index.openExisting disk (optionsOf settings directory true) with
  | .error fault => (disk, .error (.index fault))
  | .ok (disk, index) => (index.drop disk, (question index).mapError .index)

def search [Segmenter] (settings : Settings) (disk : Disk) (directory query : String) :
    Disk × Except CommandError String :=
  ask settings disk directory fun index =>
    (index.search query).map fun page => page.toJson.pretty ++ "\n"

def count (settings : Settings) (disk : Disk) (directory : String) :
    Disk × Except CommandError String :=
  ask settings disk directory fun index => index.size.map fun size => s!"{size}\n"

def run [Segmenter] (settings : Settings) (disk : Disk) (arguments : List String) :
    Disk × Outcome :=
  match arguments with
  | ["create", directory, schemaFile] =>
      let (disk, result) := create settings disk directory schemaFile
      (disk, .ofResult result)
  | ["add", directory, documentFile] =>
      let (disk, result) := add settings disk directory documentFile
      (disk, .ofResult (result.map Report.message))
  | ["search", directory, query] =>
      let (disk, result) := search settings disk directory query
      (disk, .ofResult result)
  | ["count", directory] =>
      let (disk, result) := count settings disk directory
      (disk, .ofResult result)
  | _ => (disk, .ofResult (.error .invalidArguments))

def lookedAt (settings : Settings) (arguments : List String) : List String :=
  let ofDirectory (directory : String) : List String :=
    let schemaFile := joinText directory settings.schemaFile
    [directory, joinText directory storeFile, joinText directory listFile, schemaFile,
      Index.draftText schemaFile]
  match arguments with
  | ["create", directory, file] | ["add", directory, file] => file :: ofDirectory directory
  | [_, directory] | [_, directory, _] => ofDirectory directory
  | _ => []

/-- The arguments of a command with its paths as they are seen from the top. -/
def seenFrom (base : String) (arguments : List String) : List String :=
  let seen (text : String) : String := if text = "" then text else joinText base text
  match arguments with
  | ["create", directory, file] => ["create", seen directory, seen file]
  | ["add", directory, file] => ["add", seen directory, seen file]
  | ["search", directory, query] => ["search", seen directory, query]
  | ["count", directory] => ["count", seen directory]
  | arguments => arguments

end Command

end DocIndex
