import DocIndex.Index.Demands
import DocIndex.Query.Request
import DocIndex.Search.Ranking
import DocIndex.Search.Sought
import DocIndex.Schema.Text
import DocIndex.Settings

/-!
Open indexes. An index shows the documents that were committed; documents that are added wait in a
buffer until they are committed together or given up together. At most one writer works on a
directory; a read-only index has no buffer. A closed index answers nothing but that it is closed.
-/

namespace DocIndex

open Storage

/-- The files, and the directories that a writer works on. -/
structure Disk where
  files : Files := {}
  locked : List Path := []
deriving Repr, DecidableEq

/-- What an index holds while it is open. -/
structure OpenIndex where
  schema : Schema
  /-- The documents that searches look at. -/
  committed : List Document
  /-- The documents added since then; none at all for a read-only index. -/
  buffer : Option (List Document)

/-- A handle on an index. -/
structure Index where
  /-- The directory as it was named. -/
  path : String
  settings : Settings
  /-- Nothing once the index is closed. -/
  state : Option OpenIndex

/-- The part of the hits that a request asks for under some settings. -/
def Request.paging (request : Request) (settings : Settings) : Paging :=
  ⟨settings.effectiveLimit (request.limit.getD settings.defaultLimit), request.offset⟩

/-- The name of the file with the documents. -/
def storeFile : String := "meta.json"

/-- The path of the file with the documents of a directory. -/
def storePath (directory : String) : Path :=
  pathOf (joinText directory storeFile)

namespace Index

/-- What the index holds, or the error that it is closed. -/
def opened (index : Index) : Except IndexError OpenIndex :=
  match index.state with
  | some state => .ok state
  | none => .error .closed

def isClosed (index : Index) : Bool :=
  index.state.isNone

def schema (index : Index) : Except IndexError Schema :=
  index.opened.map (·.schema)

/-- The number of committed documents. -/
def size (index : Index) : Except IndexError Nat :=
  index.opened.map (·.committed.length)

def buffered (index : Index) (state : OpenIndex) (document : Document) : Except IndexError Index :=
  match state.buffer with
  | none => .error .readOnly
  | some buffer =>
      .ok { index with state := some { state with buffer := some (buffer ++ [document]) } }

def addDocument (index : Index) (document : Document) : Except IndexError Index :=
  match index.opened with
  | .error fault => .error fault
  | .ok state => buffered index state document

def add (index : Index) (text : String) : Except IndexError Index :=
  match index.opened with
  | .error fault => .error fault
  | .ok state =>
      match Document.ofText state.schema text index.settings.strict with
      | .error fault => .error (.document fault)
      | .ok document => buffered index state document

/-- Commits the documents of the buffer. -/
def commit (disk : Disk) (index : Index) : Except IndexError (Disk × Index) :=
  match index.opened with
  | .error fault => .error fault
  | .ok state =>
      match state.buffer with
      | none => .error .readOnly
      | some buffer =>
          let documents := state.committed ++ buffer
          let stored : StoredIndex := ⟨state.schema.storage, documents⟩
          match disk.files.write (storePath index.path) (.index stored) with
          | .error _ => .error (.engine .unwritable)
          | .ok files =>
              let state := { state with committed := documents, buffer := some [] }
              .ok ({ disk with files := files }, { index with state := some state })

/-- Gives up the documents of the buffer. -/
def rollback (index : Index) : Except IndexError Index :=
  match index.opened with
  | .error fault => .error fault
  | .ok state =>
      match state.buffer with
      | none => .error .readOnly
      | some _ => .ok { index with state := some { state with buffer := some [] } }

def criterion [Segmenter] (schema : Schema) (settings : Settings) (query : QueryDef) :
    Except QueryError Criterion :=
  match Plan.compile schema settings.maxFuzzyDistance query with
  | .error fault => .error fault
  | .ok plan =>
      match plan.criterion schema with
      | .error fault => .error (.unsearchable fault)
      | .ok criterion => .ok criterion

/-- What an index holds, and the criterion of a query on it. -/
def sought [Segmenter] (index : Index) (query : QueryDef) :
    Except IndexError (OpenIndex × Criterion) :=
  match index.opened with
  | .error fault => .error fault
  | .ok state =>
      match criterion state.schema index.settings query with
      | .error fault => .error (.query fault)
      | .ok criterion =>
          match criterion.refusal? state.schema with
          | some fault => .error (.engine fault)
          | none => .ok (state, criterion)

/-- All hits of a query among the committed documents, best first. -/
def ranking [Segmenter] (index : Index) (query : QueryDef) : Except IndexError (List Hit) :=
  (index.sought query).map fun (state, criterion) =>
    rank (state.committed.map (Entry.ofDocument state.schema)) criterion

def answer [Segmenter] (index : Index) (request : Request) : Except IndexError Page :=
  match index.sought request.query with
  | .error fault => .error fault
  | .ok (state, criterion) =>
      let paging := request.paging index.settings
      .ok (searchDocuments state.schema state.committed criterion paging)

/-- Answers a query with the default paging. -/
def query [Segmenter] (index : Index) (query : QueryDef) : Except IndexError Page :=
  index.answer ⟨query, none, 0⟩

/-- Answers the text of a request. -/
def search [Segmenter] (index : Index) (text : String) : Except IndexError Page :=
  match Request.ofText text with
  | .error fault => .error (.query fault)
  | .ok request => index.answer request

/-- Answers the text of a request with the text of a page. -/
def searchText [Segmenter] (index : Index) (text : String) : Except IndexError String :=
  (index.search text).map Page.toText

/-- Gives up the directory that a writer works on. -/
def unlock (disk : Disk) (index : Index) (state : OpenIndex) : Disk :=
  match state.buffer with
  | none => disk
  | some _ => { disk with locked := disk.locked.erase (pathOf index.path) }

/-- Closes an index; documents that were not committed are lost. -/
def close (disk : Disk) (index : Index) : Except IndexError (Disk × Index) :=
  match index.opened with
  | .error fault => .error fault
  | .ok state => .ok (unlock disk index state, { index with state := none })

/-- Gives up an index, closed or not. -/
def drop (disk : Disk) (index : Index) : Disk :=
  match index.state with
  | none => disk
  | some state => unlock disk index state

end Index

end DocIndex
