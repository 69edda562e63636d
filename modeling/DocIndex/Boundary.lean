import DocIndex.Index.Directory
import DocIndex.Registry

/-!
Calls by handle, for callers that can pass nothing but numbers and strings of bytes, and get nothing
else back. A string may be absent or no UTF-8. A call that fails gives a fixed value and, to a
caller that wants it, a text that tells why; a call that succeeds gives no such text. Arguments are
looked at in order, and before the handle.
-/

namespace DocIndex

/-- Why a call fails. -/
inductive BoundaryError where
  | nullPointer (argument : String)
  | notUtf8 (argument : String)
  /-- A string that holds the character which ends strings cannot be handed out. -/
  | interiorNul
  | unknownHandle (handle : UInt64)
  | index (error : IndexError)
deriving Repr

def BoundaryError.message : BoundaryError → String
  | .nullPointer argument => s!"Null pointer passed for `{argument}`"
  | .notUtf8 argument => s!"Argument `{argument}` is not valid UTF-8"
  | .interiorNul => "Output contains an interior NUL byte"
  | .unknownHandle handle => s!"Unknown or released handle: {handle.toNat}"
  | .index error => error.message

namespace Boundary

/-- What all calls share. -/
structure State where
  disk : Disk := {}
  settings : Settings := {}
  registry : Registry Index := {}

/-- What a call hands out. -/
structure Reply (α : Type) where
  value : α
  /-- Why the call failed, if it did. -/
  fault : Option String
deriving Repr

/-- A string of bytes, or none. -/
abbrev Argument := Option ByteArray

/-- The character that ends strings of bytes. -/
def terminator : Char := '\x00'

/-- A text without the character that would end it. -/
def handOut (text : String) : String :=
  text.map fun ch => if ch = terminator then ' ' else ch

/-- The reply of a call, with the value that stands for failure. -/
def reply {α : Type} (fallback : α) : Except BoundaryError α → Reply α
  | .ok value => ⟨value, none⟩
  | .error fault => ⟨fallback, some (handOut fault.message)⟩

/--
Where a caller wants to be told why a call failed: nowhere, or in a place that holds no text or one
of an earlier call.
-/
abbrev Slot := Option (Option String)

/-- What a place for errors holds after a call; it is cleared before anything is written to it. -/
def note {α : Type} (slot : Slot) (reply : Reply α) : Slot :=
  let cleared : Slot := slot.map fun _ => none
  match reply.fault with
  | none => cleared
  | some text => cleared.map fun _ => some text

def textOf (name : String) : Argument → Except BoundaryError String
  | none => .error (.nullPointer name)
  | some bytes =>
      match String.fromUTF8? bytes with
      | some text => .ok text
      | none => .error (.notUtf8 name)

/-- A text that can be handed out as it is. -/
def owned (text : String) : Except BoundaryError String :=
  if text.toList.contains terminator then .error .interiorNul else .ok text

def resolve (state : State) (handle : UInt64) : Except BoundaryError Index :=
  match state.registry.get? handle with
  | some index => .ok index
  | none => .error (.unknownHandle handle)

def register (state : State) (disk : Disk) (index : Index) : State × UInt64 :=
  let (registry, handle) := state.registry.insert index
  ({ state with disk := disk, registry := registry }, handle)

def optionsOf (state : State) (path : String) : IndexOptions :=
  { path := some path, settings := state.settings }

/-- Creates an index; gives its handle, or zero. -/
def create (state : State) (path schema : Argument) : State × Reply UInt64 :=
  let texts := do return (← textOf "path" path, ← textOf "schema_json" schema)
  match texts with
  | .error fault => (state, reply 0 (.error fault))
  | .ok (path, schema) =>
      match Index.createFromText state.disk (optionsOf state path) schema with
      | (disk, .error fault) => ({ state with disk := disk }, reply 0 (.error (.index fault)))
      | (disk, .ok index) =>
          let (state, handle) := register state disk index
          (state, reply 0 (.ok handle))

/-- Opens an index; gives its handle, or zero. -/
def openExisting (state : State) (path : Argument) : State × Reply UInt64 :=
  match textOf "path" path with
  | .error fault => (state, reply 0 (.error fault))
  | .ok path =>
      match Index.openExisting state.disk (optionsOf state path) with
      | .error fault => (state, reply 0 (.error (.index fault)))
      | .ok (disk, index) =>
          let (state, handle) := register state disk index
          (state, reply 0 (.ok handle))

/-- The reply of a call that changes an index: zero, or minus one. -/
def changed (state : State) (handle : UInt64) (result : Except BoundaryError (Disk × Index)) :
    State × Reply Int32 :=
  match result with
  | .error fault => (state, reply (-1) (.error fault))
  | .ok (disk, index) =>
      ({ state with disk := disk, registry := state.registry.replace handle index },
        reply (-1) (.ok 0))

def onHandle (state : State) (handle : UInt64)
    (operation : Index → Except IndexError (Disk × Index)) : Except BoundaryError (Disk × Index) :=
  match resolve state handle with
  | .error fault => .error fault
  | .ok index => (operation index).mapError .index

def addDocument (state : State) (handle : UInt64) (document : Argument) :
    State × Reply Int32 :=
  changed state handle
    (match textOf "doc_json" document with
    | .error fault => .error fault
    | .ok text => onHandle state handle fun index => (index.add text).map (state.disk, ·))

/-- Commits the documents that were added. -/
def commit (state : State) (handle : UInt64) : State × Reply Int32 :=
  changed state handle (onHandle state handle (Index.commit state.disk))

/-- Gives up the documents that were added. -/
def rollback (state : State) (handle : UInt64) : State × Reply Int32 :=
  changed state handle
    (onHandle state handle fun index => index.rollback.map (state.disk, ·))

/-- The number of committed documents; zero if the handle stands for no open index. -/
def numDocuments (state : State) (handle : UInt64) : UInt64 :=
  match resolve state handle with
  | .error _ => 0
  | .ok index =>
      match index.size with
      | .error _ => 0
      | .ok size => UInt64.ofNat size

/-- Answers a request; gives the text of the page, or nothing. -/
def search [Segmenter] (state : State) (handle : UInt64) (request : Argument) :
    Reply (Option String) :=
  let result := do
    let text ← textOf "query_json" request
    let index ← resolve state handle
    let found ← (index.searchText text).mapError .index
    return some (← owned found)
  reply none result

/-- Closes the index of a handle, which stands for nothing from then on. -/
def release (state : State) (handle : UInt64) : State :=
  let (registry, index) := state.registry.remove handle
  match index with
  | none => { state with registry := registry }
  | some index => { state with registry := registry, disk := index.drop state.disk }

end Boundary

end DocIndex
