import DocIndex.Boundary
import DocIndex.Proofs.Index.Reopening
import DocIndex.Proofs.Index.World
import DocIndex.Proofs.Json.Printing
import DocIndex.Proofs.Registry

/-!
Calls by handle do what moves in a world do. A handle stands for the position of an index among all
that were got; the position zero is left out, so that zero stands for nothing. What a call hands
out, and what it tells about a failure, is determined by what comes of the move.
-/

namespace DocIndex

/-! The texts of errors -/

theorem SchemaError.message_ne_empty (error : SchemaError) : error.message ≠ "" := by
  unfold message
  cases error <;>
    simp only [toString, ne_eq, String.append_eq_empty_iff, String.reduceEq, false_and,
      not_false_eq_true]

theorem DocumentError.message_ne_empty (error : DocumentError) : error.message ≠ "" := by
  unfold message
  cases error <;>
    simp only [toString, ne_eq, String.append_eq_empty_iff, String.reduceEq, false_and,
      not_false_eq_true]

theorem QueryError.message_ne_empty (error : QueryError) : error.message ≠ "" := by
  unfold message
  cases error <;>
    simp only [toString, ne_eq, String.append_eq_empty_iff, String.reduceEq, false_and,
      not_false_eq_true]

theorem IndexError.message_ne_empty (error : IndexError) : error.message ≠ "" := by
  unfold message
  cases error with
  | schema error => exact error.message_ne_empty
  | document error => exact error.message_ne_empty
  | query error => exact error.message_ne_empty
  | engine | io | indexExists | schemaMissing | schemaMismatch | lockBusy | readOnly | closed =>
      simp only [toString, ne_eq, String.append_eq_empty_iff, String.reduceEq, false_and,
        not_false_eq_true]

theorem BoundaryError.message_ne_empty (error : BoundaryError) : error.message ≠ "" := by
  unfold message
  cases error with
  | index error => exact error.message_ne_empty
  | nullPointer | notUtf8 | interiorNul | unknownHandle =>
      simp only [toString, ne_eq, String.append_eq_empty_iff, String.reduceEq, false_and,
        not_false_eq_true]

namespace Boundary

theorem handOut_ne_empty {text : String} (htext : text ≠ "") : handOut text ≠ "" := by
  intro hempty
  apply htext
  have hchars := congrArg String.toList hempty
  rw [handOut, String.toList_map] at hchars
  exact String.toList_eq_nil_iff.mp (List.map_eq_nil_iff.mp hchars)

theorem terminator_notMem_handOut (text : String) : terminator ∉ (handOut text).toList := by
  rw [handOut, String.toList_map, List.mem_map]
  rintro ⟨ch, -, hch⟩
  split at hch
  · exact absurd hch (by decide)
  · contradiction

/-- A text without terminators is handed out as it is. -/
theorem handOut_eq_self {text : String} (htext : terminator ∉ text.toList) :
    handOut text = text := by
  rw [← String.toList_inj, handOut, String.toList_map]
  refine (List.map_congr_left fun ch hch => ?_).trans (List.map_id _)
  exact if_neg fun hterminator : ch = terminator => htext (hterminator ▸ hch)

/-- The text of a page can be handed out as it is, whatever texts and names it shows. -/
theorem owned_toText (page : Page) : owned page.toText = .ok page.toText := by
  have hnotMem : terminator ∉ page.toText.toList := by
    intro hmem
    exact absurd (Json.isPrinted_compact _ terminator hmem) (by decide)
  rw [owned, if_neg (by simpa using hnotMem)]

/-! Calls -/

/-- A call by handle. -/
inductive Request where
  | create (path schema : Argument)
  | openExisting (path : Argument)
  | add (handle : UInt64) (document : Argument)
  | commit (handle : UInt64)
  | rollback (handle : UInt64)
  | size (handle : UInt64)
  | search (handle : UInt64) (request : Argument)
  | release (handle : UInt64)

/-- What a call hands out. -/
inductive Answer where
  | handle (handle : UInt64)
  | status (status : Int32)
  | count (count : UInt64)
  | text (text : Option String)
  | nothing

namespace Request

/-- Tells whether a call takes a place for errors. -/
def hasSlot : Request → Bool
  | .size _ | .release _ => false
  | _ => true

/-- What a call hands out if it fails. -/
def failure : Request → Answer
  | .create _ _ | .openExisting _ => .handle 0
  | .add _ _ | .commit _ | .rollback _ => .status (-1)
  | .size _ => .count 0
  | .search _ _ => .text none
  | .release _ => .nothing

/-- The state after a call, what it hands out, and what its place for errors holds. -/
def serve [Segmenter] (state : State) (slot : Slot) : Request → State × Answer × Slot
  | .create path schema =>
      let (after, reply) := Boundary.create state path schema
      (after, .handle reply.value, note slot reply)
  | .openExisting path =>
      let (after, reply) := Boundary.openExisting state path
      (after, .handle reply.value, note slot reply)
  | .add handle document =>
      let (after, reply) := addDocument state handle document
      (after, .status reply.value, note slot reply)
  | .commit handle =>
      let (after, reply) := Boundary.commit state handle
      (after, .status reply.value, note slot reply)
  | .rollback handle =>
      let (after, reply) := Boundary.rollback state handle
      (after, .status reply.value, note slot reply)
  | .size handle => (state, .count (numDocuments state handle), slot)
  | .search handle request =>
      let reply := Boundary.search state handle request
      (state, .text reply.value, note slot reply)
  | .release handle => (Boundary.release state handle, .nothing, slot)

/-- The handle that a call names; zero, if it is one for a new handle. -/
def handle : Request → UInt64
  | .create _ _ | .openExisting _ => 0
  | .add handle _ | .commit handle | .rollback handle | .size handle | .search handle _
  | .release handle => handle

/-- The move that a call asks for, if its arguments are texts. -/
def move (settings : Settings) : Request → Except BoundaryError World.Move
  | .create path schema => do
      let path ← textOf "path" path
      let schema ← textOf "schema_json" schema
      return .get (.ofText schema) { path := some path, settings := settings }
  | .openExisting path => do
      let path ← textOf "path" path
      return .get .existing { path := some path, settings := settings }
  | .add handle document => do
      let text ← textOf "doc_json" document
      return .call handle.toNat (.add text)
  | .commit handle => .ok (.call handle.toNat .commit)
  | .rollback handle => .ok (.call handle.toNat .rollback)
  | .size handle => .ok (.call handle.toNat .size)
  | .search handle request => do
      let text ← textOf "query_json" request
      return .call handle.toNat (.search text)
  | .release handle => .ok (.drop handle.toNat)

/-- What a call is to hand out if its move is done. A new index comes last in the world. -/
def success (world : World) (request : Request) : DocIndex.Reply → Answer
  | .size n => .count (UInt64.ofNat n)
  | .page page => .text (some page.toText)
  | .done =>
      match request with
      | .create _ _ | .openExisting _ => .handle (UInt64.ofNat world.handles.length)
      | .release _ => .nothing
      | _ => .status 0

/-- The world after the move that a call asks for, and what is to come of the call. -/
def perform [Segmenter] (settings : Settings) (world : World) (request : Request) :
    World × Except BoundaryError Answer :=
  match request.move settings with
  | .error fault => (world, .error fault)
  | .ok move =>
      match world.perform move with
      | (_, .absent) => (world, .error (.unknownHandle request.handle))
      | (next, .failed fault) => (next, .error (.index fault))
      | (next, .done reply) => (next, .ok (request.success world reply))

end Request

/-- The handles stand for the indexes of a world. -/
structure Agrees (settings : Settings) (state : State) (world : World) : Prop where
  settings : state.settings = settings
  disk : state.disk = world.disk
  next : state.registry.next.toNat = world.handles.length
  found : ∀ handle, state.registry.get? handle = world.index? handle.toNat

section

variable {settings : Settings} {state : State} {world : World} {handle : UInt64} {index : Index}

theorem agrees_start (disk : Disk) (settings : Settings) :
    Agrees settings ⟨disk, settings, {}⟩ ⟨disk, [none]⟩ := by
  refine ⟨rfl, rfl, rfl, ?_⟩
  intro handle
  cases hposition : handle.toNat with
  | zero => rfl
  | succ n => rfl

theorem Agrees.register (hagrees : Agrees settings state world)
    (hroom : world.handles.length + 1 < UInt64.size) (disk : Disk) (index : Index) :
    (register state disk index).2 = UInt64.ofNat world.handles.length ∧
      Agrees settings (register state disk index).1 ⟨disk, world.handles ++ [some index]⟩ := by
  have hnext := hagrees.next
  refine ⟨?_, hagrees.settings, rfl, ?_, ?_⟩
  · rw [← hnext, UInt64.ofNat_toNat]
    rfl
  · rw [List.length_append, List.length_singleton, ← hnext]
    refine (UInt64.toNat_add _ _).trans (Nat.mod_eq_of_lt ?_)
    rw [hnext]
    exact hroom
  · intro handle
    rw [World.index?_append, ← hnext]
    refine (Registry.get?_insert state.registry index handle).trans ?_
    rw [hagrees.found]
    by_cases hhandle : handle = state.registry.next
    · have habsent : world.index? handle.toNat = none := by
        rw [Option.eq_none_iff_forall_not_mem]
        intro other hother
        have hlt := World.lt_length_of_index? hother
        rw [hhandle, hnext] at hlt
        exact Nat.lt_irrefl _ hlt
      rw [habsent, if_pos hhandle, if_pos (congrArg _ hhandle), Option.none_or]
    · rw [if_neg hhandle, if_neg (mt UInt64.toNat_inj.mp hhandle), Option.or_none]

theorem Agrees.replace (hagrees : Agrees settings state world)
    (hindex : state.registry.get? handle = some index) (disk : Disk) (next : Index) :
    Agrees settings { state with disk := disk, registry := state.registry.replace handle next }
      (world.replace disk handle.toNat (some next)) := by
  refine ⟨hagrees.settings, rfl, ?_, ?_⟩
  · exact hagrees.next.trans (List.length_set ..).symm
  · intro other
    rw [Registry.get?_replace, World.index?_replace (hagrees.found handle ▸ hindex), hindex,
      ← hagrees.found, Option.map_some]
    simp only [UInt64.toNat_inj]

theorem Agrees.remove (hagrees : Agrees settings state world)
    (hindex : state.registry.get? handle = some index) (disk : Disk) :
    Agrees settings { state with disk := disk, registry := (state.registry.remove handle).1 }
      (world.replace disk handle.toNat none) := by
  refine ⟨hagrees.settings, rfl, ?_, ?_⟩
  · exact hagrees.next.trans (List.length_set ..).symm
  · intro other
    rw [Registry.get?_remove, World.index?_replace (hagrees.found handle ▸ hindex),
      ← hagrees.found]
    simp only [UInt64.toNat_inj]

end

/-! One call -/

theorem note_ok {α : Type} (slot : Slot) (fallback value : α) :
    note slot (reply fallback (.ok value)) = slot.map fun _ => none := rfl

theorem note_error {α : Type} (slot : Slot) (fallback : α) (fault : BoundaryError) :
    note slot (reply fallback (.error fault)) = slot.map fun _ => some (handOut fault.message) :=
  Option.map_map ..

/--
A call hands out what is to come of it, and the handles stand for the indexes of the world. If it
fails the handles stand for what they stood for, and nothing at all has changed unless it is an
operation that failed.
-/
structure Matches (settings : Settings) (state : State) (request : Request) (slot : Slot)
    (served : State × Answer × Slot) (meant : World × Except BoundaryError Answer) : Prop where
  agrees : Agrees settings served.1 meant.1
  success : ∀ answer, meant.2 = .ok answer →
    served.2 = (answer, if request.hasSlot then slot.map fun _ => none else slot)
  failure : ∀ fault, meant.2 = .error fault →
    served.2 = (request.failure,
      if request.hasSlot then slot.map fun _ => some (handOut fault.message) else slot)
  kept : ∀ fault, meant.2 = .error fault →
    served.1.registry = state.registry ∧ ((∀ cause, fault ≠ .index cause) → served.1 = state)

section

variable {settings : Settings} {state : State} {world : World} {request : Request} {slot : Slot}

theorem matches_ok {after : State} {next : World} {answer : Answer} {place : Slot}
    (hagrees : Agrees settings after next)
    (hplace : place = if request.hasSlot then slot.map fun _ => none else slot) :
    Matches settings state request slot (after, answer, place) (next, .ok answer) := by
  refine ⟨hagrees, ?_, ?_, ?_⟩
  · intro other hother
    rw [Except.ok.inj hother, hplace]
  · intro fault hfault
    contradiction
  · intro fault hfault
    contradiction

theorem matches_error {next : World} {fault : BoundaryError} {place : Slot}
    (hagrees : Agrees settings state next)
    (hplace : place =
      if request.hasSlot then slot.map fun _ => some (handOut fault.message) else slot) :
    Matches settings state request slot (state, request.failure, place) (next, .error fault) := by
  refine ⟨hagrees, ?_, ?_, ?_⟩
  · intro answer hanswer
    contradiction
  · intro other hother
    rw [← Except.error.inj hother, hplace]
  · intro other hother
    exact ⟨rfl, fun _ => rfl⟩

theorem perform_of_move_error [Segmenter] {fault : BoundaryError}
    (hmove : request.move settings = .error fault) :
    request.perform settings world = (world, .error fault) := by
  rw [Request.perform, hmove]

theorem perform_of_absent [Segmenter] {move : World.Move} (hmove : request.move settings = .ok move)
    {next : World} (habsent : world.perform move = (next, .absent)) :
    request.perform settings world = (world, .error (.unknownHandle request.handle)) := by
  rw [Request.perform, hmove]
  simp only [habsent]

theorem perform_of_failed [Segmenter] {move : World.Move} (hmove : request.move settings = .ok move)
    {next : World} {fault : IndexError} (hfailed : world.perform move = (next, .failed fault)) :
    request.perform settings world = (next, .error (.index fault)) := by
  rw [Request.perform, hmove]
  simp only [hfailed]

theorem perform_of_done [Segmenter] {move : World.Move} (hmove : request.move settings = .ok move)
    {next : World} {reply : DocIndex.Reply} (hdone : world.perform move = (next, .done reply)) :
    request.perform settings world = (next, .ok (request.success world reply)) := by
  rw [Request.perform, hmove]
  simp only [hdone]

/-- A call that changes the index of a handle. -/
theorem Agrees.changed [Segmenter] (hagrees : Agrees settings state world) {handle : UInt64}
    {call : Call} {operation : Index → Except IndexError (Disk × Index)}
    (hmove : request.move settings = .ok (.call handle.toNat call))
    (hhandle : request.handle = handle) (hslot : request.hasSlot = true)
    (hfailure : request.failure = .status (-1)) (hsuccess : request.success world .done = .status 0)
    (hoperation : ∀ index, Session.perform ⟨world.disk, index⟩ call =
      (operation index).map fun (disk, index) => (⟨disk, index⟩, .done)) :
    Matches settings state request slot
      (let (after, reply) := changed state handle (onHandle state handle operation)
      (after, .status reply.value, note slot reply))
      (request.perform settings world) := by
  cases hindex : state.registry.get? handle with
  | none =>
      have habsent := hagrees.found handle ▸ hindex
      rw [perform_of_absent hmove (World.perform_call_of_absent habsent call), hhandle]
      simp only [onHandle, resolve, hindex, Boundary.changed, note_error]
      rw [reply, ← hfailure]
      exact matches_error hagrees (by rw [hslot, if_pos rfl])
  | some index =>
      have hposition := hagrees.found handle ▸ hindex
      have hcall := hoperation index
      cases hresult : operation index with
      | error fault =>
          rw [hresult] at hcall
          rw [perform_of_failed hmove (World.perform_call_of_error hposition hcall)]
          simp only [onHandle, resolve, hindex, hresult, Except.mapError, Boundary.changed,
            note_error]
          rw [reply, ← hfailure]
          exact matches_error hagrees (by rw [hslot, if_pos rfl])
      | ok result =>
          obtain ⟨disk, next⟩ := result
          rw [hresult] at hcall
          rw [perform_of_done hmove (World.perform_call_of_ok hposition hcall), hsuccess]
          simp only [onHandle, resolve, hindex, hresult, Except.mapError, Boundary.changed,
            note_ok]
          exact matches_ok (hagrees.replace hindex disk next) (by rw [hslot, if_pos rfl])

/-- A call for a new index that fails. -/
theorem matches_refused [Segmenter] {after : State} {opening : Index.Opening}
    {options : IndexOptions} {disk : Disk} {fault : IndexError}
    (hafter : Agrees settings after ⟨disk, world.handles⟩)
    (hregistry : after.registry = state.registry)
    (hmove : request.move settings = .ok (.get opening options)) (hslot : request.hasSlot = true)
    (hget : opening.perform world.disk options = (disk, .error fault)) :
    Matches settings state request slot
      (after, request.failure, slot.map fun _ => some (handOut (BoundaryError.index fault).message))
      (request.perform settings world) := by
  rw [perform_of_failed hmove (World.perform_get_of_error hget)]
  refine ⟨hafter, ?_, ?_, ?_⟩
  · intro answer hanswer
    contradiction
  · intro other hother
    rw [← Except.error.inj hother, hslot, if_pos rfl]
  · intro other hother
    refine ⟨hregistry, ?_⟩
    intro hcause
    exact absurd (Except.error.inj hother).symm (hcause fault)

/-- A call that gives a handle for a new index. -/
theorem Agrees.opened [Segmenter] (hagrees : Agrees settings state world)
    (hroom : world.handles.length + 1 < UInt64.size) {opening : Index.Opening}
    {options : IndexOptions} {disk : Disk} {index : Index}
    (hmove : request.move settings = .ok (.get opening options)) (hslot : request.hasSlot = true)
    (hsuccess : request.success world .done = .handle (UInt64.ofNat world.handles.length))
    (hget : opening.perform world.disk options = (disk, .ok index)) :
    Matches settings state request slot
      ((Boundary.register state disk index).1, .handle (Boundary.register state disk index).2,
        slot.map fun _ => none)
      (request.perform settings world) := by
  obtain ⟨hhandle, hafter⟩ := hagrees.register hroom disk index
  rw [perform_of_done hmove (World.perform_get_of_ok hget), hsuccess, ← hhandle]
  exact matches_ok hafter (by rw [hslot, if_pos rfl])

theorem Agrees.create [Segmenter] (hagrees : Agrees settings state world)
    (hroom : world.handles.length + 1 < UInt64.size) (path schema : Argument) :
    Matches settings state (.create path schema) slot
      ((Request.create path schema).serve state slot)
      ((Request.create path schema).perform settings world) := by
  cases hpath : textOf "path" path with
  | error fault =>
      have hmove : (Request.create path schema).move settings = .error fault := by
        simp only [Request.move, hpath, bind, Except.bind]
      rw [perform_of_move_error hmove]
      simp only [Request.serve, Boundary.create, hpath, bind, Except.bind, note_error]
      exact matches_error hagrees rfl
  | ok directory =>
      cases hschema : textOf "schema_json" schema with
      | error fault =>
          have hmove : (Request.create path schema).move settings = .error fault := by
            simp only [Request.move, hpath, hschema, bind, Except.bind]
          rw [perform_of_move_error hmove]
          simp only [Request.serve, Boundary.create, hpath, hschema, bind, Except.bind, note_error]
          exact matches_error hagrees rfl
      | ok text =>
          have hmove : (Request.create path schema).move settings =
              .ok (.get (.ofText text) { path := some directory, settings := settings }) := by
            simp only [Request.move, hpath, hschema, bind, Except.bind]
            rfl
          simp only [Request.serve, Boundary.create, hpath, hschema, bind, Except.bind, pure,
            Except.pure, optionsOf, hagrees.settings, hagrees.disk]
          cases hcreate : Index.createFromText world.disk
              { path := some directory, settings := settings } text with
          | mk disk result =>
              cases result with
              | error fault =>
                  simp only [note_error]
                  have hafter : Agrees settings ⟨disk, settings, state.registry⟩
                      ⟨disk, world.handles⟩ := ⟨rfl, rfl, hagrees.next, hagrees.found⟩
                  exact matches_refused hafter rfl hmove rfl hcreate
              | ok index =>
                  simp only [note_ok]
                  exact hagrees.opened hroom hmove rfl rfl hcreate

theorem Agrees.openExisting [Segmenter] (hagrees : Agrees settings state world)
    (hroom : world.handles.length + 1 < UInt64.size) (path : Argument) :
    Matches settings state (.openExisting path) slot ((Request.openExisting path).serve state slot)
      ((Request.openExisting path).perform settings world) := by
  cases hpath : textOf "path" path with
  | error fault =>
      have hmove : (Request.openExisting path).move settings = .error fault := by
        simp only [Request.move, hpath, bind, Except.bind]
      rw [perform_of_move_error hmove]
      simp only [Request.serve, Boundary.openExisting, hpath, note_error]
      exact matches_error hagrees rfl
  | ok directory =>
      have hmove : (Request.openExisting path).move settings =
          .ok (.get .existing { path := some directory, settings := settings }) := by
        simp only [Request.move, hpath, bind, Except.bind]
        rfl
      simp only [Request.serve, Boundary.openExisting, hpath, optionsOf, hagrees.settings,
        hagrees.disk]
      cases hopen : Index.openExisting world.disk
          { path := some directory, settings := settings } with
      | error fault =>
          have hget : Index.Opening.existing.perform world.disk
              { path := some directory, settings := settings } = (world.disk, .error fault) := by
            simp only [Index.Opening.perform, hopen]
          simp only [note_error]
          exact matches_refused hagrees rfl hmove rfl hget
      | ok result =>
          obtain ⟨disk, index⟩ := result
          have hget : Index.Opening.existing.perform world.disk
              { path := some directory, settings := settings } = (disk, .ok index) := by
            simp only [Index.Opening.perform, hopen]
          simp only [note_ok]
          exact hagrees.opened hroom hmove rfl rfl hget

theorem Agrees.add [Segmenter] (hagrees : Agrees settings state world) (handle : UInt64)
    (document : Argument) :
    Matches settings state (.add handle document) slot
      ((Request.add handle document).serve state slot)
      ((Request.add handle document).perform settings world) := by
  cases hdocument : textOf "doc_json" document with
  | error fault =>
      have hmove : (Request.add handle document).move settings = .error fault := by
        simp only [Request.move, hdocument, bind, Except.bind]
      rw [perform_of_move_error hmove]
      simp only [Request.serve, addDocument, hdocument, Boundary.changed, note_error]
      exact matches_error hagrees rfl
  | ok text =>
      have hmove : (Request.add handle document).move settings =
          .ok (.call handle.toNat (.add text)) := by
        simp only [Request.move, hdocument, bind, Except.bind]
        rfl
      simp only [Request.serve, addDocument, hdocument]
      apply hagrees.changed hmove rfl rfl rfl rfl
      intro index
      rw [Session.perform, hagrees.disk]
      cases index.add text <;> rfl

theorem Agrees.commit [Segmenter] (hagrees : Agrees settings state world) (handle : UInt64) :
    Matches settings state (.commit handle) slot ((Request.commit handle).serve state slot)
      ((Request.commit handle).perform settings world) := by
  apply hagrees.changed rfl rfl rfl rfl rfl
  intro index
  rw [hagrees.disk]
  rfl

theorem Agrees.rollback [Segmenter] (hagrees : Agrees settings state world) (handle : UInt64) :
    Matches settings state (.rollback handle) slot ((Request.rollback handle).serve state slot)
      ((Request.rollback handle).perform settings world) := by
  apply hagrees.changed rfl rfl rfl rfl rfl
  intro index
  rw [Session.perform, hagrees.disk]
  cases index.rollback <;> rfl

/-- A call that only looks at an index leaves the handles as they are. -/
theorem Agrees.looked (hagrees : Agrees settings state world) {handle : UInt64} {index : Index}
    (hindex : state.registry.get? handle = some index) :
    Agrees settings state (world.replace world.disk handle.toNat (some index)) := by
  have hreplaced := hagrees.replace hindex world.disk index
  refine ⟨hagrees.settings, hagrees.disk, hreplaced.next, ?_⟩
  intro other
  rw [← hreplaced.found, Registry.get?_replace, hindex]
  split
  · rename_i hother
    rw [hother, hindex]
    rfl
  · rfl

theorem Agrees.size [Segmenter] (hagrees : Agrees settings state world) (handle : UInt64) :
    Matches settings state (.size handle) slot ((Request.size handle).serve state slot)
      ((Request.size handle).perform settings world) := by
  have hmove : (Request.size handle).move settings = .ok (.call handle.toNat .size) := rfl
  cases hindex : state.registry.get? handle with
  | none =>
      have habsent := hagrees.found handle ▸ hindex
      rw [perform_of_absent hmove (World.perform_call_of_absent habsent _)]
      simp only [Request.serve, numDocuments, resolve, hindex]
      exact matches_error hagrees rfl
  | some index =>
      have hposition := hagrees.found handle ▸ hindex
      have hcall : Session.perform ⟨world.disk, index⟩ .size =
          index.size.map fun n => (⟨world.disk, index⟩, .size n) := rfl
      cases hsize : index.size with
      | error fault =>
          rw [hsize] at hcall
          rw [perform_of_failed hmove (World.perform_call_of_error hposition hcall)]
          simp only [Request.serve, numDocuments, resolve, hindex, hsize]
          exact matches_error hagrees rfl
      | ok n =>
          rw [hsize] at hcall
          rw [perform_of_done hmove (World.perform_call_of_ok hposition hcall)]
          simp only [Request.serve, numDocuments, resolve, hindex, hsize]
          exact matches_ok (hagrees.looked hindex) rfl

theorem Agrees.search [Segmenter] (hagrees : Agrees settings state world) (handle : UInt64)
    (request : Argument) :
    Matches settings state (.search handle request) slot
      ((Request.search handle request).serve state slot)
      ((Request.search handle request).perform settings world) := by
  cases hrequest : textOf "query_json" request with
  | error fault =>
      have hmove : (Request.search handle request).move settings = .error fault := by
        simp only [Request.move, hrequest, bind, Except.bind]
      rw [perform_of_move_error hmove]
      simp only [Request.serve, Boundary.search, hrequest, bind, Except.bind, note_error]
      exact matches_error hagrees rfl
  | ok text =>
      have hmove : (Request.search handle request).move settings =
          .ok (.call handle.toNat (.search text)) := by
        simp only [Request.move, hrequest, bind, Except.bind]
        rfl
      cases hindex : state.registry.get? handle with
      | none =>
          have habsent := hagrees.found handle ▸ hindex
          rw [perform_of_absent hmove (World.perform_call_of_absent habsent _)]
          simp only [Request.serve, Boundary.search, hrequest, resolve, hindex, bind, Except.bind,
            note_error]
          exact matches_error hagrees rfl
      | some index =>
          have hposition := hagrees.found handle ▸ hindex
          have hcall : Session.perform ⟨world.disk, index⟩ (.search text) =
              (index.search text).map fun page => (⟨world.disk, index⟩, .page page) := rfl
          cases hsearch : index.search text with
          | error fault =>
              rw [hsearch] at hcall
              rw [perform_of_failed hmove (World.perform_call_of_error hposition hcall)]
              simp only [Request.serve, Boundary.search, hrequest, resolve, hindex,
                Index.searchText, hsearch, bind, Except.bind, Except.map, Except.mapError,
                note_error]
              exact matches_error hagrees rfl
          | ok page =>
              rw [hsearch] at hcall
              rw [perform_of_done hmove (World.perform_call_of_ok hposition hcall)]
              simp only [Request.serve, Boundary.search, hrequest, resolve, hindex,
                Index.searchText, hsearch, bind, Except.bind, Except.map, Except.mapError,
                owned_toText, pure, Except.pure, note_ok]
              exact matches_ok (hagrees.looked hindex) rfl

theorem release_of_unknown {handle : UInt64} (hindex : state.registry.get? handle = none) :
    Boundary.release state handle = state := by
  have hremoved : (state.registry.remove handle).2 = none := hindex
  simp only [Boundary.release, hremoved, Registry.remove_eq_self hindex]

theorem Agrees.release [Segmenter] (hagrees : Agrees settings state world) (handle : UInt64) :
    Matches settings state (.release handle) slot ((Request.release handle).serve state slot)
      ((Request.release handle).perform settings world) := by
  have hmove : (Request.release handle).move settings = .ok (.drop handle.toNat) := rfl
  cases hindex : state.registry.get? handle with
  | none =>
      have habsent := hagrees.found handle ▸ hindex
      rw [perform_of_absent hmove (World.perform_drop_of_absent habsent), Request.serve,
        release_of_unknown hindex]
      exact matches_error hagrees rfl
  | some index =>
      have hposition := hagrees.found handle ▸ hindex
      have hremoved : (state.registry.remove handle).2 = some index := hindex
      rw [perform_of_done hmove (World.perform_drop hposition)]
      simp only [Request.serve, Boundary.release, hremoved, hagrees.disk]
      exact matches_ok (hagrees.remove hindex _) rfl

/-- Every call does what its move does. -/
theorem Agrees.serve [Segmenter] (hagrees : Agrees settings state world)
    (hroom : world.handles.length + 1 < UInt64.size) (request : Request) (slot : Slot) :
    Matches settings state request slot (request.serve state slot)
      (request.perform settings world) := by
  cases request with
  | create path schema => exact hagrees.create hroom path schema
  | openExisting path => exact hagrees.openExisting hroom path
  | add handle document => exact hagrees.add handle document
  | commit handle => exact hagrees.commit handle
  | rollback handle => exact hagrees.rollback handle
  | size handle => exact hagrees.size handle
  | search handle request => exact hagrees.search handle request
  | release handle => exact hagrees.release handle

end

/-! Runs of calls -/

/-- The state after some calls, each with its place for errors. -/
def after [Segmenter] (state : State) (calls : List (Request × Slot)) : State :=
  calls.foldl (fun state call => (call.1.serve state call.2).1) state

/-- The world after the moves that some calls ask for. -/
def meant [Segmenter] (settings : Settings) (world : World) (calls : List (Request × Slot)) :
    World :=
  calls.foldl (fun world call => (call.1.perform settings world).1) world

section

variable {settings : Settings} {state : State} {world : World}

theorem perform_fst [Segmenter] (settings : Settings) (world : World) (request : Request) :
    (request.perform settings world).1 = world ∨
      ∃ move, (request.perform settings world).1 = (world.perform move).1 := by
  unfold Request.perform
  split
  · exact .inl rfl
  · rename_i move hmove
    split
    · exact .inl rfl
    · rename_i next fault hfailed
      exact .inr ⟨move, by rw [hfailed]⟩
    · rename_i next reply hdone
      exact .inr ⟨move, by rw [hdone]⟩

theorem length_le_meant [Segmenter] (settings : Settings) (world : World)
    (calls : List (Request × Slot)) :
    world.handles.length ≤ (meant settings world calls).handles.length := by
  induction calls generalizing world with
  | nil => exact Nat.le_refl _
  | cons call rest ih =>
      refine Nat.le_trans ?_ (ih (call.1.perform settings world).1)
      rcases perform_fst settings world call.1 with hsame | ⟨move, hmove⟩
      · rw [hsame]
      · rw [hmove]
        exact world.length_le_perform move

theorem index?_meant_of_none [Segmenter] {position : Nat} (hnone : world.index? position = none)
    (hlength : position < world.handles.length) (calls : List (Request × Slot)) :
    (meant settings world calls).index? position = none := by
  induction calls generalizing world with
  | nil => exact hnone
  | cons call rest ih =>
      have hnext : (call.1.perform settings world).1.index? position = none := by
        rcases perform_fst settings world call.1 with hsame | ⟨move, hmove⟩
        · rw [hsame]
          exact hnone
        · rw [hmove]
          exact World.index?_perform_of_none hnone hlength move
      exact ih hnext (Nat.lt_of_lt_of_le hlength (length_le_meant settings world [call]))

theorem meant_append [Segmenter] (settings : Settings) (world : World)
    (earlier later : List (Request × Slot)) :
    meant settings world (earlier ++ later) = meant settings (meant settings world earlier) later :=
  List.foldl_append

/-- Nothing stands for a handle that was released, whatever follows. -/
theorem index?_meant_release [Segmenter] {handle : UInt64} {index : Index} {slot : Slot}
    (hindex : world.index? handle.toNat = some index) (later : List (Request × Slot)) :
    (meant settings world ((.release handle, slot) :: later)).index? handle.toNat = none := by
  have hrelease : (Request.release handle).perform settings world =
      (world.replace (index.drop world.disk) handle.toNat none, .ok .nothing) :=
    perform_of_done rfl (World.perform_drop hindex)
  rw [meant, List.foldl_cons, hrelease]
  apply index?_meant_of_none
  · rw [World.index?_replace hindex, if_pos rfl]
  · rw [World.replace, List.length_set]
    exact World.lt_length_of_index? hindex

/-- Handles and world still agree after any calls, while there is room for one more handle. -/
theorem Agrees.after [Segmenter] (hagrees : Agrees settings state world)
    (calls : List (Request × Slot))
    (hroom : (meant settings world calls).handles.length + 1 < UInt64.size) :
    Agrees settings (Boundary.after state calls) (meant settings world calls) := by
  induction calls generalizing state world with
  | nil => exact hagrees
  | cons call rest ih =>
      have hfits : world.handles.length + 1 < UInt64.size :=
        Nat.lt_of_le_of_lt (Nat.succ_le_succ (length_le_meant settings world (call :: rest))) hroom
      exact ih (hagrees.serve hfits call.1 call.2).agrees hroom

theorem success_ne_failure {request : Request} (hslot : request.hasSlot = true)
    (hpositive : 0 < world.handles.length) (hroom : world.handles.length < UInt64.size)
    (reply : DocIndex.Reply) : request.success world reply ≠ request.failure := by
  have hhandle : UInt64.ofNat world.handles.length ≠ 0 := by
    intro hzero
    have hnat := congrArg UInt64.toNat hzero
    rw [UInt64.toNat_ofNat_of_lt' hroom] at hnat
    exact Nat.ne_of_gt hpositive hnat
  intro hsame
  cases request with
  | create | openExisting => cases reply <;> simp_all [Request.success, Request.failure]
  | add | commit | rollback => cases reply <;> simp_all [Request.success, Request.failure]
  | search => cases reply <;> simp_all [Request.success, Request.failure]
  | size | release => contradiction

end

theorem textOf_ne_interiorNul (name : String) (argument : Argument) :
    textOf name argument ≠ .error .interiorNul := by
  unfold textOf
  split
  · simp
  · split <;> simp

theorem move_ne_interiorNul (settings : Settings) (request : Request) :
    request.move settings ≠ .error .interiorNul := by
  intro hfail
  cases request with
  | create path schema =>
      obtain ⟨path, -, hfail⟩ :=
        (bind_eq_error_iff.mp hfail).resolve_left (textOf_ne_interiorNul _ _)
      obtain ⟨schema, -, hfail⟩ :=
        (bind_eq_error_iff.mp hfail).resolve_left (textOf_ne_interiorNul _ _)
      contradiction
  | openExisting | add | search =>
      obtain ⟨text, -, hfail⟩ :=
        (bind_eq_error_iff.mp hfail).resolve_left (textOf_ne_interiorNul _ _)
      contradiction
  | commit | rollback | size | release => contradiction

theorem perform_ne_interiorNul [Segmenter] (settings : Settings) (world : World)
    (request : Request) :
    (request.perform settings world).2 ≠ .error .interiorNul := by
  unfold Request.perform
  split
  · rename_i fault hmove
    intro hfail
    rw [Except.error.inj hfail] at hmove
    exact move_ne_interiorNul settings request hmove
  · split <;> simp

/-- What a caller of a call can count on. -/
structure Refines [Segmenter] (settings : Settings) (state : State) (world : World)
    (request : Request) (slot : Slot) : Prop where
  /-- The call does what its move does. -/
  step : Matches settings state request slot (request.serve state slot)
    (request.perform settings world)
  /-- What is handed out tells whether the call has succeeded. -/
  result : request.hasSlot = true →
    ((request.serve state slot).2.1 ≠ request.failure ↔
      ∃ answer, (request.perform settings world).2 = .ok answer)
  /--
  A text for a failure is not empty and can be handed out, as it is if it needs no blanks; pages
  always can.
  -/
  text : ∀ fault, (request.perform settings world).2 = .error fault →
    fault ≠ .interiorNul ∧ handOut fault.message ≠ "" ∧
      terminator ∉ (handOut fault.message).toList ∧
      (terminator ∉ fault.message.toList → handOut fault.message = fault.message)
  /-- No call hands out both a result and a text for a failure. -/
  exclusive : request.hasSlot = true → ∀ text,
    (request.serve state slot).2.2 = some (some text) →
      (request.serve state slot).2.1 = request.failure

theorem Agrees.refines [Segmenter] {settings : Settings} {state : State} {world : World}
    (hagrees : Agrees settings state world) (hpositive : 0 < world.handles.length)
    (hroom : world.handles.length + 1 < UInt64.size) (request : Request) (slot : Slot) :
    Refines settings state world request slot := by
  have hmatches := hagrees.serve hroom request slot
  have hanswer (hslot : request.hasSlot = true) {answer : Answer}
      (hdone : (request.perform settings world).2 = .ok answer) : answer ≠ request.failure := by
    unfold Request.perform at hdone
    split at hdone
    · contradiction
    · split at hdone
      · contradiction
      · contradiction
      · rw [← Except.ok.inj hdone]
        exact success_ne_failure hslot hpositive (Nat.lt_of_succ_lt hroom) _
  refine ⟨hmatches, ?_, ?_, ?_⟩
  · intro hslot
    cases hresult : (request.perform settings world).2 with
    | ok answer =>
        rw [hmatches.success answer hresult]
        exact iff_of_true (hanswer hslot hresult) ⟨answer, rfl⟩
    | error fault =>
        rw [hmatches.failure fault hresult]
        simp
  · intro fault hfault
    refine ⟨?_, handOut_ne_empty fault.message_ne_empty, terminator_notMem_handOut _,
      handOut_eq_self⟩
    rintro rfl
    exact perform_ne_interiorNul settings world request hfault
  · intro hslot text hplace
    cases hresult : (request.perform settings world).2 with
    | ok answer =>
        rw [hmatches.success answer hresult, hslot, if_pos rfl] at hplace
        cases slot <;> simp at hplace
    | error fault => rw [hmatches.failure fault hresult]

/--
Over any run of calls by handle, whatever handles, arguments and places for errors they name, every
call does what the move does that it asks for, hands out what comes of that, and tells why it has
failed if it has; and what was released is never found again. There is room for one more handle than
were given out.
-/
theorem calls_refine [Segmenter] (disk : Disk) (settings : Settings) (calls : List (Request × Slot))
    (hroom : (meant settings ⟨disk, [none]⟩ calls).handles.length + 1 < UInt64.size) :
    (∀ request slot, Refines settings (after ⟨disk, settings, {}⟩ calls)
      (meant settings ⟨disk, [none]⟩ calls) request slot) ∧
    ∀ earlier later handle slot, calls = earlier ++ (.release handle, slot) :: later →
      (after ⟨disk, settings, {}⟩ earlier).registry.contains handle = true →
        (after ⟨disk, settings, {}⟩ calls).registry.contains handle = false := by
  have hagrees := (agrees_start disk settings).after calls hroom
  constructor
  · intro request slot
    exact hagrees.refines (length_le_meant settings ⟨disk, [none]⟩ calls) hroom request slot
  · rintro earlier later handle slot rfl hcontains
    have hfits : (meant settings ⟨disk, [none]⟩ earlier).handles.length + 1 < UInt64.size := by
      rw [meant_append] at hroom
      exact Nat.lt_of_le_of_lt (Nat.succ_le_succ (length_le_meant settings _ _)) hroom
    have hearlier := (agrees_start disk settings).after earlier hfits
    rw [Registry.contains, hearlier.found] at hcontains
    obtain ⟨index, hindex⟩ := Option.isSome_iff_exists.mp hcontains
    rw [Registry.contains, hagrees.found, meant_append]
    rw [index?_meant_release hindex later]
    rfl

/-- A text comes through a string of bytes. -/
theorem textOf_toUTF8 (name text : String) : textOf name (some text.toUTF8) = .ok text := by
  have hvalid : text.toUTF8.IsValidUTF8 := text.isValidUTF8
  have hdecoded : String.fromUTF8? text.toUTF8 = some text := by
    rw [String.fromUTF8?, dif_pos hvalid]
    rfl
  rw [textOf, hdecoded]

def createTales : Request :=
  .create (some "tales".toUTF8) (some talesText.toUTF8)

/-- Tales are created and released again. -/
def talesRequests : List (Request × Slot) :=
  [(createTales, some (some "stale")), (.release 1, none)]

section

attribute [local instance] Segmenter.byRuns

theorem tales_served :
    (createTales.serve {} (some (some "stale"))).2 = (.handle 1, some none) ∧
      (after {} talesRequests).registry.contains 1 = false := by
  obtain ⟨created, hcreate⟩ := create_tales
  have hmove : createTales.move {} = .ok (.get (.ofText talesText) { path := some "tales" }) := by
    simp only [createTales, Request.move, textOf_toUTF8, bind, Except.bind]
    rfl
  have hget : World.perform ⟨{}, [none]⟩ (.get (.ofText talesText) { path := some "tales" }) =
      (⟨created, [none, some ⟨"tales", {}, some ⟨talesSchema, [], some []⟩⟩]⟩, .done .done) := by
    apply World.perform_get_of_ok
    rw [Index.Opening.perform, Index.createFromText_eq ofText_talesText]
    exact hcreate
  have hcreated : createTales.perform {} ⟨{}, [none]⟩ =
      (⟨created, [none, some ⟨"tales", {}, some ⟨talesSchema, [], some []⟩⟩]⟩, .ok (.handle 1)) :=
    perform_of_done hmove hget
  have hfirst : Refines {} ⟨{}, {}, {}⟩ ⟨{}, [none]⟩ createTales (some (some "stale")) :=
    (calls_refine {} {} [] (by decide)).1 createTales (some (some "stale"))
  have hroom : (meant {} ⟨{}, [none]⟩ talesRequests).handles.length + 1 < UInt64.size := by
    rw [talesRequests, meant, List.foldl_cons, hcreated]
    exact (by decide : 2 + 1 < UInt64.size)
  constructor
  · exact hfirst.step.success (.handle 1) (by rw [hcreated])
  · have hreleased := (calls_refine {} {} talesRequests hroom).2
      [(createTales, some (some "stale"))] [] 1 none rfl
    apply hreleased
    have hfound := hfirst.step.agrees.found 1
    rw [hcreated] at hfound
    rw [after, List.foldl_cons, List.foldl_nil, Registry.contains, hfound]
    rfl

end

end Boundary

end DocIndex
