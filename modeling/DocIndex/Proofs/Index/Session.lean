import DocIndex.Proofs.Index.Directory
import DocIndex.Proofs.Index.History
import DocIndex.Proofs.Search.Paging
import Mathlib.Data.List.Perm.Subperm

/-!
Runs of calls on one directory. A session holds the disk and the one handle that works on a
directory; a call that fails leaves it as it is. At every point of a run, what is on disk and what
searches look at are the documents that the history of the run has published, and the buffer holds
those that are pending.
-/

namespace DocIndex

open Storage

/-- The disk, and the handle that works on a directory. -/
structure Session where
  disk : Disk
  index : Index

/-- What a caller does with a handle. -/
inductive Call where
  | add (text : String)
  | addDocument (document : Document)
  | commit
  | rollback
  | size
  | search (text : String)
  | ask (request : Request)
  | close
  /-- Opens the directory again for writing. -/
  | reopen (settings : Settings) (budget : Option Nat)

/-- What a call that succeeds gives to the caller. -/
inductive Reply where
  | done
  | size (n : Nat)
  | page (page : Page)

def Call.isRead : Call → Bool
  | .size | .search _ | .ask _ => true
  | _ => false

/-- How the directory of a handle is opened again. -/
def Index.reopening (index : Index) (settings : Settings) (budget : Option Nat) : IndexOptions where
  path := some index.path
  settings := settings
  budget := budget

def Index.documentOf? (index : Index) (text : String) : Option Document :=
  index.state.bind fun state =>
    (Document.ofText state.schema text index.settings.strict).toOption

theorem Index.exists_of_documentOf? {index : Index} {text : String} {document : Document}
    (hdocument : index.documentOf? text = some document) :
    ∃ state, index.state = some state ∧
      Document.ofText state.schema text index.settings.strict = .ok document := by
  obtain ⟨state, hstate, hfound⟩ := Option.bind_eq_some_iff.mp hdocument
  exact ⟨state, hstate, toOption_eq_some_iff.mp hfound⟩

theorem Index.addDocument_eq_ok {index next : Index} {document : Document}
    (hadd : index.addDocument document = .ok next) :
    ∃ state buffer, index.state = some state ∧ state.buffer = some buffer ∧
      next = { index with
        state := some { state with buffer := some (buffer ++ [document]) } } := by
  unfold addDocument at hadd
  split at hadd
  · contradiction
  · rename_i state hopened
    unfold buffered at hadd
    split at hadd
    · contradiction
    · rename_i buffer hbuffer
      exact ⟨state, buffer, opened_eq_ok_iff.mp hopened, hbuffer, (Except.ok.inj hadd).symm⟩

/-- Adding a text is adding the document that it means. -/
theorem Index.add_eq_ok {index next : Index} {text : String} (hadd : index.add text = .ok next) :
    ∃ document, index.documentOf? text = some document ∧
      index.addDocument document = .ok next := by
  unfold add at hadd
  split at hadd
  · contradiction
  · rename_i state hopened
    split at hadd
    · contradiction
    · rename_i document hdocument
      refine ⟨document, ?_, ?_⟩
      · rw [documentOf?, opened_eq_ok_iff.mp hopened, Option.bind_some, hdocument]
        rfl
      · rw [addDocument, hopened]
        exact hadd

theorem Index.rollback_eq_ok {index next : Index} (hrollback : index.rollback = .ok next) :
    ∃ state buffer, index.state = some state ∧ state.buffer = some buffer ∧
      next = { index with state := some { state with buffer := some [] } } := by
  unfold rollback at hrollback
  split at hrollback
  · contradiction
  · rename_i state hopened
    split at hrollback
    · contradiction
    · rename_i buffer hbuffer
      exact ⟨state, buffer, opened_eq_ok_iff.mp hopened, hbuffer, (Except.ok.inj hrollback).symm⟩

theorem Index.close_eq_ok {disk after : Disk} {index next : Index}
    (hclose : index.close disk = .ok (after, next)) :
    ∃ state, index.state = some state ∧ after = unlock disk index state ∧
      next = { index with state := none } := by
  unfold close at hclose
  split at hclose
  · contradiction
  · rename_i state hopened
    obtain ⟨rfl, rfl⟩ := Prod.mk.inj (Except.ok.inj hclose)
    exact ⟨state, opened_eq_ok_iff.mp hopened, rfl, rfl⟩

/-- What a call that succeeds on a handle does to the documents. -/
def Call.effect (index : Index) : Call → Event
  | .add text => (index.documentOf? text).elim .nothing .added
  | .addDocument document => .added document
  | .commit => .committed
  | .rollback | .close => .discarded
  | .size | .search _ | .ask _ | .reopen _ _ => .nothing

namespace Session

/-- What a call does, if it succeeds. -/
def perform [Segmenter] (session : Session) : Call → Except IndexError (Session × Reply)
  | .add text => (session.index.add text).map fun index => ({ session with index }, .done)
  | .addDocument document =>
      (session.index.addDocument document).map fun index => ({ session with index }, .done)
  | .commit => (session.index.commit session.disk).map fun (disk, index) => (⟨disk, index⟩, .done)
  | .rollback => session.index.rollback.map fun index => ({ session with index }, .done)
  | .size => session.index.size.map fun n => (session, .size n)
  | .search text => (session.index.search text).map fun page => (session, .page page)
  | .ask request => (session.index.answer request).map fun page => (session, .page page)
  | .close => (session.index.close session.disk).map fun (disk, index) => (⟨disk, index⟩, .done)
  | .reopen settings budget =>
      (Index.openExisting session.disk (session.index.reopening settings budget)).map
        fun (disk, index) => (⟨disk, index⟩, .done)

/-- The session after a call, failing or not. -/
def step [Segmenter] (session : Session) (call : Call) : Session :=
  match session.perform call with
  | .ok (next, _) => next
  | .error _ => session

def run [Segmenter] (session : Session) (calls : List Call) : Session :=
  calls.foldl step session

/-- What a call does to the documents; nothing, if it fails. -/
def event [Segmenter] (session : Session) (call : Call) : Event :=
  match session.perform call with
  | .error _ => .nothing
  | .ok _ => call.effect session.index

def events [Segmenter] (session : Session) : List Call → List Event
  | [] => []
  | call :: rest => session.event call :: (session.step call).events rest

theorem step_of_error [Segmenter] {session : Session} {call : Call} {fault : IndexError}
    (hfail : session.perform call = .error fault) : session.step call = session := by
  rw [step, hfail]

theorem step_of_ok [Segmenter] {session next : Session} {call : Call} {reply : Reply}
    (hperform : session.perform call = .ok (next, reply)) : session.step call = next := by
  rw [step, hperform]

theorem event_of_error [Segmenter] {session : Session} {call : Call} {fault : IndexError}
    (hfail : session.perform call = .error fault) : session.event call = .nothing := by
  rw [event, hfail]

/-- A call that only looks at the index leaves the session as it is. -/
theorem step_of_isRead [Segmenter] {call : Call} (hread : call.isRead = true) (session : Session) :
    session.step call = session := by
  cases hperform : session.perform call with
  | error fault => exact step_of_error hperform
  | ok result =>
      rw [step_of_ok hperform]
      cases call with
      | size | search | ask =>
          rw [perform, map_eq_ok_iff] at hperform
          obtain ⟨_, -, hresult⟩ := hperform
          exact (congrArg Prod.fst hresult).symm
      | add | addDocument | commit | rollback | close | reopen => contradiction

/--
What a history of calls comes to. The directory was founded on the disk `created`; only the file of
documents has changed since then. A handle that is open holds the directory, and shows what is on
disk.
-/
structure Tracks (created : Disk) (directory : String) (schema : Schema) (events : List Event)
    (session : Session) : Prop where
  path : session.index.path = directory
  frame : ∀ path, path ≠ storePath directory →
    session.disk.files.node? path = created.files.node? path
  stored : session.disk.files.node? (storePath directory) =
    some (.file (.index ⟨schema.storage, published events⟩))
  opened : ∀ state, session.index.state = some state →
    state.schema.storage = schema.storage ∧ state.committed = published events ∧
      state.buffer = some (pending events) ∧ session.disk.locked = created.locked
  closed : session.index.state = none →
    pending events = [] ∧ session.disk.locked = created.locked.erase (pathOf directory)

section

variable {created : Disk} {directory : String} {schema : Schema} {events : List Event}
  {session : Session}

theorem tracks_of_open {state : OpenIndex} (hstate : session.index.state = some state)
    (hpath : session.index.path = directory)
    (hframe : ∀ path, path ≠ storePath directory →
      session.disk.files.node? path = created.files.node? path)
    (hstored : session.disk.files.node? (storePath directory) =
      some (.file (.index ⟨schema.storage, published events⟩)))
    (hstorage : state.schema.storage = schema.storage)
    (hcommitted : state.committed = published events)
    (hbuffer : state.buffer = some (pending events))
    (hlocked : session.disk.locked = created.locked) :
    Tracks created directory schema events session := by
  refine ⟨hpath, hframe, hstored, ?_, ?_⟩
  · intro other hother
    obtain rfl := Option.some.inj (hstate.symm.trans hother)
    exact ⟨hstorage, hcommitted, hbuffer, hlocked⟩
  · intro hnone
    simp [hstate] at hnone

theorem tracks_of_create {disk : Disk} {options : IndexOptions} {index : Index}
    (hcreate : Index.create disk options schema = (created, .ok index)) :
    Tracks created index.path schema [] ⟨created, index⟩ := by
  obtain ⟨hfounded, -, hstate⟩ := Index.founded_of_create hcreate
  exact tracks_of_open hstate rfl (fun _ _ => rfl) hfounded.store rfl rfl rfl rfl

/-- The one path that a run writes to is that of a file, so all directories stay as they were. -/
theorem Tracks.sameFolders (htracks : Tracks created directory schema events session)
    (hfounded : Index.Founded directory schema created) :
    session.disk.files.SameFolders created.files := by
  intro path
  by_cases hpath : path = storePath directory
  · simp [hpath, htracks.stored, hfounded.store]
  · rw [htracks.frame path hpath]

theorem Tracks.opens (htracks : Tracks created directory schema events session)
    (hfounded : Index.Founded directory schema created) : session.disk.files.Opens directory :=
  (htracks.sameFolders hfounded).opens_iff.mpr hfounded.opens

/-- On an open handle a commit succeeds. -/
theorem Tracks.commit_eq_ok (htracks : Tracks created directory schema events session)
    (hfounded : Index.Founded directory schema created) {state : OpenIndex}
    (hopen : session.index.state = some state) :
    session.index.commit session.disk = .ok
      ({ session.disk with
          files := session.disk.files.put (storePath directory)
            (.file (.index ⟨schema.storage, published events ++ pending events⟩)) },
        { session.index with
          state := some { state with
            committed := published events ++ pending events, buffer := some [] } }) := by
  obtain ⟨hstorage, hcommitted, hbuffer, -⟩ := htracks.opened state hopen
  have hnode : session.disk.files.node? (storePath directory) ≠ some .directory := by
    simp [htracks.stored]
  have hwrite := Files.write_eq_ok hnode
    (by rw [dropLast_storePath]; exact (htracks.opens hfounded).hasDirectory)
  simp only [Index.commit, Index.opened, hopen, hbuffer, hcommitted, hstorage, htracks.path, hwrite]

/-- Reopening succeeds on a closed handle only, and shows what is on disk. -/
theorem Tracks.reopen_eq_ok (htracks : Tracks created directory schema events session)
    (hfounded : Index.Founded directory schema created) {settings : Settings}
    {budget : Option Nat} {disk : Disk} {index : Index}
    (hreopen : Index.openExisting session.disk (session.index.reopening settings budget) =
      .ok (disk, index)) :
    session.index.state = none ∧ disk = { session.disk with locked := created.locked } ∧
      ∃ another : Schema, another.storage = schema.storage ∧
        index = ⟨directory, settings, some ⟨another, published events, some []⟩⟩ := by
  obtain ⟨others, hlocked, hfresh⟩ := hfounded.locked
  have hpath : (session.index.reopening settings budget).path = some directory := by
    rw [Index.reopening, htracks.path]
  obtain ⟨another, documents, -, -, -, hstored, hlock, rfl⟩ :=
    (Index.openExisting_eq_ok_iff hpath rfl).mp hreopen
  rw [Index.lock_eq_ok_iff] at hlock
  obtain ⟨hfree, -, -, rfl⟩ := hlock
  rw [Index.stored_eq_ok_iff, htracks.stored] at hstored
  obtain ⟨hstorage, rfl⟩ : schema.storage = another.storage ∧ published events = documents := by
    simpa using hstored
  cases hstate : session.index.state with
  | some state =>
      obtain ⟨-, -, -, hheld⟩ := htracks.opened state hstate
      rw [hheld, hlocked] at hfree
      exact absurd List.mem_cons_self hfree
  | none =>
      obtain ⟨-, hheld⟩ := htracks.closed hstate
      refine ⟨rfl, ?_, another, hstorage.symm, rfl⟩
      rw [hheld, hlocked, List.erase_cons_head]

theorem Tracks.of_eq (htracks : Tracks created directory schema events session)
    {others : List Event} (hpublished : published others = published events)
    (hpending : pending others = pending events) :
    Tracks created directory schema others session := by
  obtain ⟨hpath, hframe, hstored, hopened, hclosed⟩ := htracks
  rw [← hpublished] at hstored
  simp only [← hpublished, ← hpending] at hopened hclosed
  exact ⟨hpath, hframe, hstored, hopened, hclosed⟩

theorem Tracks.nothing (htracks : Tracks created directory schema events session) :
    Tracks created directory schema (events ++ [.nothing]) session :=
  htracks.of_eq (published_concat (by simp) events) (pending_concat_nothing events)

theorem Tracks.added (htracks : Tracks created directory schema events session)
    {document : Document} {index : Index}
    (hadd : session.index.addDocument document = .ok index) :
    Tracks created directory schema (events ++ [.added document])
      { session with index := index } := by
  obtain ⟨state, buffer, hstate, hbuffer, rfl⟩ := Index.addDocument_eq_ok hadd
  obtain ⟨hstorage, hcommitted, hpending, hlocked⟩ := htracks.opened state hstate
  have hpublished : published (events ++ [.added document]) = published events :=
    published_concat (by simp) events
  refine tracks_of_open rfl htracks.path htracks.frame ?_ hstorage
    (hcommitted.trans hpublished.symm) ?_ hlocked
  · rw [hpublished]
    exact htracks.stored
  · obtain rfl := Option.some.inj (hbuffer.symm.trans hpending)
    rw [pending_concat_added]

theorem Tracks.committed (htracks : Tracks created directory schema events session)
    (hfounded : Index.Founded directory schema created) {disk : Disk} {index : Index}
    (hcommit : session.index.commit session.disk = .ok (disk, index)) :
    Tracks created directory schema (events ++ [.committed]) ⟨disk, index⟩ := by
  cases hstate : session.index.state with
  | none => simp [Index.commit, Index.opened, hstate] at hcommit
  | some state =>
      obtain ⟨hstorage, -, -, hlocked⟩ := htracks.opened state hstate
      rw [htracks.commit_eq_ok hfounded hstate] at hcommit
      obtain ⟨rfl, rfl⟩ := Prod.mk.inj (Except.ok.inj hcommit)
      have hpending : pending (events ++ [.committed]) = [] := pending_concat_of_ends rfl events
      refine tracks_of_open rfl htracks.path ?_ ?_ hstorage
        (published_concat_committed events).symm (by rw [hpending]) hlocked
      · intro path hpath
        rw [Files.node?_put (storePath_ne_nil directory), if_neg hpath]
        exact htracks.frame path hpath
      · rw [Files.node?_put (storePath_ne_nil directory), if_pos rfl, published_concat_committed]

theorem Tracks.rolledBack (htracks : Tracks created directory schema events session)
    {index : Index} (hrollback : session.index.rollback = .ok index) :
    Tracks created directory schema (events ++ [.discarded]) { session with index := index } := by
  obtain ⟨state, buffer, hstate, hbuffer, rfl⟩ := Index.rollback_eq_ok hrollback
  obtain ⟨hstorage, hcommitted, -, hlocked⟩ := htracks.opened state hstate
  have hpublished : published (events ++ [.discarded]) = published events :=
    published_concat (by simp) events
  have hpending : pending (events ++ [.discarded]) = [] := pending_concat_of_ends rfl events
  refine tracks_of_open rfl htracks.path htracks.frame ?_ hstorage
    (hcommitted.trans hpublished.symm) (by rw [hpending]) hlocked
  rw [hpublished]
  exact htracks.stored

theorem Tracks.closing (htracks : Tracks created directory schema events session)
    {disk : Disk} {index : Index}
    (hclose : session.index.close session.disk = .ok (disk, index)) :
    Tracks created directory schema (events ++ [.discarded]) ⟨disk, index⟩ := by
  obtain ⟨state, hstate, rfl, rfl⟩ := Index.close_eq_ok hclose
  obtain ⟨-, -, hbuffer, hlocked⟩ := htracks.opened state hstate
  have hunlock : Index.unlock session.disk session.index state =
      { session.disk with locked := created.locked.erase (pathOf directory) } := by
    simp only [Index.unlock, hbuffer, hlocked, htracks.path]
  rw [hunlock]
  refine ⟨htracks.path, htracks.frame, ?_, ?_, ?_⟩
  · rw [published_concat (by simp) events]
    exact htracks.stored
  · intro other hother
    simp at hother
  · intro hnone
    exact ⟨pending_concat_of_ends rfl events, rfl⟩

theorem Tracks.reopened (htracks : Tracks created directory schema events session)
    (hfounded : Index.Founded directory schema created) {settings : Settings}
    {budget : Option Nat} {disk : Disk} {index : Index}
    (hreopen : Index.openExisting session.disk (session.index.reopening settings budget) =
      .ok (disk, index)) :
    Tracks created directory schema events ⟨disk, index⟩ := by
  obtain ⟨hnone, rfl, another, hstorage, rfl⟩ := htracks.reopen_eq_ok hfounded hreopen
  obtain ⟨hpending, -⟩ := htracks.closed hnone
  exact tracks_of_open rfl rfl htracks.frame htracks.stored hstorage rfl (by rw [hpending]) rfl

/-- One call extends the history by what it does to the documents. -/
theorem Tracks.step [Segmenter] (htracks : Tracks created directory schema events session)
    (hfounded : Index.Founded directory schema created) (call : Call) :
    Tracks created directory schema (events ++ [session.event call]) (session.step call) := by
  cases hperform : session.perform call with
  | error fault =>
      rw [event_of_error hperform, step_of_error hperform]
      exact htracks.nothing
  | ok result =>
      obtain ⟨next, reply⟩ := result
      rw [step_of_ok hperform, event, hperform]
      cases call with
      | size | search | ask =>
          rw [← step_of_ok hperform, step_of_isRead rfl]
          exact htracks.nothing
      | add text =>
          obtain ⟨index, hadd, hresult⟩ := map_eq_ok_iff.mp hperform
          obtain ⟨rfl, -⟩ := Prod.mk.inj hresult
          obtain ⟨document, hdocument, hadd⟩ := Index.add_eq_ok hadd
          simp only [Call.effect, hdocument, Option.elim_some]
          exact htracks.added hadd
      | addDocument document =>
          obtain ⟨index, hadd, hresult⟩ := map_eq_ok_iff.mp hperform
          obtain ⟨rfl, -⟩ := Prod.mk.inj hresult
          exact htracks.added hadd
      | commit =>
          obtain ⟨⟨disk, index⟩, hcommit, hresult⟩ := map_eq_ok_iff.mp hperform
          obtain ⟨rfl, -⟩ := Prod.mk.inj hresult
          exact htracks.committed hfounded hcommit
      | rollback =>
          obtain ⟨index, hrollback, hresult⟩ := map_eq_ok_iff.mp hperform
          obtain ⟨rfl, -⟩ := Prod.mk.inj hresult
          exact htracks.rolledBack hrollback
      | close =>
          obtain ⟨⟨disk, index⟩, hclose, hresult⟩ := map_eq_ok_iff.mp hperform
          obtain ⟨rfl, -⟩ := Prod.mk.inj hresult
          exact htracks.closing hclose
      | reopen settings budget =>
          obtain ⟨⟨disk, index⟩, hreopen, hresult⟩ := map_eq_ok_iff.mp hperform
          obtain ⟨rfl, -⟩ := Prod.mk.inj hresult
          exact (htracks.reopened hfounded hreopen).nothing

/-- A run extends the history by its own. -/
theorem Tracks.run [Segmenter] (htracks : Tracks created directory schema events session)
    (hfounded : Index.Founded directory schema created) (calls : List Call) :
    Tracks created directory schema (events ++ session.events calls) (session.run calls) := by
  induction calls generalizing events session with
  | nil =>
      rw [Session.events, List.append_nil]
      exact htracks
  | cons call rest ih =>
      have hrest := ih (htracks.step hfounded call)
      rwa [List.append_assoc, List.singleton_append] at hrest

/-- A closed handle can be reopened whenever its directory could be opened when it was new. -/
theorem Tracks.reopen_iff (htracks : Tracks created directory schema events session)
    (hfounded : Index.Founded directory schema created) (hclosed : session.index.state = none)
    {settings : Settings} (hschema : pathOf (joinText directory settings.schemaFile) ≠
      storePath directory) (budget : Option Nat) :
    (∃ opened, Index.openExisting session.disk (session.index.reopening settings budget) =
        .ok opened) ↔
      ∃ opened, Index.openExisting
        { created with locked := created.locked.erase (pathOf directory) }
        (session.index.reopening settings budget) = .ok opened := by
  obtain ⟨-, hlocked⟩ := htracks.closed hclosed
  have hpath : (session.index.reopening settings budget).path = some directory := by
    rw [Index.reopening, htracks.path]
  have hread : Index.readSchema session.disk.files (session.index.reopening settings budget)
      directory = Index.readSchema created.files (session.index.reopening settings budget)
        directory :=
    Index.readSchema_congr (htracks.sameFolders hfounded).leads_iff (htracks.frame _ hschema)
  have hlist := Index.hasReadableList_congr
    (htracks.frame _ (Index.listPath_ne_storePath directory))
  simp only [Prod.exists, Index.openExisting_eq_ok_iff hpath rfl, hread,
    (htracks.sameFolders hfounded).opens_iff, hlist, Index.stored_eq_ok_iff,
    Index.lock_eq_ok_iff, htracks.stored, hfounded.store, hlocked]
  simp only [Option.some.injEq, Node.file.injEq, Content.index.injEq, StoredIndex.mk.injEq]
  constructor
  · rintro ⟨_, _, another, _, hanother, hopens, hreadable, ⟨hstorage, -⟩,
      ⟨hfree, hleast, hbound, -⟩, -⟩
    exact ⟨_, _, another, [], hanother, hopens, hreadable, ⟨hstorage, rfl⟩,
      ⟨hfree, hleast, hbound, rfl⟩, rfl⟩
  · rintro ⟨_, _, another, _, hanother, hopens, hreadable, ⟨hstorage, -⟩,
      ⟨hfree, hleast, hbound, -⟩, -⟩
    exact ⟨_, _, another, published events, hanother, hopens, hreadable, ⟨hstorage, rfl⟩,
      ⟨hfree, hleast, hbound, rfl⟩, rfl⟩

end

end Session

namespace Index

/-- The handle with another buffer, if it is open. -/
def withBuffer (index : Index) (buffer : Option (List Document)) : Index :=
  { index with state := index.state.map fun state => { state with buffer := buffer } }

theorem size_withBuffer (index : Index) (buffer : Option (List Document)) :
    (index.withBuffer buffer).size = index.size := by
  unfold size opened withBuffer
  cases index.state <;> rfl

/-- Requests are answered without a look at the buffer. -/
theorem answer_withBuffer [Segmenter] (index : Index) (buffer : Option (List Document))
    (request : Request) :
    (index.withBuffer buffer).answer request = index.answer request := by
  unfold answer sought opened withBuffer
  cases index.state with
  | none => rfl
  | some state =>
      dsimp only [Option.map_some]
      cases hcriterion : criterion state.schema index.settings request.query with
      | error fault => rfl
      | ok criterion =>
          dsimp only
          cases criterion.refusal? state.schema <;> rfl

theorem search_withBuffer [Segmenter] (index : Index) (buffer : Option (List Document))
    (text : String) :
    (index.withBuffer buffer).search text = index.search text := by
  unfold search
  split
  · rfl
  · exact answer_withBuffer index buffer _

/-- An answer tells of committed documents only, each as often as it was committed at most. -/
theorem hits_of_answer [Segmenter] {index : Index} {state : OpenIndex} {request : Request}
    {page : Page} (hstate : index.state = some state) (hanswer : index.answer request = .ok page) :
    ∃ hits : List Hit, (hits.map (·.2)).Subperm state.committed ∧
      page.totalCount = UInt64.ofNat hits.length ∧
      page.rows.Sublist (rowsOf state.schema hits) := by
  unfold answer at hanswer
  split at hanswer
  · contradiction
  · rename_i found criterion hsought
    obtain rfl := Option.some.inj (hstate.symm.trans (sought_state hsought))
    obtain rfl := Except.ok.inj hanswer
    refine ⟨rank (state.committed.map (Entry.ofDocument state.schema)) criterion, ?_, rfl, ?_⟩
    · refine (documents_rank_perm _ _ _).subperm.trans ?_
      exact List.filter_sublist.subperm
    · exact (Paging.select_sublist _ _ _).map _

/-- The rows of an answer are those of committed documents. -/
theorem rows_of_answer [Segmenter] {index : Index} {state : OpenIndex} {request : Request}
    {page : Page} (hstate : index.state = some state) (hanswer : index.answer request = .ok page) :
    ∃ hits : List Hit, (hits.map (·.2)).Subperm state.committed ∧
      page.rows = rowsOf state.schema hits := by
  obtain ⟨ranking, hcommitted, -, hrows⟩ := hits_of_answer hstate hanswer
  obtain ⟨hits, hhits, heq⟩ := List.sublist_map_iff.mp hrows
  exact ⟨hits, (hhits.map _).subperm.trans hcommitted, heq⟩

end Index

namespace Session

/--
What a session tells of documents: those of `committed` are on disk, are counted, and are all that
an answer may be about; those of `buffer` are held back, and change no count and no answer.
-/
structure Shows [Segmenter] (session : Session) (committed buffer : List Document) : Prop where
  stored : ∃ storage,
    Index.stored session.disk.files session.index.path = .ok ⟨storage, committed⟩
  opened : ∀ state, session.index.state = some state →
    state.committed = committed ∧ state.buffer = some buffer
  closed : session.index.state = none → buffer = []
  size : session.index.size = session.index.opened.map fun _ => committed.length
  found : ∀ request page, session.index.answer request = .ok page →
    ∃ (state : OpenIndex) (hits : List Hit), session.index.state = some state ∧
      (hits.map (·.2)).Subperm committed ∧ page.totalCount = UInt64.ofNat hits.length ∧
      page.rows.Sublist (rowsOf state.schema hits)
  searched : ∀ text page, session.index.search text = .ok page →
    ∃ request, Request.ofText text = .ok request ∧ session.index.answer request = .ok page
  unbuffered : ∀ other, (session.index.withBuffer other).size = session.index.size ∧
    (∀ request, (session.index.withBuffer other).answer request = session.index.answer request) ∧
    ∀ text, (session.index.withBuffer other).search text = session.index.search text

/-- What an open handle becomes when it takes a text. -/
theorem perform_add [Segmenter] {session : Session} {state : OpenIndex} {buffer : List Document}
    {text : String} {document : Document} (hstate : session.index.state = some state)
    (hbuffer : state.buffer = some buffer)
    (hdocument : Document.ofText state.schema text session.index.settings.strict = .ok document) :
    session.perform (.add text) = .ok
      ({ session with index := { session.index with
          state := some { state with buffer := some (buffer ++ [document]) } } }, .done) := by
  simp only [perform, Index.add, Index.opened, hstate, hdocument, Index.buffered, hbuffer,
    Except.map]

/-- What an open handle takes: every document, and a text if it means one. -/
structure Writable [Segmenter] (session : Session) : Prop where
  addDocument : ∀ document, ∃ next, session.perform (.addDocument document) = .ok (next, .done)
  add : ∀ text document, session.index.documentOf? text = some document →
    ∃ next, session.perform (.add text) = .ok (next, .done)
  commit : ∃ next, session.perform .commit = .ok (next, .done)
  rollback : ∃ next, session.perform .rollback = .ok (next, .done)
  close : ∃ next, session.perform .close = .ok (next, .done)

section

variable {created : Disk} {directory : String} {schema : Schema} {events : List Event}
  {session : Session}

theorem Tracks.shows [Segmenter] (htracks : Tracks created directory schema events session) :
    session.Shows (published events) (pending events) where
  stored := ⟨schema.storage, by
    rw [Index.stored_eq_ok_iff, htracks.path]
    exact htracks.stored⟩
  opened state hstate := by
    obtain ⟨-, hcommitted, hbuffer, -⟩ := htracks.opened state hstate
    exact ⟨hcommitted, hbuffer⟩
  closed hnone := (htracks.closed hnone).1
  size := by
    unfold Index.size Index.opened
    cases hstate : session.index.state with
    | none => rfl
    | some state => simp only [Except.map, (htracks.opened state hstate).2.1]
  found request page hanswer := by
    cases hstate : session.index.state with
    | none => simp [Index.answer, Index.sought, Index.opened, hstate] at hanswer
    | some state =>
        obtain ⟨hits, hdocuments, htotal, hrows⟩ := Index.hits_of_answer hstate hanswer
        rw [(htracks.opened state hstate).2.1] at hdocuments
        exact ⟨state, hits, rfl, hdocuments, htotal, hrows⟩
  searched text page hsearch := by
    unfold Index.search at hsearch
    split at hsearch
    · contradiction
    · rename_i request hrequest
      exact ⟨request, hrequest, hsearch⟩
  unbuffered buffer := ⟨Index.size_withBuffer _ _, Index.answer_withBuffer _ _,
    Index.search_withBuffer _ _⟩

theorem Tracks.writable [Segmenter] (htracks : Tracks created directory schema events session)
    (hfounded : Index.Founded directory schema created) {state : OpenIndex}
    (hstate : session.index.state = some state) : session.Writable := by
  obtain ⟨-, -, hbuffer, -⟩ := htracks.opened state hstate
  constructor
  · intro document
    simp [perform, Index.addDocument, Index.opened, hstate, Index.buffered, hbuffer, Except.map]
  · intro text document hdocument
    obtain ⟨found, hfound, htext⟩ := Index.exists_of_documentOf? hdocument
    obtain rfl := Option.some.inj (hstate.symm.trans hfound)
    exact ⟨_, perform_add hstate hbuffer htext⟩
  · exact ⟨_, by rw [perform, htracks.commit_eq_ok hfounded hstate]; rfl⟩
  · simp [perform, Index.rollback, Index.opened, hstate, hbuffer, Except.map]
  · simp [perform, Index.close, Index.opened, hstate, Except.map]

end

/--
At every point of a run after a successful creation, a session shows the documents that were added
and then committed with nothing given up in between, each of them once, and holds back those that
were added since. Calls that fail or only look change nothing; an open handle can be written to.
Only a closed handle can be reopened, it can be whenever the new directory could have been opened,
and then it shows the same documents, and holds back none.
-/
theorem run_shows_published [Segmenter] {disk created : Disk} {options : IndexOptions}
    {schema : Schema} {index : Index}
    (hcreate : Index.create disk options schema = (created, .ok index)) (calls : List Call) :
    let session := Session.run ⟨created, index⟩ calls
    let events := Session.events ⟨created, index⟩ calls
    session.Shows (published events) (pending events) ∧
    (∀ call, (call.isRead = true ∨ ∃ fault, session.perform call = .error fault) →
      session.step call = session) ∧
    (∀ state, session.index.state = some state → session.Writable) ∧
    (∀ settings budget next reply,
      session.perform (.reopen settings budget) = .ok (next, reply) →
        session.index.state = none ∧ ∃ another : Schema, another.storage = schema.storage ∧
          next.index = ⟨index.path, settings, some ⟨another, published events, some []⟩⟩) ∧
    (session.index.state = none → ∀ settings budget,
      pathOf (joinText index.path settings.schemaFile) ≠ storePath index.path →
        ((∃ next, session.perform (.reopen settings budget) = .ok next) ↔
          ∃ opened, Index.openExisting
            { created with locked := created.locked.erase (pathOf index.path) }
            (index.reopening settings budget) = .ok opened)) := by
  intro session events
  have hfounded := (Index.founded_of_create hcreate).1
  have htracks : Tracks created index.path schema events session :=
    (tracks_of_create hcreate).run hfounded calls
  refine ⟨htracks.shows, ?_, ?_, ?_, ?_⟩
  · rintro call (hread | ⟨fault, hfail⟩)
    · exact step_of_isRead hread session
    · exact step_of_error hfail
  · intro state hstate
    exact htracks.writable hfounded hstate
  · intro settings budget next reply hperform
    obtain ⟨⟨after, handle⟩, hreopen, hresult⟩ := map_eq_ok_iff.mp hperform
    obtain ⟨rfl, -⟩ := Prod.mk.inj hresult
    obtain ⟨hnone, -, another, hstorage, rfl⟩ := htracks.reopen_eq_ok hfounded hreopen
    exact ⟨hnone, another, hstorage, rfl⟩
  · intro hnone settings budget hschema
    have hiff := htracks.reopen_iff hfounded hnone hschema budget
    have hoptions : session.index.reopening settings budget = index.reopening settings budget := by
      rw [Index.reopening, Index.reopening, htracks.path]
    rw [hoptions] at hiff
    rw [← hiff]
    simp [perform, hoptions, map_eq_ok_iff]

def libraryOptions : IndexOptions where
  path := some "library"

/-- A novel is committed, another one is given up, and a third one is left waiting. -/
def libraryCalls : List Call :=
  [.addDocument (novel "emma" 1815), .commit, .addDocument (novel "dracula" 1897), .rollback,
    .add "[]", .addDocument (novel "dune" 1965), .size]

section

attribute [local instance] Segmenter.byRuns

theorem library_shows_committed : ∃ created index,
    Index.create {} libraryOptions librarySchema = (created, .ok index) ∧
      (run ⟨created, index⟩ libraryCalls).Shows [novel "emma" 1815] [novel "dune" 1965] := by
  have hcreate : Index.create {} libraryOptions librarySchema = (_, .ok _) := rfl
  exact ⟨_, _, hcreate, (run_shows_published hcreate libraryCalls).1⟩

end

end Session

end DocIndex
