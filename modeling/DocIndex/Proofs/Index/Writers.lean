import DocIndex.Proofs.Index.Undoing
import DocIndex.Proofs.Index.World

/-!
Any number of handles on any number of directories. The directories that are taken are at every
point just those of the handles that are open for writing, each of them once: an opening that fails
takes none, and whatever ends a writer gives its directory back. From this follows who can open
what.
-/

namespace DocIndex

open Storage

namespace Index

/-- Tells whether an index is open for writing. -/
def isWriter (index : Index) : Bool :=
  (index.state.bind (·.buffer)).isSome

/-- The directories that an index works on as a writer: its own, or none. -/
def writing (index : Index) : List Path :=
  if index.isWriter then [pathOf index.path] else []

theorem exists_of_mem_writing {index : Index} {directory : Path}
    (hmem : directory ∈ index.writing) :
    directory = pathOf index.path ∧ ∃ state buffer,
      index.state = some state ∧ state.buffer = some buffer := by
  unfold writing at hmem
  split at hmem
  · rename_i hwriter
    refine ⟨List.mem_singleton.mp hmem, ?_⟩
    obtain ⟨buffer, hbuffer⟩ := Option.isSome_iff_exists.mp hwriter
    obtain ⟨state, hstate, hbuffer⟩ := Option.bind_eq_some_iff.mp hbuffer
    exact ⟨state, buffer, hstate, hbuffer⟩
  · contradiction

theorem writing_of_closed {index : Index} (hclosed : index.state = none) : index.writing = [] := by
  rw [writing, isWriter, hclosed]
  rfl

theorem writing_of_buffer {index : Index} {state : OpenIndex} {buffer : List Document}
    (hstate : index.state = some state) (hbuffer : state.buffer = some buffer) :
    index.writing = [pathOf index.path] := by
  rw [writing, isWriter, hstate, Option.bind_some, hbuffer]
  rfl

theorem writing_of_readOnly {index : Index} {state : OpenIndex}
    (hstate : index.state = some state) (hbuffer : state.buffer = none) : index.writing = [] := by
  rw [writing, isWriter, hstate, Option.bind_some, hbuffer]
  rfl

/-- The directories taken on a disk are those of some writers, each once. -/
structure Held (disk : Disk) (writers : List Path) : Prop where
  perm : disk.locked.Perm writers
  nodup : disk.locked.Nodup

section

variable {disk after : Disk} {writers others : List Path} {index : Index} {directory : Path}

theorem Held.of_perm (hheld : Held disk writers) (hperm : writers.Perm others) :
    Held disk others :=
  ⟨hheld.perm.trans hperm, hheld.nodup⟩

theorem Held.of_locked (hheld : Held disk writers) (hlocked : after.locked = disk.locked) :
    Held after writers := by
  constructor
  · rw [hlocked]
    exact hheld.perm
  · rw [hlocked]
    exact hheld.nodup

/-- A directory that is taken anew is one more, and was nobody's. -/
theorem Held.lock (hheld : Held disk writers) {budget : Nat} {files : Files}
    (hlock : Index.lock { disk with files := files } directory budget = .ok after) :
    directory ∉ writers ∧ Held after (directory :: writers) := by
  obtain ⟨hfree, -, -, rfl⟩ := lock_eq_ok_iff.mp hlock
  refine ⟨fun hmem => hfree (hheld.perm.mem_iff.mpr hmem), hheld.perm.cons directory, ?_⟩
  exact List.nodup_cons.mpr ⟨hfree, hheld.nodup⟩

/-- An index that is given up gives its directory back. -/
theorem Held.drop (hheld : Held disk (index.writing ++ others)) :
    Held (index.drop disk) others := by
  cases hstate : index.state with
  | none =>
      rw [writing_of_closed hstate, List.nil_append] at hheld
      simpa only [Index.drop, hstate] using hheld
  | some state =>
      cases hbuffer : state.buffer with
      | none =>
          rw [writing_of_readOnly hstate hbuffer, List.nil_append] at hheld
          simpa only [Index.drop, unlock, hstate, hbuffer] using hheld
      | some buffer =>
          rw [writing_of_buffer hstate hbuffer] at hheld
          simp only [Index.drop, unlock, hstate, hbuffer]
          refine ⟨?_, hheld.nodup.erase _⟩
          simpa using hheld.perm.erase (pathOf index.path)

end

theorem files_drop (disk : Disk) (index : Index) : (index.drop disk).files = disk.files := by
  unfold drop unlock
  split
  · rfl
  · split <;> rfl

theorem commit_eq_ok {disk after : Disk} {index next : Index}
    (hcommit : index.commit disk = .ok (after, next)) :
    ∃ state buffer, index.state = some state ∧ state.buffer = some buffer ∧
      after.locked = disk.locked ∧
      next = { index with
        state := some { state with
          committed := state.committed ++ buffer, buffer := some [] } } := by
  unfold commit at hcommit
  split at hcommit
  · contradiction
  · rename_i state hopened
    split at hcommit
    · contradiction
    · rename_i buffer hbuffer
      dsimp only at hcommit
      split at hcommit
      · contradiction
      · obtain ⟨rfl, rfl⟩ := Prod.mk.inj (Except.ok.inj hcommit)
        exact ⟨state, buffer, opened_eq_ok_iff.mp hopened, hbuffer, rfl, rfl⟩

theorem close_eq_drop {disk after : Disk} {index next : Index}
    (hclose : index.close disk = .ok (after, next)) :
    after = index.drop disk ∧ next.writing = [] := by
  obtain ⟨state, hstate, rfl, rfl⟩ := close_eq_ok hclose
  refine ⟨?_, writing_of_closed rfl⟩
  rw [drop, hstate]

/-- A new index is a writer in the directory that it has taken. -/
theorem held_of_create {disk after : Disk} {options : IndexOptions} {schema : Schema}
    {index : Index} {writers : List Path} (hheld : Held disk writers)
    (hcreate : create disk options schema = (after, .ok index)) :
    Held after (index.writing ++ writers) := by
  obtain ⟨directory, files, -, -, hlock, -, rfl⟩ := create_eq_ok hcreate
  exact (hheld.lock hlock).2

theorem locked_of_create_error {disk after : Disk} {options : IndexOptions} {schema : Schema}
    {fault : IndexError} (hcreate : create disk options schema = (after, .error fault)) :
    after.locked = disk.locked := by
  rcases create_eq_error hcreate with rfl | ⟨-, -, -, -, rfl⟩ <;> rfl

theorem held_of_openExisting {disk after : Disk} {options : IndexOptions} {index : Index}
    {writers : List Path} (hheld : Held disk writers)
    (hopen : openExisting disk options = .ok (after, index)) :
    Held after (index.writing ++ writers) := by
  obtain ⟨directory, schema, documents, -, -, -, -, -, rfl, hlock⟩ := openExisting_eq_ok hopen
  cases hreadOnly : options.readOnly with
  | true =>
      rw [if_pos hreadOnly] at hlock
      rw [hlock, writing_of_readOnly rfl rfl]
      exact hheld
  | false =>
      rw [if_neg (by simp [hreadOnly])] at hlock
      exact (hheld.lock hlock).2

/-- A directory is held once, so that another handle on it is no writer. -/
theorem Held.writing_eq_nil {disk : Disk} {index : Index} {writers : List Path}
    (hheld : Held disk (pathOf index.path :: (index.writing ++ writers))) :
    index.writing = [] := by
  rw [List.eq_nil_iff_forall_not_mem]
  intro path hmem
  obtain rfl := (exists_of_mem_writing hmem).1
  have hnodup := hheld.perm.nodup_iff.mp hheld.nodup
  exact (List.nodup_cons.mp hnodup).1 (List.mem_append_left _ hmem)

/-! Where an opening finds its directory taken -/

theorem fault_of_lock {disk : Disk} {directory : Path} {budget : Nat} {fault : IndexError}
    (hlock : lock disk directory budget = .error fault) :
    (∃ cause, fault = .engine cause) ∨ fault = .lockBusy ∧ directory ∈ disk.locked := by
  unfold lock at hlock
  split at hlock
  · rename_i htaken
    exact .inr ⟨(Except.error.inj hlock).symm, htaken⟩
  · split at hlock
    · exact .inl ⟨_, (Except.error.inj hlock).symm⟩
    · split at hlock
      · exact .inl ⟨_, (Except.error.inj hlock).symm⟩
      · contradiction

theorem lock_eq_lockBusy_iff {disk : Disk} {directory : Path} {budget : Nat} :
    lock disk directory budget = .error .lockBusy ↔ directory ∈ disk.locked := by
  constructor
  · intro hlock
    rcases fault_of_lock hlock with ⟨_, hfault⟩ | ⟨-, htaken⟩
    · contradiction
    · exact htaken
  · exact fun htaken => if_pos htaken

theorem readSchema_ne_lockBusy (files : Files) (options : IndexOptions) (directory : String) :
    readSchema files options directory ≠ .error .lockBusy := by
  unfold readSchema
  dsimp only
  split
  · simp
  · split
    · simp
    · rename_i text _
      cases Schema.ofText text <;> simp [Except.mapError]

theorem fault_of_stored {files : Files} {directory : String} {fault : IndexError}
    (hstored : stored files directory = .error fault) : fault = .engine .unreadable := by
  unfold stored at hstored
  split at hstored
  · contradiction
  · exact (Except.error.inj hstored).symm

/-- When the files of a new index cannot be written, it is the files that are to blame. -/
theorem fault_of_writeAll {files left : Files} {directory schemaFile : String} {schema : Schema}
    {fault : IndexError}
    (hfail : writeAll files directory schemaFile schema = .error (left, fault)) :
    (∃ cause, fault = .io cause) ∨ ∃ cause, fault = .engine cause := by
  have hio {files : Files} {result : Except IoFault Files}
      (hstep : ioStep files result = .error (left, fault)) : ∃ cause, fault = .io cause := by
    cases result with
    | ok files => simp [ioStep] at hstep
    | error cause => exact ⟨cause, (Prod.mk.inj (Except.error.inj hstep)).2.symm⟩
  rcases bind_eq_error_iff.mp hfail with hmade | ⟨made, -, hfail⟩
  · left
    unfold makeWay at hmade
    cases hcreate : files.createDirectories directory with
    | ok made => simp [hcreate, Except.mapError] at hmade
    | error failure =>
        rw [hcreate] at hmade
        exact ⟨_, (Prod.mk.inj (Except.error.inj hmade)).2.symm⟩
  · rcases bind_eq_error_iff.mp hfail with hstore | ⟨kept, -, hfail⟩
    · right
      unfold writeStore at hstore
      repeat' split at hstore
      all_goals first
        | exact ⟨_, (Prod.mk.inj (Except.error.inj hstore)).2.symm⟩
        | contradiction
    · left
      rcases bind_eq_error_iff.mp hfail with hdraft | ⟨drafted, -, hrename⟩
      · exact hio hdraft
      · exact hio hrename

theorem taken_of_openExisting {disk : Disk} {options : IndexOptions}
    (hopen : openExisting disk options = .error .lockBusy) :
    ∃ directory, options.path = some directory ∧ pathOf directory ∈ disk.locked := by
  unfold openExisting at hopen
  cases hpath : options.path with
  | none => simp [hpath, bind, Except.bind] at hopen
  | some directory =>
      refine ⟨directory, rfl, ?_⟩
      simp only [hpath] at hopen
      obtain ⟨found, hfound, hopen⟩ := (bind_eq_error_iff.mp hopen).resolve_left (by simp)
      obtain rfl := Except.ok.inj hfound
      obtain ⟨schema, -, hopen⟩ :=
        (bind_eq_error_iff.mp hopen).resolve_left (readSchema_ne_lockBusy _ _ _)
      split at hopen
      · simp [bind, Except.bind] at hopen
      · split at hopen
        · simp [bind, Except.bind] at hopen
        · obtain ⟨stored, -, hopen⟩ :=
            (bind_eq_error_iff.mp hopen).resolve_left fun hstored => by
              simpa using fault_of_stored hstored
          split at hopen
          · simp at hopen
          · split at hopen
            · simp [pure, Except.pure] at hopen
            · rcases bind_eq_error_iff.mp hopen with hlock | ⟨locked, -, hopen⟩
              · exact lock_eq_lockBusy_iff.mp hlock
              · simp [pure, Except.pure] at hopen

/--
What a failed creation has met: an index that is there already, files or an engine that refuse, or
a writer that has the directory.
-/
theorem fault_of_create {disk after : Disk} {options : IndexOptions} {schema : Schema}
    {fault : IndexError} (hcreate : create disk options schema = (after, .error fault)) :
    (after = disk ∧ ∃ directory, fault = .indexExists directory) ∨ (∃ cause, fault = .io cause) ∨
      (∃ cause, fault = .engine cause) ∨
      fault = .lockBusy ∧
        ∃ directory, options.path = some directory ∧ pathOf directory ∈ disk.locked := by
  unfold create at hcreate
  split at hcreate
  · obtain ⟨-, hfault⟩ := Prod.mk.inj hcreate
    exact .inr (.inl ⟨_, (Except.error.inj hfault).symm⟩)
  · rename_i directory hpath
    dsimp only at hcreate
    split at hcreate
    · obtain ⟨hsame, hfault⟩ := Prod.mk.inj hcreate
      exact .inl ⟨hsame.symm, directory, (Except.error.inj hfault).symm⟩
    · split at hcreate
      · rename_i hwrite
        obtain ⟨-, hfault⟩ := Prod.mk.inj hcreate
        obtain rfl := Except.error.inj hfault
        exact .inr ((fault_of_writeAll hwrite).imp_right .inl)
      · split at hcreate
        · rename_i hlocking
          obtain ⟨-, hfault⟩ := Prod.mk.inj hcreate
          obtain rfl := Except.error.inj hfault
          rcases bind_eq_error_iff.mp hlocking with hlock | ⟨locked, -, hlocking⟩
          · rcases fault_of_lock hlock with hengine | ⟨hbusy, htaken⟩
            · exact .inr (.inr (.inl hengine))
            · exact .inr (.inr (.inr ⟨hbusy, directory, hpath, htaken⟩))
          · rcases bind_eq_error_iff.mp hlocking with hstored | ⟨found, -, hlocking⟩
            · exact .inr (.inr (.inl ⟨_, fault_of_stored hstored⟩))
            · contradiction
        · simp at hcreate

theorem taken_of_create {disk after : Disk} {options : IndexOptions} {schema : Schema}
    (hcreate : create disk options schema = (after, .error .lockBusy)) :
    ∃ directory, options.path = some directory ∧ pathOf directory ∈ disk.locked := by
  rcases fault_of_create hcreate with
    ⟨-, _, hfault⟩ | ⟨_, hfault⟩ | ⟨_, hfault⟩ | ⟨-, htaken⟩
  · contradiction
  · contradiction
  · contradiction
  · exact htaken

/-! Openings -/

/-- What all ways to get an index have in common, if what they rest on has it. -/
theorem Opening.perform_cases {disk after : Disk} {options : IndexOptions} {opening : Opening}
    {result : Except IndexError Index} (hperform : opening.perform disk options = (after, result)) :
    (∃ schema, create disk options schema = (after, result)) ∨
      (∃ index, openExisting disk options = .ok (after, index) ∧ result = .ok index) ∨
      ∃ fault, after = disk ∧ result = .error fault ∧
        ((∃ cause, fault = .schema cause) ∨
          opening = .existing ∧ openExisting disk options = .error fault) := by
  cases opening with
  | ofText text =>
      simp only [Opening.perform, createFromText] at hperform
      split at hperform
      · obtain ⟨rfl, rfl⟩ := Prod.mk.inj hperform
        exact .inr (.inr ⟨_, rfl, rfl, .inl ⟨_, rfl⟩⟩)
      · exact .inl ⟨_, hperform⟩
  | ofDefinition definition =>
      simp only [Opening.perform, createFromDefinition] at hperform
      split at hperform
      · obtain ⟨rfl, rfl⟩ := Prod.mk.inj hperform
        exact .inr (.inr ⟨_, rfl, rfl, .inl ⟨_, rfl⟩⟩)
      · exact .inl ⟨_, hperform⟩
  | existing =>
      simp only [Opening.perform] at hperform
      split at hperform
      · rename_i opened index hopen
        obtain ⟨rfl, rfl⟩ := Prod.mk.inj hperform
        exact .inr (.inl ⟨index, hopen, rfl⟩)
      · rename_i fault hopen
        obtain ⟨rfl, rfl⟩ := Prod.mk.inj hperform
        exact .inr (.inr ⟨fault, rfl, rfl, .inr ⟨rfl, hopen⟩⟩)

section

variable {disk after : Disk} {options : IndexOptions} {opening : Opening} {writers : List Path}

theorem Opening.held (hheld : Held disk writers) {index : Index}
    (hperform : opening.perform disk options = (after, .ok index)) :
    Held after (index.writing ++ writers) := by
  rcases Opening.perform_cases hperform with ⟨schema, hcreate⟩ | ⟨other, hopen, hindex⟩ |
    ⟨fault, -, hfault, -⟩
  · exact held_of_create hheld hcreate
  · obtain rfl := Except.ok.inj hindex
    exact held_of_openExisting hheld hopen
  · contradiction

theorem Opening.locked_of_error {fault : IndexError}
    (hperform : opening.perform disk options = (after, .error fault)) :
    after.locked = disk.locked := by
  rcases Opening.perform_cases hperform with ⟨schema, hcreate⟩ | ⟨other, hopen, hindex⟩ |
    ⟨cause, hafter, -, -⟩
  · exact locked_of_create_error hcreate
  · contradiction
  · rw [hafter]

theorem Opening.taken_of_lockBusy
    (hperform : opening.perform disk options = (after, .error .lockBusy)) :
    ∃ directory, options.path = some directory ∧ pathOf directory ∈ disk.locked := by
  rcases Opening.perform_cases hperform with ⟨schema, hcreate⟩ | ⟨other, hopen, hindex⟩ |
    ⟨fault, -, hfault, hcause⟩
  · exact taken_of_create hcreate
  · contradiction
  · obtain rfl := Except.error.inj hfault
    rcases hcause with ⟨cause, hcause⟩ | ⟨-, hopen⟩
    · contradiction
    · exact taken_of_openExisting hopen

end

/-- An index is in a directory, and its schema is the one that its documents are kept by. -/
structure Present (files : Files) (options : IndexOptions) (directory : String) (schema : Schema)
    (documents : List Document) : Prop where
  path : options.path = some directory
  read : readSchema files options directory = .ok schema
  opens : files.Opens directory
  listed : hasReadableList files directory = true
  kept : stored files directory = .ok ⟨schema.storage, documents⟩

/-- An index that has just been created is there. -/
theorem present_of_create {disk after : Disk} {options : IndexOptions} {schema : Schema}
    {index : Index} (hcreate : create disk options schema = (after, .ok index))
    (hlist : pathOf (options.schemaText index.path) ≠ listPath index.path) :
    Present after.files options index.path schema [] := by
  have hfounded := (founded_of_create hcreate).1
  obtain ⟨directory, files, hpath, hwrite, hlock, -, rfl⟩ := create_eq_ok hcreate
  obtain ⟨-, -, -, rfl⟩ := lock_eq_ok_iff.mp hlock
  exact ⟨hpath, readSchema_of_node (leads_of_writeAll hwrite) (schemaNode_of_writeAll hwrite),
    hfounded.opens, hasReadableList_of_writeAll hwrite hlist, stored_eq_ok_iff.mpr hfounded.store⟩

section

variable {disk : Disk} {options : IndexOptions} {directory : String} {schema : Schema}
  {documents : List Document}

theorem Present.openExisting_readOnly
    (hpresent : Present disk.files options directory schema documents)
    (hreadOnly : options.readOnly = true) :
    openExisting disk options =
      .ok (disk, ⟨directory, options.settings, some ⟨schema, documents, none⟩⟩) := by
  rw [openExisting_of_parts hpresent.path hpresent.read hpresent.opens hpresent.listed
    hpresent.kept, if_pos hreadOnly]

theorem Present.openExisting_free
    (hpresent : Present disk.files options directory schema documents)
    (hwriter : options.readOnly = false) (hleast : leastBudget ≤ options.writerBudget)
    (hbound : options.writerBudget < budgetBound) (hfree : pathOf directory ∉ disk.locked) :
    openExisting disk options =
      .ok ({ disk with locked := pathOf directory :: disk.locked },
        ⟨directory, options.settings, some ⟨schema, documents, some []⟩⟩) := by
  rw [openExisting_of_parts hpresent.path hpresent.read hpresent.opens hpresent.listed
    hpresent.kept, hwriter, lock_eq_ok_iff.mpr ⟨hfree, hleast, hbound, rfl⟩]
  rfl

end

end Index

/-! Calls on one of the handles -/

namespace Session

/-- A call changes what its handle holds of the directories, and nothing else. -/
theorem held_of_perform [Segmenter] {session next : Session} {call : Call} {reply : Reply}
    {others : List Path} (hheld : Index.Held session.disk (session.index.writing ++ others))
    (hperform : session.perform call = .ok (next, reply)) :
    Index.Held next.disk (next.index.writing ++ others) := by
  have hwritten {state after : OpenIndex} {buffer kept : List Document} {index : Index}
      (hstate : session.index.state = some state) (hbuffer : state.buffer = some buffer)
      (hafter : after.buffer = some kept)
      (hindex : index = { session.index with state := some after }) :
      index.writing = session.index.writing := by
    rw [Index.writing_of_buffer hstate hbuffer, hindex, Index.writing_of_buffer rfl hafter]
  cases call with
  | add text =>
      obtain ⟨index, hadd, hresult⟩ := map_eq_ok_iff.mp hperform
      obtain ⟨rfl, -⟩ := Prod.mk.inj hresult
      obtain ⟨document, -, hadd⟩ := Index.add_eq_ok hadd
      obtain ⟨state, buffer, hstate, hbuffer, hindex⟩ := Index.addDocument_eq_ok hadd
      rw [hwritten hstate hbuffer rfl hindex]
      exact hheld
  | addDocument document =>
      obtain ⟨index, hadd, hresult⟩ := map_eq_ok_iff.mp hperform
      obtain ⟨rfl, -⟩ := Prod.mk.inj hresult
      obtain ⟨state, buffer, hstate, hbuffer, hindex⟩ := Index.addDocument_eq_ok hadd
      rw [hwritten hstate hbuffer rfl hindex]
      exact hheld
  | commit =>
      obtain ⟨⟨disk, index⟩, hcommit, hresult⟩ := map_eq_ok_iff.mp hperform
      obtain ⟨rfl, -⟩ := Prod.mk.inj hresult
      obtain ⟨state, buffer, hstate, hbuffer, hlocked, hindex⟩ := Index.commit_eq_ok hcommit
      rw [hwritten hstate hbuffer rfl hindex]
      exact hheld.of_locked hlocked
  | rollback =>
      obtain ⟨index, hrollback, hresult⟩ := map_eq_ok_iff.mp hperform
      obtain ⟨rfl, -⟩ := Prod.mk.inj hresult
      obtain ⟨state, buffer, hstate, hbuffer, hindex⟩ := Index.rollback_eq_ok hrollback
      rw [hwritten hstate hbuffer rfl hindex]
      exact hheld
  | size | search | ask =>
      obtain ⟨answer, -, hresult⟩ := map_eq_ok_iff.mp hperform
      obtain ⟨rfl, -⟩ := Prod.mk.inj hresult
      exact hheld
  | close =>
      obtain ⟨⟨disk, index⟩, hclose, hresult⟩ := map_eq_ok_iff.mp hperform
      obtain ⟨rfl, -⟩ := Prod.mk.inj hresult
      obtain ⟨rfl, hclosed⟩ := Index.close_eq_drop hclose
      rw [hclosed]
      exact hheld.drop
  | reopen settings budget =>
      obtain ⟨⟨disk, index⟩, hopen, hresult⟩ := map_eq_ok_iff.mp hperform
      obtain ⟨rfl, -⟩ := Prod.mk.inj hresult
      have hafter := Index.held_of_openExisting hheld hopen
      obtain ⟨directory, schema, documents, hpath, -, -, -, -, rfl, -⟩ :=
        Index.openExisting_eq_ok hopen
      obtain rfl := Option.some.inj hpath
      -- The directory was free, so the handle that gives way to the new one was no writer.
      rw [Index.writing_of_buffer rfl rfl, List.singleton_append] at hafter ⊢
      rw [hafter.writing_eq_nil, List.nil_append] at hafter
      exact hafter

end Session

/-! Worlds -/

namespace World

/-- The directories that the handles work on as writers. -/
def writing (world : World) : List Path :=
  world.handles.flatMap fun handle => handle.elim [] Index.writing

/-- Some handle is open for writing in a directory. -/
def HasWriter (world : World) (directory : Path) : Prop :=
  ∃ position index, world.index? position = some index ∧ directory ∈ index.writing

section

variable {world : World} {position : Nat} {index : Index} {directory : Path}

theorem hasWriter_iff : world.HasWriter directory ↔ directory ∈ world.writing := by
  rw [writing, List.mem_flatMap]
  constructor
  · rintro ⟨position, index, hindex, hmem⟩
    exact ⟨some index, List.mem_of_getElem? (index?_eq_some_iff.mp hindex), hmem⟩
  · rintro ⟨handle, hhandle, hmem⟩
    obtain ⟨position, hposition⟩ := List.mem_iff_getElem?.mp hhandle
    cases handle with
    | none => contradiction
    | some index => exact ⟨position, index, index?_eq_some_iff.mpr hposition, hmem⟩

/-- One handle apart, the handles work on the same directories whatever becomes of that one. -/
theorem writing_replace (hindex : world.index? position = some index) :
    ∃ others, world.writing.Perm (index.writing ++ others) ∧
      ∀ disk handle, (world.replace disk position handle).writing.Perm
        (handle.elim [] Index.writing ++ others) := by
  obtain ⟨hlength, hhandle⟩ :=
    List.getElem?_eq_some_iff.mp (index?_eq_some_iff.mp hindex)
  obtain ⟨before, after, hhandles, hset⟩ :
      ∃ before after, world.handles = before ++ some index :: after ∧
        ∀ handle, world.handles.set position handle = before ++ handle :: after := by
    refine ⟨world.handles.take position, world.handles.drop (position + 1), ?_, ?_⟩
    · rw [← hhandle, List.cons_getElem_drop_succ, List.take_append_drop]
    · intro handle
      exact List.set_eq_take_append_cons_drop .. |>.trans (if_pos hlength)
  have hsplit (handle : Option Index) :
      ((before ++ handle :: after).flatMap fun handle => handle.elim [] Index.writing).Perm
        (handle.elim [] Index.writing ++
          (before ++ after).flatMap fun handle => handle.elim [] Index.writing) := by
    rw [List.flatMap_append, List.flatMap_append, List.flatMap_cons]
    exact List.perm_append_comm_assoc _ _ _
  refine ⟨(before ++ after).flatMap fun handle => handle.elim [] Index.writing, ?_, ?_⟩
  · rw [writing, hhandles]
    exact hsplit (some index)
  · intro disk handle
    rw [writing, replace, hset handle]
    exact hsplit handle

end

/-- The directories taken are those of the writers among the handles. -/
def Sound (world : World) : Prop :=
  Index.Held world.disk world.writing

theorem Sound.perform [Segmenter] {world : World} (hsound : world.Sound) (move : Move) :
    (world.perform move).1.Sound := by
  cases move with
  | get opening options =>
      unfold World.perform
      dsimp only
      split
      · rename_i disk index hget
        refine (Index.Opening.held hsound hget).of_perm ?_
        simp only [writing, List.flatMap_append, List.flatMap_singleton, Option.elim]
        exact List.perm_append_comm
      · rename_i disk fault hget
        exact hsound.of_locked (Index.Opening.locked_of_error hget)
  | call position call =>
      unfold World.perform
      dsimp only
      split
      · exact hsound
      · rename_i index hindex
        obtain ⟨others, hperm, hset⟩ := writing_replace hindex
        split
        · rename_i next reply hperform
          have hheld := Session.held_of_perform (hsound.of_perm hperm) hperform
          exact hheld.of_perm (hset next.disk (some next.index)).symm
        · exact hsound
  | drop position =>
      unfold World.perform
      dsimp only
      split
      · exact hsound
      · rename_i index hindex
        obtain ⟨others, hperm, hset⟩ := writing_replace hindex
        have hheld := (hsound.of_perm hperm).drop
        exact hheld.of_perm (hset (index.drop world.disk) none).symm

theorem Sound.run [Segmenter] {world : World} (hsound : world.Sound) (moves : List Move) :
    (world.run moves).Sound := by
  induction moves generalizing world with
  | nil => exact hsound
  | cons move rest ih => exact ih (hsound.perform move)

section

variable {world : World}

theorem Sound.taken_iff (hsound : world.Sound) {directory : Path} :
    directory ∈ world.disk.locked ↔ world.HasWriter directory :=
  hsound.perm.mem_iff.trans hasWriter_iff.symm

/-- A writer that is no more leaves no other one in its directory. -/
theorem Sound.free_of_replace (hsound : world.Sound) {position : Nat} {index : Index}
    {directory : Path} (hindex : world.index? position = some index)
    (hmem : directory ∈ index.writing) (disk : Disk) {handle : Option Index}
    (hended : handle.elim [] Index.writing = []) :
    ¬ (world.replace disk position handle).HasWriter directory := by
  obtain ⟨others, hperm, hset⟩ := writing_replace hindex
  have hnodup := (hsound.of_perm hperm).perm.nodup_iff.mp hsound.nodup
  rw [hasWriter_iff, (hset disk handle).mem_iff, hended, List.nil_append]
  intro hother
  exact (List.nodup_append.mp hnodup).2.2 _ hmem _ hother rfl

theorem Sound.unique (hsound : world.Sound) {position other : Nat} {first second : Index}
    {directory : Path} (hfirst : world.index? position = some first)
    (hsecond : world.index? other = some second) (hwriting : directory ∈ first.writing)
    (hother : directory ∈ second.writing) : position = other := by
  by_contra hne
  have hfree : ¬ (world.replace world.disk position none).HasWriter directory :=
    hsound.free_of_replace hfirst hwriting world.disk rfl
  apply hfree
  refine ⟨other, second, ?_, hother⟩
  rw [index?_replace hfirst, if_neg (Ne.symm hne)]
  exact hsecond

end

section

variable {world : World} {options : IndexOptions}

theorem Sound.busy [Segmenter] (hsound : world.Sound) {opening : Index.Opening}
    (hbusy : (world.perform (.get opening options)).2 = .failed .lockBusy) :
    ∃ directory, options.path = some directory ∧ world.HasWriter (pathOf directory) := by
  unfold World.perform at hbusy
  dsimp only at hbusy
  split at hbusy
  · contradiction
  · rename_i disk fault hget
    obtain rfl := Outcome.failed.inj hbusy
    obtain ⟨directory, hpath, htaken⟩ := Index.Opening.taken_of_lockBusy hget
    exact ⟨directory, hpath, hsound.taken_iff.mp htaken⟩

end

section

attribute [local instance] Segmenter.byRuns

end

end World

end DocIndex
