import DocIndex.Proofs.Index.Reopening

/-!
What a handle refuses. A closed handle refuses every call, and a read-only one every call that would
change the index; neither is changed by that. But some calls look at their argument first: a text
that is no request is called just that even on a closed handle, and a text that is no document of
the schema even on a read-only one. Between the calls on a handle the disk may change as it likes.
-/

namespace DocIndex

open Storage

/-- A call on the handle itself, not one for a new handle on its directory. -/
def Call.isOnHandle : Call → Bool
  | .reopen _ _ => false
  | _ => true

/-- A call that would change the documents. -/
def Call.isWrite : Call → Bool
  | .add _ | .addDocument _ | .commit | .rollback => true
  | _ => false

/-- What a handle finds wrong with the argument of a call before anything else but its schema. -/
def Call.objection? (index : Index) : Call → Option IndexError
  | .search text =>
      match Request.ofText text with
      | .error fault => some (.query fault)
      | .ok _ => none
  | .add text =>
      match index.state with
      | none => none
      | some state =>
          match Document.ofText state.schema text index.settings.strict with
          | .error fault => some (.document fault)
          | .ok _ => none
  | _ => none

/-- What a handle answers to a call if the fault of the handle comes second. -/
def Call.refusal (call : Call) (index : Index) (fault : IndexError) : IndexError :=
  (call.objection? index).getD fault

theorem Call.objection?_eq_some {index : Index} {call : Call} {fault : IndexError}
    (hobjection : call.objection? index = some fault) :
    (∃ cause, fault = .query cause) ∨ ∃ cause, fault = .document cause := by
  unfold objection? at hobjection
  split at hobjection
  · split at hobjection
    · exact .inl ⟨_, (Option.some.inj hobjection).symm⟩
    · contradiction
  · split at hobjection
    · contradiction
    · split at hobjection
      · exact .inr ⟨_, (Option.some.inj hobjection).symm⟩
      · contradiction
  · contradiction

/-- The handle after some calls, each with the disk that it meets. -/
def Index.after [Segmenter] (index : Index) : List (Disk × Call) → Index
  | [] => index
  | (disk, call) :: rest => (Session.step ⟨disk, index⟩ call).index.after rest

namespace Session

variable {index : Index} {call : Call}

/-- On this disk the handle refuses a call for a fault, unless it objects to the argument. -/
structure Refuses [Segmenter] (disk : Disk) (index : Index) (fault : IndexError) (call : Call) :
    Prop where
  refused : perform ⟨disk, index⟩ call = .error (call.refusal index fault)
  plain : perform ⟨disk, index⟩ call = .error fault ↔ call.objection? index = none
  unchanged : step ⟨disk, index⟩ call = ⟨disk, index⟩

theorem refuses_of_perform [Segmenter] {disk : Disk} {fault : IndexError}
    (hquery : ∀ cause, fault ≠ .query cause) (hdocument : ∀ cause, fault ≠ .document cause)
    (hperform : perform ⟨disk, index⟩ call = .error (call.refusal index fault)) :
    Refuses disk index fault call := by
  refine ⟨hperform, ?_, step_of_error hperform⟩
  rw [hperform, Except.error.injEq, Call.refusal]
  cases hobjection : call.objection? index with
  | none => simp
  | some other =>
      simp only [Option.getD_some, reduceCtorEq, iff_false]
      rintro rfl
      rcases Call.objection?_eq_some hobjection with ⟨cause, hcause⟩ | ⟨cause, hcause⟩
      · exact hquery cause hcause
      · exact hdocument cause hcause

/-- A closed handle refuses every call. -/
theorem perform_closed [Segmenter] (disk : Disk) (hclosed : index.state = none)
    (hcall : call.isOnHandle = true) :
    perform ⟨disk, index⟩ call = .error (call.refusal index .closed) := by
  have hopened : index.opened = .error .closed := by rw [Index.opened, hclosed]
  cases call with
  | add text =>
      simp only [perform, Index.add, hopened, Except.map, Call.refusal, Call.objection?, hclosed,
        Option.getD_none]
  | addDocument document =>
      simp only [perform, Index.addDocument, hopened]
      rfl
  | commit =>
      simp only [perform, Index.commit, hopened]
      rfl
  | rollback =>
      simp only [perform, Index.rollback, hopened]
      rfl
  | size =>
      simp only [perform, Index.size, hopened]
      rfl
  | search text =>
      rw [perform, Index.search, Call.refusal, Call.objection?]
      cases Request.ofText text with
      | error fault => rfl
      | ok request =>
          simp only [Index.answer, Index.sought, hopened]
          rfl
  | ask request =>
      simp only [perform, Index.answer, Index.sought, hopened]
      rfl
  | close =>
      simp only [perform, Index.close, hopened]
      rfl
  | reopen settings budget => contradiction

/-- A read-only handle refuses every call that would change the documents. -/
theorem perform_readOnly [Segmenter] (disk : Disk) {state : OpenIndex}
    (hstate : index.state = some state) (hbuffer : state.buffer = none)
    (hwrite : call.isWrite = true) :
    perform ⟨disk, index⟩ call = .error (call.refusal index .readOnly) := by
  have hopened : index.opened = .ok state := by rw [Index.opened, hstate]
  cases call with
  | add text =>
      simp only [perform, Index.add, hopened, Call.refusal, Call.objection?, hstate]
      cases Document.ofText state.schema text index.settings.strict with
      | error fault => rfl
      | ok document =>
          simp only [Index.buffered, hbuffer]
          rfl
  | addDocument document =>
      simp only [perform, Index.addDocument, hopened, Index.buffered, hbuffer]
      rfl
  | commit =>
      simp only [perform, Index.commit, hopened, hbuffer]
      rfl
  | rollback =>
      simp only [perform, Index.rollback, hopened, hbuffer]
      rfl
  | size | search | ask | close | reopen => contradiction

theorem perform_close [Segmenter] (disk : Disk) {state : OpenIndex}
    (hstate : index.state = some state) :
    perform ⟨disk, index⟩ .close = .ok (step ⟨disk, index⟩ .close, .done) := by
  have hopened : index.opened = .ok state := by rw [Index.opened, hstate]
  simp only [step, perform, Index.close, hopened, Except.map]

/-- A call leaves a read-only handle as it is, unless it closes the handle. -/
theorem index_step_readOnly [Segmenter] (disk : Disk) {state : OpenIndex}
    (hstate : index.state = some state) (hbuffer : state.buffer = none)
    (hcall : call.isOnHandle = true) :
    (step ⟨disk, index⟩ call).index = index ∨ (step ⟨disk, index⟩ call).index.state = none := by
  by_cases hwrite : call.isWrite = true
  · left
    rw [step_of_error (perform_readOnly disk hstate hbuffer hwrite)]
  · by_cases hread : call.isRead = true
    · left
      rw [step_of_isRead hread]
    · cases call with
      | close => exact .inr (state_step_close _)
      | add | addDocument | commit | rollback => exact absurd rfl hwrite
      | size | search | ask => exact absurd rfl hread
      | reopen => contradiction

end Session

namespace Index

variable {index : Index} {calls : List (Disk × Call)}

theorem schema_closed (hclosed : index.state = none) : index.schema = .error .closed := by
  rw [schema, opened, hclosed]
  rfl

theorem searchText_closed [Segmenter] (hclosed : index.state = none) (text : String) :
    index.searchText text = .error ((Call.search text).refusal index .closed) := by
  have hperform := Session.perform_closed {} hclosed (rfl : (Call.search text).isOnHandle = true)
  rw [searchText]
  cases hsearch : index.search text with
  | error fault => simpa [Session.perform, hsearch, Except.map] using hperform
  | ok page => simp [Session.perform, hsearch, Except.map] at hperform

/-- No call changes a closed handle. -/
theorem after_closed [Segmenter] (hclosed : index.state = none)
    (hcalls : ∀ call ∈ calls, call.2.isOnHandle = true) : index.after calls = index := by
  induction calls with
  | nil => rfl
  | cons first rest ih =>
      obtain ⟨disk, call⟩ := first
      obtain ⟨hcall, hrest⟩ := List.forall_mem_cons.mp hcalls
      have hperform := Session.perform_closed disk hclosed hcall
      rw [after, Session.step_of_error hperform]
      exact ih hrest

/-- A read-only handle is as it was until it is closed. -/
theorem after_readOnly [Segmenter] {state : OpenIndex} (hstate : index.state = some state)
    (hbuffer : state.buffer = none) (hcalls : ∀ call ∈ calls, call.2.isOnHandle = true) :
    index.after calls = index ∨ (index.after calls).state = none := by
  induction calls with
  | nil => exact .inl rfl
  | cons first rest ih =>
      obtain ⟨disk, call⟩ := first
      obtain ⟨hcall, hrest⟩ := List.forall_mem_cons.mp hcalls
      rw [after]
      rcases Session.index_step_readOnly disk hstate hbuffer hcall
        with hsame | hclosed
      · rw [hsame]
        exact ih hrest
      · right
        rw [after_closed hclosed hrest]
        exact hclosed

theorem state_of_openExisting_readOnly {disk after : Disk} {options : IndexOptions} {index : Index}
    (hopen : openExisting disk options = .ok (after, index)) (hreadOnly : options.readOnly = true) :
    ∃ state, index.state = some state ∧ state.buffer = none := by
  obtain ⟨directory, schema, documents, -, -, -, -, -, rfl, -⟩ := openExisting_eq_ok hopen
  rw [if_pos hreadOnly]
  exact ⟨_, rfl, rfl⟩

end Index

namespace Session

/-- How a library is opened for reading. -/
def readingOptions : IndexOptions :=
  { libraryOptions with readOnly := true }

/-- A new index can be closed, and then opened for reading. -/
theorem opens_for_reading [Segmenter] {disk created : Disk} {options : IndexOptions}
    {schema : Schema} {index : Index}
    (hcreate : Index.create disk options schema = (created, .ok index))
    (hstore : pathOf (options.schemaText index.path) ≠ storePath index.path)
    (hlist : pathOf (options.schemaText index.path) ≠ listPath index.path) :
    ∃ closed after documents, perform ⟨created, index⟩ .close = .ok (closed, .done) ∧
      Index.openExisting closed.disk { options with readOnly := true } =
        .ok (after, ⟨index.path, options.settings, some ⟨schema, documents, none⟩⟩) := by
  obtain ⟨-, -, hstate⟩ := Index.founded_of_create hcreate
  obtain ⟨after, hopen⟩ := openExisting_of_run hcreate hstore hlist [.close]
    (state_step_close ⟨created, index⟩) true
  exact ⟨_, after, _, perform_close created hstate, hopen⟩

theorem library_opens_for_reading [Segmenter] : ∃ created index closed after documents,
    perform ⟨created, index⟩ .close = .ok (closed, .done) ∧
      Index.openExisting closed.disk readingOptions =
        .ok (after, ⟨"library", {}, some ⟨librarySchema, documents, none⟩⟩) := by
  have hcreate : Index.create {} libraryOptions librarySchema =
      (_, .ok ⟨"library", {}, some ⟨librarySchema, [], some []⟩⟩) := rfl
  obtain ⟨closed, after, documents, hclose, hopen⟩ :=
    opens_for_reading hcreate (by decide) (by decide)
  exact ⟨_, _, closed, after, documents, hclose, hopen⟩

/--
Whatever was called on it before and whatever the disk is by now, a handle that was closed refuses
every call, and a read-only one that is open every call that would change the documents; the call
changes neither the handle nor the disk. The fault is that of the handle just when the handle finds
nothing wrong with the argument of the call.
-/
theorem refuses [Segmenter] (calls : List (Disk × Call))
    (hcalls : ∀ call ∈ calls, call.2.isOnHandle = true) (disk : Disk) (call : Call) :
    (∀ (session next : Session) (reply : Reply), session.perform .close = .ok (next, reply) →
      let index := next.index.after calls
      index = next.index ∧ index.schema = .error .closed ∧
      (∀ text, index.searchText text = .error ((Call.search text).refusal index .closed)) ∧
      (call.isOnHandle = true → Refuses disk index .closed call)) ∧
    (∀ (before after : Disk) (options : IndexOptions) (opened : Index),
      Index.openExisting before options = .ok (after, opened) → options.readOnly = true →
      let index := opened.after calls
      index.isClosed = false →
        index = opened ∧ (call.isWrite = true → Refuses disk index .readOnly call)) := by
  constructor
  · intro session next reply hclose index
    have hclosed : next.index.state = none := by
      rw [← step_of_ok hclose]
      exact session.state_step_close
    have hsame : index = next.index := Index.after_closed hclosed hcalls
    rw [← hsame] at hclosed
    refine ⟨hsame, Index.schema_closed hclosed, Index.searchText_closed hclosed, ?_⟩
    intro hcall
    exact refuses_of_perform (by simp) (by simp) (perform_closed disk hclosed hcall)
  · intro before after options opened hopen hreadOnly index hopened
    obtain ⟨state, hstate, hbuffer⟩ := Index.state_of_openExisting_readOnly hopen hreadOnly
    rcases Index.after_readOnly hstate hbuffer hcalls with hsame | hclosed
    · rw [← hsame] at hstate
      refine ⟨hsame, ?_⟩
      intro hwrite
      exact refuses_of_perform (by simp) (by simp) (perform_readOnly disk hstate hbuffer hwrite)
    · rw [Index.isClosed, hclosed] at hopened
      contradiction

section

attribute [local instance] Segmenter.byRuns

theorem library_refuses : ∃ (closed : Session) (after : Disk) (reader : Index),
    Index.openExisting closed.disk readingOptions = .ok (after, reader) ∧
      closed.index.schema = .error .closed ∧
      closed.perform (.ask ⟨.all, none, 0⟩) = .error .closed ∧
      perform ⟨after, reader⟩ (.addDocument (novel "emma" 1815)) = .error .readOnly := by
  obtain ⟨created, index, closed, after, documents, hclose, hopen⟩ := library_opens_for_reading
  obtain ⟨hclosed, -⟩ := refuses [] (by simp) closed.disk (.ask ⟨.all, none, 0⟩)
  obtain ⟨-, hreadOnly⟩ := refuses [] (by simp) after (.addDocument (novel "emma" 1815))
  obtain ⟨-, hschema, -, hask⟩ := hclosed _ _ _ hclose
  obtain ⟨-, hadd⟩ := hreadOnly _ _ _ _ hopen rfl rfl
  exact ⟨closed, after, _, hopen, hschema, (hask rfl).plain.mpr rfl, (hadd rfl).plain.mpr rfl⟩

/-- Not every fault is that of the handle: both handles are refused for their argument here. -/
theorem library_objects :
    (¬ ∀ (session next : Session) (reply : Reply), session.perform .close = .ok (next, reply) →
      ∀ call : Call, call.isOnHandle = true → next.perform call = .error .closed) ∧
    ¬ ∀ (disk after : Disk) (options : IndexOptions) (index : Index),
      Index.openExisting disk options = .ok (after, index) → options.readOnly = true →
      ∀ call : Call, call.isWrite = true → perform ⟨after, index⟩ call = .error .readOnly := by
  obtain ⟨created, index, closed, after, documents, hclose, hopen⟩ := library_opens_for_reading
  constructor
  · intro hclosed
    have hsearch := hclosed _ _ _ hclose (.search "\x7b") rfl
    obtain ⟨fault, hfault⟩ : ∃ fault, Request.ofText "\x7b" = .error fault := ⟨_, rfl⟩
    simp [perform, Index.search, hfault, Except.map] at hsearch
  · intro hreadOnly
    have hadd := hreadOnly _ _ _ _ hopen rfl (.add "[") rfl
    obtain ⟨fault, hfault⟩ : ∃ fault, Document.ofText librarySchema "[" false = .error fault :=
      ⟨_, rfl⟩
    simp [perform, Index.add, Index.opened, hfault, Except.map] at hadd

end

end Session

end DocIndex
