import DocIndex.Proofs.Index.Session
import DocIndex.Proofs.Json.Reading
import DocIndex.Proofs.Schema.Text

/-!
A directory opens again on the schema that it was created with. The schema comes back from its file,
no call of a session touches that file, and the documents are kept as that schema keeps them.
-/

namespace DocIndex

open Storage

namespace Index

/-- The list of files that a new index has is readable. -/
theorem isFileList_listText : isFileList s!"[\"{storeFile}\"]" = true := by
  have htext : s!"[\"{storeFile}\"]" = (Json.array [.string storeFile]).compact := by decide
  have hlegible : (Json.array [.string storeFile]).Legible := by
    apply Json.legible_array
    simp [Json.legible_string]
  rw [isFileList, htext, Json.parse_compact hlegible (by decide)]
  rfl

theorem hasReadableList_of_writeAll {files after : Files} {directory schemaFile : String}
    {schema : Schema} (hwrite : writeAll files directory schemaFile schema = .ok after)
    (hlist : pathOf schemaFile ≠ listPath directory) :
    hasReadableList after directory = true := by
  rw [hasReadableList, node?_of_writeAll hwrite, if_neg hlist.symm]
  by_cases hdraft : listPath directory = pathOf (draftText schemaFile)
  · rw [if_pos hdraft]
  · rw [if_neg hdraft, if_neg (listPath_ne_storePath directory), if_pos rfl]
    exact isFileList_listText

theorem createFromText_eq {disk : Disk} {options : IndexOptions} {text : String} {schema : Schema}
    (hschema : Schema.ofText text = .ok schema) :
    createFromText disk options text = create disk options schema := by
  rw [createFromText, hschema]

theorem createFromText_eq_ok {disk created : Disk} {options : IndexOptions} {text : String}
    {index : Index} (hcreate : createFromText disk options text = (created, .ok index)) :
    ∃ schema, Schema.ofText text = .ok schema ∧
      create disk options schema = (created, .ok index) := by
  unfold createFromText at hcreate
  split at hcreate
  · simp at hcreate
  · rename_i schema hschema
    exact ⟨schema, hschema, hcreate⟩

theorem readSchema_of_text {files : Files} {options : IndexOptions} {directory text : String}
    {schema : Schema}
    (hleads : files.Leads (options.schemaText directory) (pathOf (options.schemaText directory)))
    (hnode : files.node? (pathOf (options.schemaText directory)) = some (.file (.text text)))
    (hschema : Schema.ofText text = .ok schema) :
    readSchema files options directory = .ok schema := by
  have hfile : files.isFileAt (options.schemaText directory) = true :=
    Files.isFileAt_iff.mpr ⟨hleads, Files.isFile_iff.mpr ⟨_, hnode⟩⟩
  have htext : files.readTextAt (options.schemaText directory) = .ok text := by
    rw [Files.readTextAt_of_leads hleads, Files.readText, Files.read_eq_ok_iff.mpr hnode]
  simp only [readSchema, hfile, htext, Bool.not_true, Bool.false_eq_true, if_false, hschema]
  rfl

theorem readSchema_of_node {files : Files} {options : IndexOptions} {directory : String}
    {schema : Schema}
    (hleads : files.Leads (options.schemaText directory) (pathOf (options.schemaText directory)))
    (hnode : files.node? (pathOf (options.schemaText directory)) =
      some (.file (.text schema.toText))) :
    readSchema files options directory = .ok schema :=
  readSchema_of_text hleads hnode schema.ofText_toText

end Index

namespace Session

theorem state_step_close [Segmenter] (session : Session) :
    (session.step .close).index.state = none := by
  cases hperform : session.perform .close with
  | error fault =>
      rw [step_of_error hperform]
      cases hstate : session.index.state with
      | none => rfl
      | some state => simp [perform, Index.close, Index.opened, hstate, Except.map] at hperform
  | ok result =>
      obtain ⟨next, reply⟩ := result
      rw [step_of_ok hperform]
      obtain ⟨⟨disk, index⟩, hclose, hresult⟩ := map_eq_ok_iff.mp hperform
      obtain ⟨rfl, -⟩ := Prod.mk.inj hresult
      obtain ⟨-, -, -, rfl⟩ := Index.close_eq_ok hclose
      rfl

/-- Whatever is done with a created index, all directories stay. -/
theorem sameFolders_of_run [Segmenter] {disk created : Disk} {options : IndexOptions}
    {schema : Schema} {index : Index}
    (hcreate : Index.create disk options schema = (created, .ok index)) (calls : List Call) :
    (run ⟨created, index⟩ calls).disk.files.SameFolders created.files := by
  have hfounded := (Index.founded_of_create hcreate).1
  exact ((tracks_of_create hcreate).run hfounded calls).sameFolders hfounded

section Closed

variable [Segmenter] {disk created : Disk} {options : IndexOptions} {schema : Schema}
    {index : Index}
  (hcreate : Index.create disk options schema = (created, .ok index))
  (hlist : pathOf (options.schemaText index.path) ≠ listPath index.path)
  (calls : List Call) (hclosed : (run ⟨created, index⟩ calls).index.state = none)

include hcreate hlist hclosed

/--
What a closed handle leaves in its directory, whatever is then done to other files: a readable list,
the documents that were committed, and room for a writer.
-/
theorem parts_of_closed {files : Files}
    (hfolders : files.SameFolders (run ⟨created, index⟩ calls).disk.files)
    (hstored : files.node? (storePath index.path) =
      (run ⟨created, index⟩ calls).disk.files.node? (storePath index.path))
    (hlisted : files.node? (listPath index.path) =
      (run ⟨created, index⟩ calls).disk.files.node? (listPath index.path)) :
    options.path = some index.path ∧ files.Opens index.path ∧
      Index.hasReadableList files index.path = true ∧
      Index.stored files index.path =
        .ok ⟨schema.storage, published (events ⟨created, index⟩ calls)⟩ ∧
      ∃ after, Index.lock { (run ⟨created, index⟩ calls).disk with files := files }
        (pathOf index.path) options.writerBudget = .ok after := by
  have hfounded := (Index.founded_of_create hcreate).1
  have htracks := (tracks_of_create hcreate).run hfounded calls
  rw [List.nil_append] at htracks
  have hopens := hfolders.opens_iff.mpr (htracks.opens hfounded)
  obtain ⟨directory, written, hpath, hwrite, hlock, -, rfl⟩ := Index.create_eq_ok hcreate
  obtain ⟨hfree, hleast, hbound, rfl⟩ := Index.lock_eq_ok_iff.mp hlock
  generalize run _ calls = session at *
  refine ⟨hpath, hopens, ?_, ?_, ?_⟩
  · rw [Index.hasReadableList_congr
      (hlisted.trans (htracks.frame _ (Index.listPath_ne_storePath directory)))]
    exact Index.hasReadableList_of_writeAll hwrite hlist
  · exact Index.stored_eq_ok_iff.mpr (hstored.trans htracks.stored)
  · obtain ⟨-, hlocked⟩ := htracks.closed hclosed
    have hunlocked : pathOf directory ∉ session.disk.locked := by
      rw [hlocked, List.erase_cons_head]
      exact hfree
    exact ⟨_, Index.lock_eq_ok_iff.mpr ⟨hunlocked, hleast, hbound, rfl⟩⟩

/-- A closed directory opens on any schema that keeps the fields as its own schema does. -/
theorem openExisting_of_closed {files : Files} {another : Schema}
    (hfolders : files.SameFolders (run ⟨created, index⟩ calls).disk.files)
    (hstored : files.node? (storePath index.path) =
      (run ⟨created, index⟩ calls).disk.files.node? (storePath index.path))
    (hlisted : files.node? (listPath index.path) =
      (run ⟨created, index⟩ calls).disk.files.node? (listPath index.path))
    (hread : Index.readSchema files options index.path = .ok another)
    (hstorage : schema.storage = another.storage) (readOnly : Bool) :
    ∃ after, Index.openExisting { (run ⟨created, index⟩ calls).disk with files := files }
        { options with readOnly := readOnly } =
      .ok (after, ⟨index.path, options.settings,
        some ⟨another, published (events ⟨created, index⟩ calls),
          if readOnly then none else some []⟩⟩) := by
  obtain ⟨hpath, hopens, hreadable, hfound, after, hlock⟩ :=
    parts_of_closed hcreate hlist calls hclosed hfolders hstored hlisted
  rw [hstorage] at hfound
  have hopen : Index.openExisting { (run ⟨created, index⟩ calls).disk with files := files }
      { options with readOnly := readOnly } = _ :=
    Index.openExisting_of_parts hpath hread hopens hreadable hfound
  rw [hopen]
  cases readOnly with
  | true => exact ⟨_, rfl⟩
  | false =>
      refine ⟨after, ?_⟩
      rw [if_neg Bool.false_ne_true]
      exact congrArg _ hlock

end Closed

/-- Once the handle is closed the directory opens on the schema that it was created with. -/
theorem openExisting_of_run [Segmenter] {disk created : Disk} {options : IndexOptions}
    {schema : Schema} {index : Index}
    (hcreate : Index.create disk options schema = (created, .ok index))
    (hstore : pathOf (options.schemaText index.path) ≠ storePath index.path)
    (hlist : pathOf (options.schemaText index.path) ≠ listPath index.path) (calls : List Call)
    (hclosed : (run ⟨created, index⟩ calls).index.state = none) (readOnly : Bool) :
    ∃ after, Index.openExisting (run ⟨created, index⟩ calls).disk
        { options with readOnly := readOnly } =
      .ok (after, ⟨index.path, options.settings,
        some ⟨schema, published (events ⟨created, index⟩ calls),
          if readOnly then none else some []⟩⟩) := by
  have hfounded := (Index.founded_of_create hcreate).1
  have htracks := (tracks_of_create hcreate).run hfounded calls
  have hread : Index.readSchema (run ⟨created, index⟩ calls).disk.files options index.path =
      .ok schema := by
    apply Index.readSchema_of_node
    · exact (sameFolders_of_run hcreate calls).leads_iff.mpr (Index.leads_of_create hcreate)
    · rw [htracks.frame _ hstore]
      exact Index.schemaNode_of_create hcreate
  exact openExisting_of_closed hcreate hlist calls hclosed (.refl _) rfl rfl hread rfl readOnly

end Session

/--
A schema that was read from a text comes back from the text under which it is stored. An index
created on it, whatever is then done with the handle before it is closed, opens again on that very
schema, for writing or for reading, and shows the documents that were committed.
-/
theorem Schema.reopens [Segmenter] {text : String} {schema : Schema}
    (hschema : Schema.ofText text = .ok schema) :
    Schema.ofText schema.toText = .ok schema ∧
    ∀ (disk created : Disk) (options : IndexOptions) (index : Index),
      Index.createFromText disk options text = (created, .ok index) →
      pathOf (options.schemaText index.path) ≠ storePath index.path →
      pathOf (options.schemaText index.path) ≠ listPath index.path →
      ∀ calls : List Call,
        let session := Session.run ⟨created, index⟩ (calls ++ [.close])
        let documents := published (Session.events ⟨created, index⟩ (calls ++ [.close]))
        session.index.schema = .error .closed ∧
        ∀ readOnly, ∃ after reopened,
          Index.openExisting session.disk { options with readOnly := readOnly } =
            .ok (after, reopened) ∧
          reopened.schema = .ok schema ∧
          reopened.state = some ⟨schema, documents, if readOnly then none else some []⟩ := by
  refine ⟨schema.ofText_toText, ?_⟩
  intro disk created options index hcreate hstore hlist calls session documents
  rw [Index.createFromText_eq hschema] at hcreate
  have hclosed : session.index.state = none := by
    simp only [session, Session.run, List.foldl_append, List.foldl_cons, List.foldl_nil]
    exact Session.state_step_close _
  constructor
  · simp only [Index.schema, Index.opened, hclosed, Except.map]
  · intro readOnly
    obtain ⟨after, hopen⟩ :=
      Session.openExisting_of_run hcreate hstore hlist (calls ++ [.close]) hclosed readOnly
    exact ⟨after, _, hopen, rfl, rfl⟩

/-- A schema with the alias of a tokenizer, keys left out, and a name that needs escapes. -/
def talesText : String :=
  "\x7b\"fields\":[\x7b\"type\":\"text\",\"name\":\"é\\\"\\n\",\"tokenizer\":\"en_stem\"\x7d]\x7d"

/-- The schema that the text means. -/
def talesSchema : Schema where
  definition :=
    { fields := [{ name := "é\"\n", kind := .text, tokenizer := some .stemmed }] }
  checked := rfl

theorem ofText_talesText : Schema.ofText talesText = .ok talesSchema := by
  have hread : SchemaDef.ofText talesText = .ok talesSchema.definition :=
    toOption_eq_some_iff.mp (by decide +kernel)
  rw [Schema.ofText, hread]
  exact SchemaDef.compile_of_check talesSchema.checked

theorem create_tales : ∃ created, Index.create {} { path := some "tales" } talesSchema =
    (created, .ok ⟨"tales", {}, some ⟨talesSchema, [], some []⟩⟩) :=
  ⟨_, rfl⟩

/-- One document is committed, and another one given up. -/
def talesCalls : List Call :=
  [.addDocument ⟨[(0, .text "moby")], []⟩, .commit, .addDocument ⟨[(0, .text "dick")], []⟩,
    .rollback]

section

attribute [local instance] Segmenter.byRuns

theorem tales_reopen : Schema.ofText talesText = .ok talesSchema ∧ ∃ created index,
    Index.createFromText {} { path := some "tales" } talesText = (created, .ok index) ∧
      ∃ after reopened,
        Index.openExisting (Session.run ⟨created, index⟩ (talesCalls ++ [.close])).disk
          { path := some "tales" } = .ok (after, reopened) ∧
        reopened.state = some ⟨talesSchema, [⟨[(0, .text "moby")], []⟩], some []⟩ := by
  have hcreate : Index.createFromText {} { path := some "tales" } talesText = (_, .ok _) :=
    Index.createFromText_eq ofText_talesText
  obtain ⟨-, hreopen⟩ := Schema.reopens ofText_talesText
  obtain ⟨-, hopen⟩ := hreopen _ _ _ _ hcreate (by decide) (by decide) talesCalls
  obtain ⟨after, reopened, hopened, -, hstate⟩ := hopen false
  exact ⟨ofText_talesText, _, _, hcreate, after, reopened, hopened, hstate⟩

end

end DocIndex
