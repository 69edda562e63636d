import DocIndex.Index.Directory
import DocIndex.Proofs.Json.Cursor
import DocIndex.Proofs.Storage.Directories

/-!
What it takes for an index to be created or opened, and what the disk is like afterwards: a writer
holds the directory, all directories on the way to it stand, and its file of documents is the one
that the handle shows.
-/

namespace DocIndex

open Storage

theorem isPlain_storeFile : IsPlain storeFile :=
  ⟨by decide, by decide, by decide, by decide⟩

theorem isPlain_listFile : IsPlain listFile :=
  ⟨by decide, by decide, by decide, by decide⟩

theorem storePath_eq (directory : String) :
    storePath directory = pathOf directory ++ [storeFile] :=
  pathOf_joinText isPlain_storeFile directory

theorem listPath_eq (directory : String) :
    listPath directory = pathOf directory ++ [listFile] :=
  pathOf_joinText isPlain_listFile directory

theorem storePath_ne_nil (directory : String) : storePath directory ≠ [] := by
  rw [storePath_eq]
  simp

theorem dropLast_storePath (directory : String) :
    (storePath directory).dropLast = pathOf directory := by
  rw [storePath_eq, List.dropLast_concat]

/-- The draft of a file stands beside it. -/
theorem Index.draftText_joinText {name : String} (hname : IsPlain name) (directory : String) :
    draftText (joinText directory name) = joinText directory (draftText name) := by
  obtain ⟨first, rest, hchars⟩ : ∃ first rest, name.toList = first :: rest :=
    List.exists_cons_of_ne_nil fun h => hname.nonempty (String.toList_eq_nil_iff.mp h)
  have hhead : (draftText name).toList.head? = name.toList.head? := by
    rw [draftText, String.toList_append, hchars]
    rfl
  simp only [joinText, hhead]
  split
  · rfl
  · split
    · exact String.append_assoc
    · simp [draftText, toString, String.append_assoc]

theorem Index.length_draftText (name : String) :
    (draftText name).toList.length = name.toList.length + 4 := by
  rw [draftText, String.toList_append, List.length_append]
  rfl

theorem Storage.IsPlain.draftText {name : String} (hname : IsPlain name) :
    IsPlain (Index.draftText name) := by
  have hlonger (other : String) (hother : other.toList.length < 4) :
      Index.draftText name ≠ other := by
    rintro rfl
    rw [Index.length_draftText] at hother
    omega
  refine ⟨?_, hlonger _ (by decide), hlonger _ (by decide), hlonger _ (by decide)⟩
  have hslash := hname.no_slash
  simp [Index.draftText, hslash]

namespace Index

theorem ioStep_eq_ok_iff {files after : Files} {result : Except IoFault Files} :
    ioStep files result = .ok after ↔ result = .ok after := by
  cases result <;> simp [ioStep]

theorem lock_eq_ok_iff {disk after : Disk} {directory : Path} {budget : Nat} :
    lock disk directory budget = .ok after ↔
      directory ∉ disk.locked ∧ leastBudget ≤ budget ∧ budget < budgetBound ∧
        after = { disk with locked := directory :: disk.locked } := by
  unfold lock
  split
  · simp_all
  · split
    · simp only [reduceCtorEq, false_iff]
      omega
    · split
      · simp only [reduceCtorEq, false_iff]
        omega
      · rename_i hlocked hleast hbound
        simp only [Except.ok.injEq, eq_comm (a := after)]
        rw [Nat.not_lt] at hleast
        rw [Nat.not_le] at hbound
        simp only [hlocked, hleast, hbound, not_false_eq_true, true_and]

theorem stored_eq_ok_iff {files : Files} {directory : String} {found : StoredIndex} :
    stored files directory = .ok found ↔
      files.node? (storePath directory) = some (.file (.index found)) := by
  rw [← Files.read_eq_ok_iff]
  unfold stored
  split <;> simp_all

/-- The engine works where the text of a directory leads to one. -/
theorem openingFault?_eq_none_iff {files : Files} {directory : String} :
    openingFault? files directory = none ↔ files.Opens directory := by
  unfold openingFault?
  constructor
  · intro hnone
    split at hnone
    · contradiction
    · rename_i path hresolve
      split at hnone
      · rename_i hdirectory
        obtain ⟨hnamed, hway, rfl⟩ := Files.resolve_eq_ok_iff.mp hresolve
        exact ⟨hnamed, Files.reaches_iff.mpr ⟨hway, hdirectory⟩⟩
      · contradiction
      · contradiction
  · intro hopens
    simp only [Files.resolve_eq_ok_iff.mpr hopens.leads, hopens.node?_eq]

theorem writeStore_eq_ok {files after : Files} {directory : String} {schema : Schema}
    (hwrite : writeStore files directory schema = .ok after) :
    files.Opens directory ∧ files.node? (storePath directory) = none ∧
      hasReadableList files directory = true ∧
      ∃ listed, files.write (listPath directory) (.text s!"[\"{storeFile}\"]") = .ok listed ∧
        listed.write (storePath directory) (.index ⟨schema.storage, []⟩) = .ok after := by
  unfold writeStore at hwrite
  split at hwrite
  · contradiction
  · rename_i hopening
    split at hwrite
    · contradiction
    · rename_i hstore
      split at hwrite
      · contradiction
      · rename_i hlist
        split at hwrite
        · contradiction
        · rename_i listed hlisted
          split at hwrite
          · contradiction
          · rename_i stored hstored
            obtain rfl := Except.ok.inj hwrite
            refine ⟨openingFault?_eq_none_iff.mp hopening, ?_, by simpa using hlist, listed,
              hlisted, hstored⟩
            simpa [Files.hasNode] using hstore

theorem writeWhole_eq_ok {files after : Files} {target text : String}
    (hwrite : writeWhole files target text = .ok after) :
    ∃ drafted, files.writeAt (draftText target) (.text text) = .ok drafted ∧
      drafted.renameAt (draftText target) target = .ok after := by
  simp only [writeWhole, bind_eq_ok_iff, ioStep_eq_ok_iff] at hwrite
  exact hwrite

theorem makeWay_eq_ok_iff {files after : Files} {directory : String} :
    makeWay files directory = .ok after ↔ files.createDirectories directory = .ok after := by
  unfold makeWay
  cases files.createDirectories directory <;> simp [Except.mapError]

/-- The steps of writing the files of a new index, each with the files that it starts from. -/
structure Steps (files made listed kept drafted after : Files) (directory schemaFile : String)
    (schema : Schema) : Prop where
  making : files.createDirectories directory = .ok made
  opens : made.Opens directory
  free : made.node? (storePath directory) = none
  list : hasReadableList made directory = true
  listing : made.write (listPath directory) (.text s!"[\"{storeFile}\"]") = .ok listed
  keeping : listed.write (storePath directory) (.index ⟨schema.storage, []⟩) = .ok kept
  drafting : kept.writeAt (draftText schemaFile) (.text schema.toText) = .ok drafted
  moving : drafted.renameAt (draftText schemaFile) schemaFile = .ok after

theorem writeAll_eq_ok {files after : Files} {directory schemaFile : String} {schema : Schema}
    (hwrite : writeAll files directory schemaFile schema = .ok after) :
    ∃ made listed kept drafted,
      Steps files made listed kept drafted after directory schemaFile schema := by
  simp only [writeAll, bind_eq_ok_iff, makeWay_eq_ok_iff] at hwrite
  obtain ⟨made, hmade, kept, hstore, hwhole⟩ := hwrite
  obtain ⟨hopens, hfree, hlist, listed, hlisted, hkept⟩ := writeStore_eq_ok hstore
  obtain ⟨drafted, hdrafted, hrenamed⟩ := writeWhole_eq_ok hwhole
  exact ⟨made, listed, kept, drafted, hmade, hopens, hfree, hlist, hlisted, hkept, hdrafted,
    hrenamed⟩

section

variable {files made listed kept drafted after : Files} {directory schemaFile : String}
  {schema : Schema}

/-- None of the steps takes a directory away. -/
theorem Steps.directory_kept
    (hsteps : Steps files made listed kept drafted after directory schemaFile schema) {path : Path}
    (hdirectory : made.node? path = some .directory) : kept.node? path = some .directory :=
  Files.directory_of_write hsteps.keeping (Files.directory_of_write hsteps.listing hdirectory)

theorem Steps.directory_drafted
    (hsteps : Steps files made listed kept drafted after directory schemaFile schema) {path : Path}
    (hdirectory : kept.node? path = some .directory) : drafted.node? path = some .directory :=
  Files.directory_of_write (Files.writeAt_eq_ok_iff.mp hsteps.drafting).2 hdirectory

theorem Steps.rename
    (hsteps : Steps files made listed kept drafted after directory schemaFile schema) :
    drafted.rename (pathOf (draftText schemaFile)) (pathOf schemaFile) = .ok after :=
  (Files.renameAt_eq_ok_iff.mp hsteps.moving).2.2.2.2

theorem Steps.directory_after
    (hsteps : Steps files made listed kept drafted after directory schemaFile schema) {path : Path}
    (hdirectory : drafted.node? path = some .directory) : after.node? path = some .directory :=
  Files.directory_of_rename hsteps.rename hdirectory

end

/-- What stands at a path once the directories on the way to an index stand. -/
def nodeWithin (files : Files) (directory : String) (path : Path) : Option Node :=
  (files.node? path).or
    (if (way (namesOf directory)).contains path then some .directory else none)

theorem nodeWithin_eq (files : Files) (directory : String) (path : Path) :
    nodeWithin files directory path = (files.node? path).or
      (if path ∈ way (namesOf directory) then some .directory else none) := by
  simp only [nodeWithin, List.contains_iff_mem]

theorem nodeWithin_of_mem_way {files : Files} {directory : String} {path : Path}
    (hplace : path ∈ way (namesOf directory)) (hfile : files.isFile path = false) :
    nodeWithin files directory path = some .directory := by
  rw [nodeWithin_eq, if_pos hplace]
  rcases Files.node?_of_no_file hfile with hnone | hdirectory
  · rw [hnone, Option.none_or]
  · rw [hdirectory, Option.some_or]

/-- What stands at each path when the files of a new index have been written. -/
theorem node?_of_writeAll {files after : Files} {directory schemaFile : String} {schema : Schema}
    (hwrite : writeAll files directory schemaFile schema = .ok after) (path : Path) :
    after.node? path =
      if path = pathOf schemaFile then some (.file (.text schema.toText))
      else if path = pathOf (draftText schemaFile) then none
      else if path = storePath directory then some (.file (.index ⟨schema.storage, []⟩))
      else if path = listPath directory then some (.file (.text s!"[\"{storeFile}\"]"))
      else nodeWithin files directory path := by
  obtain ⟨made, listed, kept, drafted, hsteps⟩ := writeAll_eq_ok hwrite
  have hdrafted := (Files.writeAt_eq_ok_iff.mp hsteps.drafting).2
  obtain ⟨content, hcontent, -, hnodes⟩ := Files.node?_of_rename hsteps.rename
  rw [Files.node?_of_write hdrafted, if_pos rfl] at hcontent
  obtain rfl := Node.file.inj (Option.some.inj hcontent)
  rw [hnodes]
  split
  · rfl
  · split
    · rfl
    · rename_i hdraft
      rw [Files.node?_of_write hdrafted, if_neg hdraft, Files.node?_of_write hsteps.keeping,
        Files.node?_of_write hsteps.listing, Files.node?_createDirectories hsteps.making,
        nodeWithin_eq]

/-- The schema file holds the schema when the files of a new index have been written. -/
theorem schemaNode_of_writeAll {files after : Files} {directory schemaFile : String}
    {schema : Schema} (hwrite : writeAll files directory schemaFile schema = .ok after) :
    after.node? (pathOf schemaFile) = some (.file (.text schema.toText)) := by
  rw [node?_of_writeAll hwrite, if_pos rfl]

/-- The text of the schema file leads to it when the files of a new index have been written. -/
theorem leads_of_writeAll {files after : Files} {directory schemaFile : String} {schema : Schema}
    (hwrite : writeAll files directory schemaFile schema = .ok after) :
    after.Leads schemaFile (pathOf schemaFile) := by
  obtain ⟨made, listed, kept, drafted, hsteps⟩ := writeAll_eq_ok hwrite
  exact (Files.renameAt_eq_ok_iff.mp hsteps.moving).2.1.mono fun _ => hsteps.directory_after

/--
When the files of a new index have been written, its directory stands, and the documents that can be
read from it are none at all: the schema file has not taken their place.
-/
theorem files_of_writeAll {files after : Files} {directory schemaFile : String} {schema : Schema}
    {found : StoredIndex} (hwrite : writeAll files directory schemaFile schema = .ok after)
    (hfound : stored after directory = .ok found) :
    after.Opens directory ∧ found = ⟨schema.storage, []⟩ := by
  constructor
  · obtain ⟨made, listed, kept, drafted, hsteps⟩ := writeAll_eq_ok hwrite
    exact hsteps.opens.mono fun path hdirectory => hsteps.directory_after
      (hsteps.directory_drafted (hsteps.directory_kept hdirectory))
  · rw [stored_eq_ok_iff, node?_of_writeAll hwrite] at hfound
    -- Where the schema file, or its draft, had been put, no documents could be read.
    split at hfound
    · simp at hfound
    · split at hfound
      · contradiction
      · rw [if_pos rfl] at hfound
        simpa using hfound.symm

/-- Where the schema file or the documents of an index stand no other index is created. -/
theorem create_of_existsAt {disk : Disk} {options : IndexOptions} {directory : String}
    (hpath : options.path = some directory) (schema : Schema)
    (hexists : disk.files.existsAt (options.schemaText directory) = true ∨
      disk.files.existsAt (joinText directory storeFile) = true) :
    create disk options schema = (disk, .error (.indexExists directory)) := by
  unfold create
  rw [hpath]
  dsimp only
  rw [if_pos (Bool.or_eq_true_iff.mpr hexists)]

/-- What it takes for an index to be created. -/
theorem create_eq_ok {disk after : Disk} {options : IndexOptions} {schema : Schema}
    {index : Index} (hcreate : create disk options schema = (after, .ok index)) :
    ∃ directory files, options.path = some directory ∧
      writeAll disk.files directory (options.schemaText directory) schema = .ok files ∧
      lock { disk with files := files } (pathOf directory) options.writerBudget = .ok after ∧
      (∃ found, stored files directory = .ok found) ∧
      index = ⟨directory, options.settings, some ⟨schema, [], some []⟩⟩ := by
  unfold create at hcreate
  split at hcreate
  · simp at hcreate
  · rename_i directory hdirectory
    dsimp only at hcreate
    split at hcreate
    · simp at hcreate
    · split at hcreate
      · simp at hcreate
      · rename_i files hwrite
        split at hcreate
        · simp at hcreate
        · rename_i locked hlocking
          obtain ⟨rfl, hindex⟩ := Prod.mk.inj hcreate
          obtain rfl := Except.ok.inj hindex
          simp only [bind_eq_ok_iff] at hlocking
          obtain ⟨locked, hlock, found, hfound, hdisk⟩ := hlocking
          obtain rfl := Except.ok.inj hdisk
          exact ⟨directory, files, hdirectory, hwrite, hlock, ⟨found, hfound⟩, rfl⟩

/-- The disk of an index that has just been created. -/
structure Founded (directory : String) (schema : Schema) (disk : Disk) : Prop where
  opens : disk.files.Opens directory
  store : disk.files.node? (storePath directory) = some (.file (.index ⟨schema.storage, []⟩))
  locked : ∃ others, disk.locked = pathOf directory :: others ∧ pathOf directory ∉ others

/-- A created index is open and empty, and its disk is founded. -/
theorem founded_of_create {disk after : Disk} {options : IndexOptions} {schema : Schema}
    {index : Index} (hcreate : create disk options schema = (after, .ok index)) :
    Founded index.path schema after ∧ index.settings = options.settings ∧
      index.state = some ⟨schema, [], some []⟩ := by
  obtain ⟨directory, files, -, hwrite, hlock, ⟨found, hfound⟩, rfl⟩ := create_eq_ok hcreate
  obtain ⟨hfree, -, -, rfl⟩ := lock_eq_ok_iff.mp hlock
  obtain ⟨hopens, rfl⟩ := files_of_writeAll hwrite hfound
  exact ⟨⟨hopens, stored_eq_ok_iff.mp hfound, _, rfl, hfree⟩, rfl, rfl⟩

/-- A created index has its schema file. -/
theorem schemaNode_of_create {disk after : Disk} {options : IndexOptions} {schema : Schema}
    {index : Index} (hcreate : create disk options schema = (after, .ok index)) :
    after.files.node? (pathOf (options.schemaText index.path)) =
      some (.file (.text schema.toText)) := by
  obtain ⟨directory, files, -, hwrite, hlock, -, rfl⟩ := create_eq_ok hcreate
  obtain ⟨-, -, -, rfl⟩ := lock_eq_ok_iff.mp hlock
  exact schemaNode_of_writeAll hwrite

theorem leads_of_create {disk after : Disk} {options : IndexOptions} {schema : Schema}
    {index : Index} (hcreate : create disk options schema = (after, .ok index)) :
    after.files.Leads (options.schemaText index.path) (pathOf (options.schemaText index.path)) := by
  obtain ⟨directory, files, -, hwrite, hlock, -, rfl⟩ := create_eq_ok hcreate
  obtain ⟨-, -, -, rfl⟩ := lock_eq_ok_iff.mp hlock
  exact leads_of_writeAll hwrite

/-- The schema file of a created index stands where a file can be written. -/
theorem directoryFault?_of_create {disk after : Disk} {options : IndexOptions} {schema : Schema}
    {index : Index} (hcreate : create disk options schema = (after, .ok index)) :
    after.files.directoryFault? (pathOf (options.schemaText index.path)).dropLast = none := by
  obtain ⟨directory, files, -, hwrite, hlock, -, rfl⟩ := create_eq_ok hcreate
  obtain ⟨-, -, -, rfl⟩ := lock_eq_ok_iff.mp hlock
  obtain ⟨_, _, _, _, hsteps⟩ := writeAll_eq_ok hwrite
  exact Files.directoryFault?_of_rename hsteps.rename

/-- The schema file of a created index is not its file of documents. -/
theorem schemaPath_ne_storePath {disk after : Disk} {options : IndexOptions} {schema : Schema}
    {index : Index} (hcreate : create disk options schema = (after, .ok index)) :
    pathOf (options.schemaText index.path) ≠ storePath index.path := by
  intro hsame
  have hnode := schemaNode_of_create hcreate
  rw [hsame, (founded_of_create hcreate).1.store] at hnode
  simp at hnode

/-- A directory with a schema, a readable list and documents kept as the schema says is opened. -/
theorem openExisting_of_parts {disk : Disk} {options : IndexOptions} {directory : String}
    {schema : Schema} {documents : List Document} (hpath : options.path = some directory)
    (hschema : readSchema disk.files options directory = .ok schema)
    (hopens : disk.files.Opens directory) (hlist : hasReadableList disk.files directory = true)
    (hstored : stored disk.files directory = .ok ⟨schema.storage, documents⟩) :
    openExisting disk options =
      if options.readOnly then
        .ok (disk, ⟨directory, options.settings, some ⟨schema, documents, none⟩⟩)
      else
        (lock disk (pathOf directory) options.writerBudget).map fun disk =>
          (disk, ⟨directory, options.settings, some ⟨schema, documents, some []⟩⟩) := by
  simp only [openExisting, hpath, hschema, openingFault?_eq_none_iff.mpr hopens, hlist, hstored,
    bind, Except.bind, ne_eq, not_true_eq_false, Bool.not_true, Bool.false_eq_true, if_false]
  split
  · rfl
  · cases lock disk (pathOf directory) options.writerBudget <;> rfl

/-- A directory with a schema that does not keep its fields as the documents are kept is refused. -/
theorem openExisting_of_mismatch {disk : Disk} {options : IndexOptions} {directory : String}
    {schema : Schema} {found : StoredIndex} (hpath : options.path = some directory)
    (hschema : readSchema disk.files options directory = .ok schema)
    (hopens : disk.files.Opens directory) (hlist : hasReadableList disk.files directory = true)
    (hstored : stored disk.files directory = .ok found)
    (hstorage : found.storage ≠ schema.storage) :
    openExisting disk options = .error (.schemaMismatch directory) := by
  simp only [openExisting, hpath, hschema, openingFault?_eq_none_iff.mpr hopens, hlist, hstored,
    bind, Except.bind, ne_eq, hstorage, not_false_eq_true, Bool.not_true, Bool.false_eq_true,
    if_false, if_true]

/-- What it takes to open an index. -/
theorem openExisting_eq_ok {disk after : Disk} {options : IndexOptions} {index : Index}
    (hopen : openExisting disk options = .ok (after, index)) :
    ∃ directory schema documents, options.path = some directory ∧
      readSchema disk.files options directory = .ok schema ∧
      disk.files.Opens directory ∧ hasReadableList disk.files directory = true ∧
      stored disk.files directory = .ok ⟨schema.storage, documents⟩ ∧
      index = ⟨directory, options.settings,
        some ⟨schema, documents, if options.readOnly then none else some []⟩⟩ ∧
      if options.readOnly then after = disk
      else lock disk (pathOf directory) options.writerBudget = .ok after := by
  cases hpath : options.path with
  | none => simp [openExisting, hpath, bind, Except.bind] at hopen
  | some directory =>
      simp only [openExisting, hpath, bind_eq_ok_iff] at hopen
      obtain ⟨found, hfound, schema, hschema, hopen⟩ := hopen
      obtain rfl := Except.ok.inj hfound
      split at hopen
      · contradiction
      · rename_i hopening
        have hopens : disk.files.Opens directory :=
          openingFault?_eq_none_iff.mp (Option.eq_none_iff_forall_ne_some.mpr hopening)
        split at hopen
        · contradiction
        · rename_i hlist
          obtain ⟨⟨storage, documents⟩, hstored, hopen⟩ := bind_eq_ok_iff.mp hopen
          split at hopen
          · contradiction
          · rename_i hstorage
            obtain rfl : storage = schema.storage := Decidable.not_not.mp hstorage
            refine ⟨directory, schema, documents, rfl, hschema, hopens, by simpa using hlist,
              hstored, ?_⟩
            split at hopen
            · rename_i hreadOnly
              obtain ⟨rfl, rfl⟩ := Prod.mk.inj (Except.ok.inj hopen)
              rw [if_pos hreadOnly, if_pos hreadOnly]
              exact ⟨rfl, rfl⟩
            · rename_i hwriter
              obtain ⟨locked, hlock, hresult⟩ := bind_eq_ok_iff.mp hopen
              obtain ⟨rfl, rfl⟩ := Prod.mk.inj (Except.ok.inj hresult)
              rw [if_neg hwriter, if_neg hwriter]
              exact ⟨rfl, hlock⟩

/-- What it takes to open an index for writing. -/
theorem openExisting_eq_ok_iff {disk after : Disk} {options : IndexOptions} {index : Index}
    {directory : String} (hpath : options.path = some directory)
    (hwriter : options.readOnly = false) :
    openExisting disk options = .ok (after, index) ↔
      ∃ schema documents, readSchema disk.files options directory = .ok schema ∧
        disk.files.Opens directory ∧ hasReadableList disk.files directory = true ∧
        stored disk.files directory = .ok ⟨schema.storage, documents⟩ ∧
        lock disk (pathOf directory) options.writerBudget = .ok after ∧
        index = ⟨directory, options.settings, some ⟨schema, documents, some []⟩⟩ := by
  constructor
  · intro hopen
    obtain ⟨found, schema, documents, hfound, hschema, hopens, hlist, hstored, hindex, hlock⟩ :=
      openExisting_eq_ok hopen
    obtain rfl := Option.some.inj (hpath.symm.trans hfound)
    rw [hwriter, if_neg Bool.false_ne_true] at hindex hlock
    exact ⟨schema, documents, hschema, hopens, hlist, hstored, hlock, hindex⟩
  · rintro ⟨schema, documents, hschema, hopens, hlist, hstored, hlock, rfl⟩
    rw [openExisting_of_parts hpath hschema hopens hlist hstored, hwriter, hlock]
    rfl

theorem listPath_ne_storePath (directory : String) : listPath directory ≠ storePath directory := by
  rw [listPath_eq, storePath_eq]
  simp [listFile, storeFile]

theorem hasReadableList_congr {files others : Files} {directory : String}
    (hnode : files.node? (listPath directory) = others.node? (listPath directory)) :
    hasReadableList files directory = hasReadableList others directory := by
  rw [hasReadableList, hasReadableList, hnode]

/-- The schema that is read depends on the schema file and on the way to it alone. -/
theorem readSchema_congr {files others : Files} {options : IndexOptions} {directory : String}
    (hleads : files.Leads (options.schemaText directory) (pathOf (options.schemaText directory)) ↔
      others.Leads (options.schemaText directory) (pathOf (options.schemaText directory)))
    (hnode : files.node? (pathOf (options.schemaText directory)) =
      others.node? (pathOf (options.schemaText directory))) :
    readSchema files options directory = readSchema others options directory := by
  have hfile : files.isFileAt (options.schemaText directory) =
      others.isFileAt (options.schemaText directory) := by
    rw [Bool.eq_iff_iff, Files.isFileAt_iff, Files.isFileAt_iff, hleads, Files.isFile,
      Files.isFile, hnode]
  simp only [readSchema, hfile]
  cases hothers : others.isFileAt (options.schemaText directory) with
  | false => rfl
  | true =>
      obtain ⟨hfound, hcontent⟩ := Files.isFileAt_iff.mp hothers
      obtain ⟨content, hcontent⟩ := Files.isFile_iff.mp hcontent
      have htext : files.readTextAt (options.schemaText directory) =
          others.readTextAt (options.schemaText directory) := by
        rw [Files.readTextAt_of_leads (hleads.mpr hfound), Files.readTextAt_of_leads hfound,
          Files.readText, Files.readText, Files.read_eq_ok_iff.mpr hcontent,
          Files.read_eq_ok_iff.mpr (hnode.trans hcontent)]
      rw [htext]

end Index

end DocIndex
