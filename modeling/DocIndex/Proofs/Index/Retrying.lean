import DocIndex.Proofs.Index.Writers

/-!
Creation can be tried again. Whether an index can be made in a directory depends on little: that its
files do not stand in the way of each other, and that nothing stands in theirs. A creation that
fails leaves this as it was, however far it came, so any number of failures makes no difference to
the next try; and as no schema file is left, nothing can be opened in the meantime.
-/

namespace DocIndex

open Storage

namespace Index

/-- Nothing is in the way of the files of an index in a directory that stands. -/
structure IsVacant (files : Files) (directory schemaFile : String) : Prop where
  schema : files.node? (pathOf schemaFile) ≠ some .directory
  store : files.node? (storePath directory) = none
  list : hasReadableList files directory = true
  draft : files.node? (pathOf (draftText schemaFile)) ≠ some .directory

/--
An index can be made in a directory: its text does not lead to an index, and nothing is in the way
of its files once the directory is made.
-/
structure HasRoom (files : Files) (directory schemaFile : String) : Prop where
  named : directory ≠ ""
  free : files.existsAt schemaFile = false ∧
    files.existsAt (joinText directory storeFile) = false
  vacant : ∃ made, files.createDirectories directory = .ok made ∧
    IsVacant made directory schemaFile
  apart : storePath directory ≠ pathOf schemaFile ∧
    storePath directory ≠ pathOf (draftText schemaFile)

theorem list_ne_directory {files : Files} {directory : String}
    (hlist : hasReadableList files directory = true) :
    files.node? (listPath directory) ≠ some .directory := by
  intro hnode
  simp [hasReadableList, hnode] at hlist

section

variable {files made after : Files} {directory schemaFile name : String} {schema : Schema}

/-- Where an index has been created there was room for it. -/
theorem hasRoom_of_create {disk created : Disk} {options : IndexOptions} {index : Index}
    (hpath : options.path = some directory)
    (hcreate : create disk options schema = (created, .ok index)) :
    HasRoom disk.files directory (options.schemaText directory) := by
  have hfree (hexists : disk.files.existsAt (options.schemaText directory) = true ∨
      disk.files.existsAt (joinText directory storeFile) = true) : False := by
    rw [create_of_existsAt hpath schema hexists] at hcreate
    simp at hcreate
  obtain ⟨other, after, hother, hwrite, -, ⟨found, hfound⟩, -⟩ := create_eq_ok hcreate
  obtain rfl : directory = other := Option.some.inj (hpath.symm.trans hother)
  obtain ⟨made, listed, kept, drafted, hsteps⟩ := writeAll_eq_ok hwrite
  rw [stored_eq_ok_iff, node?_of_writeAll hwrite] at hfound
  refine ⟨hsteps.opens.named, ⟨?_, ?_⟩, ⟨made, hsteps.making, ?_, hsteps.free, hsteps.list, ?_⟩,
    ?_, ?_⟩
  · exact Bool.eq_false_iff.mpr fun hexists => hfree (.inl hexists)
  · exact Bool.eq_false_iff.mpr fun hexists => hfree (.inr hexists)
  · intro hdirectory
    obtain ⟨-, -, htarget, -⟩ := Files.node?_of_rename hsteps.rename
    exact htarget (hsteps.directory_drafted (hsteps.directory_kept hdirectory))
  · intro hdirectory
    have hwritten := (Files.writeAt_eq_ok_iff.mp hsteps.drafting).2
    exact (Files.write_eq_ok_iff.mp hwritten).1 (hsteps.directory_kept hdirectory)
  · intro hsame
    rw [if_pos hsame] at hfound
    simp at hfound
  · intro hsame
    split at hfound
    · simp at hfound
    · contradiction

/-- Something can be written in a directory that stands, and all directories stay. -/
theorem exists_write {path : Path} {name : String} (hpath : path = pathOf directory ++ [name])
    (hopens : files.Opens directory) (hnode : files.node? path ≠ some .directory)
    (content : Content) :
    ∃ after, files.write path content = .ok after ∧ after.Opens directory ∧
      after.SameFolders files := by
  have hwrite := Files.write_eq_ok hnode
    (by rw [hpath, List.dropLast_concat]; exact hopens.hasDirectory) content
  have hsame := Files.sameFolders_of_write hwrite
  exact ⟨_, hwrite, hsame.opens_iff.mpr hopens, hsame⟩

/-- Where there is room all files of an index can be written, and its documents can be read. -/
theorem HasRoom.exists_writeAll (hroom : HasRoom files directory (joinText directory name))
    (hname : IsPlain name) (schema : Schema) :
    ∃ after, writeAll files directory (joinText directory name) schema = .ok after ∧
      stored after directory = .ok ⟨schema.storage, []⟩ := by
  obtain ⟨made, hmade, hvacant⟩ := hroom.vacant
  have hopens : made.Opens directory :=
    ⟨hroom.named, (Files.createDirectories_eq_ok hmade).2⟩
  have hdraftText := draftText_joinText hname directory
  have hdraftPath : pathOf (draftText (joinText directory name)) =
      pathOf directory ++ [draftText name] := by
    rw [hdraftText, pathOf_joinText hname.draftText]
  -- Each file is written in a directory that stands, and none of them makes or takes one away.
  obtain ⟨listed, hlisted, hopensListed, hsameListed⟩ := exists_write (listPath_eq directory)
    hopens (list_ne_directory hvacant.list) (.text s!"[\"{storeFile}\"]")
  obtain ⟨kept, hkept, hopensKept, hsameKept⟩ := exists_write (storePath_eq directory)
    hopensListed (by simp [hsameListed _, hvacant.store]) (.index ⟨schema.storage, []⟩)
  have hsame := hsameKept.trans hsameListed
  obtain ⟨drafted, hdrafted, hopensDrafted, hsameDrafted⟩ := exists_write hdraftPath hopensKept
    (mt (hsame _).mp hvacant.draft) (.text schema.toText)
  have hdraftAt : kept.writeAt (draftText (joinText directory name)) (.text schema.toText) =
      .ok drafted := by
    refine Files.writeAt_eq_ok_iff.mpr ⟨?_, hdrafted⟩
    rw [hdraftPath, hdraftText]
    exact hopensKept.leads_joinText hname.draftText
  have hcontent : drafted.node? (pathOf (draftText (joinText directory name))) =
      some (.file (.text schema.toText)) := by
    rw [Files.node?_of_write hdrafted, if_pos rfl]
  obtain ⟨after, hrenamed⟩ := Files.rename_eq_ok hcontent
    (mt ((hsameDrafted.trans hsame) _).mp hvacant.schema)
    (by rw [pathOf_joinText hname, List.dropLast_concat]; exact hopensDrafted.hasDirectory)
  have hrenameAt : drafted.renameAt (draftText (joinText directory name))
      (joinText directory name) = .ok after := by
    refine Files.renameAt_eq_ok_iff.mpr ⟨?_, ?_, endsInName_joinText hname directory,
      isSlashed_joinText hname directory, hrenamed⟩
    · rw [hdraftPath, hdraftText]
      exact hopensDrafted.leads_joinText hname.draftText
    · rw [pathOf_joinText hname]
      exact hopensDrafted.leads_joinText hname
  refine ⟨after, ?_, ?_⟩
  · have hfree : made.hasNode (storePath directory) = false := by
      simp [Files.hasNode, hvacant.store]
    have hstore : writeStore made directory schema = .ok kept := by
      simp only [writeStore, openingFault?_eq_none_iff.mpr hopens, hfree, hvacant.list, hlisted,
        hkept, Bool.not_true, Bool.false_eq_true, if_false]
    simp only [writeAll, makeWay_eq_ok_iff.mpr hmade, hstore, writeWhole, ioStep, hdraftAt,
      hrenameAt, bind, Except.bind]
  · obtain ⟨content, -, -, hnodes⟩ := Files.node?_of_rename hrenamed
    rw [stored_eq_ok_iff, hnodes, if_neg hroom.apart.1, if_neg hroom.apart.2,
      Files.node?_of_write hdrafted, if_neg hroom.apart.2, Files.node?_of_write hkept, if_pos rfl]

/-- Where there is room an index is created, if a writer can have the directory. -/
theorem HasRoom.exists_create {disk : Disk} {options : IndexOptions}
    (hpath : options.path = some directory)
    (hroom : HasRoom disk.files directory (options.schemaText directory))
    (hname : IsPlain options.settings.schemaFile) (schema : Schema)
    (hfree : pathOf directory ∉ disk.locked) (hleast : leastBudget ≤ options.writerBudget)
    (hbound : options.writerBudget < budgetBound) :
    ∃ created, create disk options schema =
      (created, .ok ⟨directory, options.settings, some ⟨schema, [], some []⟩⟩) := by
  obtain ⟨after, hwrite, hstored⟩ := hroom.exists_writeAll hname schema
  rw [← IndexOptions.schemaText] at hwrite
  have hlock : lock { disk with files := after } (pathOf directory) options.writerBudget = .ok _ :=
    lock_eq_ok_iff.mpr ⟨hfree, hleast, hbound, rfl⟩
  have hguard : (disk.files.existsAt (options.schemaText directory) ||
      disk.files.existsAt (joinText directory storeFile)) = false := by
    rw [hroom.free.1, hroom.free.2]
    rfl
  unfold create
  rw [hpath]
  simp only [hguard, Bool.false_eq_true, if_false, hwrite, hlock, hstored, bind, Except.bind, pure,
    Except.pure]
  exact ⟨_, rfl⟩

/-! Failures -/

/-- Nothing is in a directory unless its text leads there. -/
def IsCalm (files : Files) (directory : String) : Prop :=
  files.existsAt directory = true ∨
    ∀ path, pathOf directory <+: path → path ≠ pathOf directory → files.node? path = none

/--
What a failure may change so that it makes no difference to the next try: the list of files and the
draft of the schema may be gone, directories on the way may be there, and what was in a directory
that the text did not lead to is gone.
-/
structure Unspoilt (before after : Files) (directory schemaFile : String) : Prop where
  room : HasRoom after directory schemaFile
  calm : IsCalm before directory → IsCalm after directory
  same : ∀ path, path ≠ listPath directory → path ≠ pathOf (draftText schemaFile) →
    (pathOf directory <+: path → IsCalm before directory) →
      nodeWithin after directory path = nodeWithin before directory path

theorem isCalm_of_isTree (htree : files.IsTree)
    (hleads : files.hasNode (pathOf directory) = true → files.existsAt directory = true) :
    IsCalm files directory := by
  cases hnode : files.node? (pathOf directory) with
  | none => exact .inr fun path hinside _ => htree.node?_eq_none hnode hinside
  | some node => exact .inl (hleads (by simp [Files.hasNode, hnode]))

theorem unspoilt_refl (hroom : HasRoom files directory schemaFile) :
    Unspoilt files files directory schemaFile :=
  ⟨hroom, id, fun _ _ _ _ => rfl⟩

theorem Unspoilt.trans {last : Files} (hfirst : Unspoilt files after directory schemaFile)
    (hsecond : Unspoilt after last directory schemaFile) :
    Unspoilt files last directory schemaFile where
  room := hsecond.room
  calm hcalm := hsecond.calm (hfirst.calm hcalm)
  same path hlist hdraft hcalm :=
    (hsecond.same path hlist hdraft fun hinside => hfirst.calm (hcalm hinside)).trans
      (hfirst.same path hlist hdraft hcalm)

/-- Where files are gone nothing else is in the way of an index. -/
theorem IsVacant.of_losesFiles (hvacant : IsVacant made directory schemaFile)
    (hloses : Files.LosesFiles made after) : IsVacant after directory schemaFile where
  schema := mt (hloses.folders _).mp hvacant.schema
  store := (hloses.gone_or_same _).elim id fun hsame => hsame.trans hvacant.store
  list := by
    rcases hloses.gone_or_same (listPath directory) with hgone | hsame
    · rw [hasReadableList, hgone]
    · rw [hasReadableList_congr hsame, hvacant.list]
  draft := mt (hloses.folders _).mp hvacant.draft

/-- In a directory that was there an index can be made as before when files are gone. -/
theorem HasRoom.of_losesFiles (hroom : HasRoom files directory schemaFile)
    (hexisted : files.existsAt directory = true) (hloses : Files.LosesFiles files after) :
    HasRoom after directory schemaFile ∧ after.existsAt directory = true := by
  obtain ⟨made, hmade, hvacant⟩ := hroom.vacant
  obtain ⟨hadds, hreaches⟩ := Files.createDirectories_eq_ok hmade
  have hsame := hadds.same hexisted
  have hmadeLoses : Files.LosesFiles made after :=
    ⟨fun path => hsame path ▸ hloses.gone_or_same path,
      fun path => hsame path ▸ hloses.folders path⟩
  have hopens : after.Opens directory :=
    ⟨hroom.named, fun place hplace => (hmadeLoses.folders place).mpr (hreaches place hplace)⟩
  exact ⟨⟨hroom.named, hroom.free.imp hloses.existsAt_eq_false hloses.existsAt_eq_false,
    ⟨after, Files.createDirectories_of_reaches hopens.reaches, hvacant.of_losesFiles hmadeLoses⟩,
    hroom.apart⟩, hopens.existsAt⟩

/-- In a directory that was there the list of files and the draft of the schema may be gone. -/
theorem unspoilt_of_existed (hroom : HasRoom files directory schemaFile)
    (hexisted : files.existsAt directory = true)
    (hnodes : ∀ path, after.node? path =
      if (files.Leads (joinText directory listFile) path ∨
          files.Leads (draftText schemaFile) path) ∧ files.isFile path = true then none
      else files.node? path) : Unspoilt files after directory schemaFile := by
  obtain ⟨hroomAfter, hstands⟩ :=
    hroom.of_losesFiles hexisted (Files.losesFiles_of_node? hnodes)
  refine ⟨hroomAfter, fun _ => .inl hstands, fun path hlist hdraft _ => ?_⟩
  rw [nodeWithin_eq, hnodes, if_neg, nodeWithin_eq]
  rintro ⟨hleads | hleads, -⟩
  · exact hlist hleads.eq_pathOf
  · exact hdraft hleads.eq_pathOf

/--
What a failure leaves of a directory that it made: the directories on the way to it, and of itself
no more than an empty directory.
-/
structure Cleared (before after : Files) (directory : String) : Prop where
  unblocked : ∀ place ∈ way (namesOf directory), before.isFile place = false
  inside : ∀ path, pathOf directory <+: path → after.node? path =
    if path = pathOf directory ∧ isRemovable directory = false then some .directory else none
  outside : ∀ path, ¬ pathOf directory <+: path → after.node? path =
    (before.node? path).or (if path ∈ way (namesOf directory) then some .directory else none)

theorem Cleared.below (hcleared : Cleared files after directory) {path : Path}
    (hbelow : pathOf directory <+: path) (hne : path ≠ pathOf directory) :
    after.node? path = none := by
  rw [hcleared.inside path hbelow, if_neg fun h => hne h.1]

theorem Cleared.entry (hcleared : Cleared files after directory) (entry : String) :
    after.node? (pathOf directory ++ [entry]) = none :=
  hcleared.below (List.prefix_append _ _) (by simp)

theorem Cleared.free (hcleared : Cleared files after directory) {entry : String}
    (hentry : IsPlain entry) : after.existsAt (joinText directory entry) = false := by
  rw [Bool.eq_false_iff, ne_eq, Files.existsAt_iff, pathOf_joinText hentry, Files.hasNode,
    hcleared.entry]
  simp

theorem Cleared.no_file (hcleared : Cleared files after directory) {place : Path}
    (hplace : place ∈ way (namesOf directory)) : after.isFile place = false := by
  by_cases hbelow : pathOf directory <+: place
  · have hnode := hcleared.inside place hbelow
    split at hnode <;> simp [Files.isFile, hnode]
  · have hnode := hcleared.outside place hbelow
    rcases Files.node?_of_no_file (hcleared.unblocked place hplace) with hnone | hdirectory
    · rw [hnone, if_pos hplace, Option.none_or] at hnode
      simp [Files.isFile, hnode]
    · rw [hdirectory, Option.some_or] at hnode
      simp [Files.isFile, hnode]

/-- The directory can be made again, even if its text ends in no name. -/
theorem Cleared.exists_createDirectories (hcleared : Cleared files after directory) :
    ∃ made, after.createDirectories directory = .ok made := by
  refine Files.exists_createDirectories (fun _ => hcleared.no_file) fun hhere => ?_
  have hstays : isRemovable directory = false := by
    rw [isRemovable, endsInName, hhere]
    rfl
  rw [hcleared.inside _ List.prefix_rfl, if_pos ⟨rfl, hstays⟩]

theorem Cleared.hasRoom (hcleared : Cleared files after directory) (hname : IsPlain name)
    (hroom : HasRoom files directory (joinText directory name)) :
    HasRoom after directory (joinText directory name) := by
  obtain ⟨made, hmade, hschema, hstore, hlist, hdraft⟩ := hroom.vacant
  obtain ⟨again, hagain⟩ := hcleared.exists_createDirectories
  -- In the directory nothing stands now but directories on the way to it, which stood before.
  have hentry (entry : String) : again.node? (pathOf directory ++ [entry]) = none ∨
      made.node? (pathOf directory ++ [entry]) = some .directory := by
    rw [Files.node?_createDirectories hagain, hcleared.entry, Option.none_or]
    split
    · rename_i hplace
      exact .inr ((Files.createDirectories_eq_ok hmade).2 _ hplace)
    · exact .inl rfl
  rw [pathOf_joinText hname] at hschema
  rw [draftText_joinText hname, pathOf_joinText hname.draftText] at hdraft
  refine ⟨hroom.named, ⟨hcleared.free hname, hcleared.free isPlain_storeFile⟩,
    ⟨again, hagain, ?_, ?_, ?_, ?_⟩, hroom.apart⟩
  · rw [pathOf_joinText hname, (hentry name).resolve_right hschema]
    simp
  · rw [storePath_eq] at hstore ⊢
    exact (hentry storeFile).resolve_right (by simp [hstore])
  · have hmissing := list_ne_directory hlist
    rw [listPath_eq] at hmissing
    rw [hasReadableList, listPath_eq, (hentry listFile).resolve_right hmissing]
  · rw [draftText_joinText hname, pathOf_joinText hname.draftText,
      (hentry (draftText name)).resolve_right hdraft]
    simp

/-- Of a directory that was not there nothing is left but directories. -/
theorem Cleared.unspoilt (hcleared : Cleared files after directory) (hname : IsPlain name)
    (hnew : files.existsAt directory = false)
    (hroom : HasRoom files directory (joinText directory name)) :
    Unspoilt files after directory (joinText directory name) := by
  refine ⟨hcleared.hasRoom hname hroom, fun _ => .inr fun _ => hcleared.below, ?_⟩
  intro path _ _ hcalm
  by_cases hbelow : pathOf directory <+: path
  · by_cases hself : path = pathOf directory
    · have hplace : path ∈ way (namesOf directory) := by
        rw [hself]
        exact walk_mem_way _
      rw [nodeWithin_of_mem_way hplace (hcleared.no_file hplace),
        nodeWithin_of_mem_way hplace (hcleared.unblocked path hplace)]
    · have hnone := (hcalm hbelow).resolve_left (by simp [hnew]) path hbelow hself
      rw [nodeWithin_eq, nodeWithin_eq, hcleared.below hbelow hself, hnone]
  · rw [nodeWithin_eq, nodeWithin_eq, hcleared.outside path hbelow, Option.or_assoc]
    split <;> rfl

/-- A failure leaves room for the next try. -/
theorem unspoilt_of_failure {disk after : Disk} {attempt : IndexOptions} {text : String}
    {fault : IndexError} (hpath : attempt.path = some directory)
    (hname : IsPlain attempt.settings.schemaFile)
    (hroom : HasRoom disk.files directory (attempt.schemaText directory))
    (hfails : createFromText disk attempt text = (after, .error fault)) :
    Unspoilt disk.files after.files directory (attempt.schemaText directory) ∧
      after.locked = disk.locked := by
  unfold createFromText at hfails
  split at hfails
  · obtain ⟨rfl, -⟩ := Prod.mk.inj hfails
    exact ⟨unspoilt_refl hroom, rfl⟩
  · rcases leaves_of_create_error hfails with rfl | ⟨hlocked, other, hother, hleaves⟩
    · exact ⟨unspoilt_refl hroom, rfl⟩
    · obtain rfl : directory = other := Option.some.inj (hpath.symm.trans hother)
      refine ⟨?_, hlocked⟩
      cases hleaves with
      | existed hexisted hnodes => exact unspoilt_of_existed hroom hexisted hnodes
      | blocked _ hblocked =>
          obtain ⟨made, hmade, -⟩ := hroom.vacant
          exact absurd ⟨made, hmade⟩ hblocked
      | made hnamed hnew hway hinside houtside =>
          have hcleared : Cleared disk.files after.files directory := by
            refine ⟨hway, hinside, fun path hpath => houtside path hpath ?_ ?_⟩
            · rintro rfl
              exact hpath (below_joinText hname directory)
            · rintro rfl
              exact hpath (below_draft hname directory)
          exact hcleared.unspoilt hname hnew hroom

end

/--
Creations in one directory, with one name of the schema file, that fail one after the other; their
schemas and all other options may be any.
-/
inductive Failures (options : IndexOptions) : Disk → Disk → Prop where
  | none (disk : Disk) : Failures options disk disk
  | next {disk after last : Disk} {attempt : IndexOptions} {text : String} {fault : IndexError}
      (hfails : createFromText disk attempt text = (after, .error fault))
      (hpath : attempt.path = options.path)
      (hschema : attempt.settings.schemaFile = options.settings.schemaFile)
      (hrest : Failures options after last) : Failures options disk last

theorem unspoilt_of_failures {disk failed : Disk} {options : IndexOptions} {directory : String}
    (hpath : options.path = some directory) (hname : IsPlain options.settings.schemaFile)
    (hroom : HasRoom disk.files directory (options.schemaText directory))
    (hfailures : Failures options disk failed) :
    Unspoilt disk.files failed.files directory (options.schemaText directory) ∧
      failed.locked = disk.locked := by
  induction hfailures with
  | none disk => exact ⟨unspoilt_refl hroom, rfl⟩
  | @next disk after last attempt text fault hfails hsame hschema _ ih =>
      have htext : attempt.schemaText directory = options.schemaText directory := by
        rw [IndexOptions.schemaText, hschema, IndexOptions.schemaText]
      rw [← htext] at hroom
      obtain ⟨hafter, hlocked⟩ :=
        unspoilt_of_failure (hsame.trans hpath) (hschema ▸ hname) hroom hfails
      rw [htext] at hafter
      obtain ⟨hlast, hlockedLast⟩ := ih hafter.room
      exact ⟨hafter.trans hlast, hlockedLast.trans hlocked⟩

/-- Nothing is opened where there is no schema file. -/
theorem HasRoom.openExisting {disk : Disk} {opening : IndexOptions} {directory : String}
    (hpath : opening.path = some directory)
    (hroom : HasRoom disk.files directory (opening.schemaText directory)) :
    openExisting disk opening = .error (.schemaMissing directory) := by
  have hfile : disk.files.isFileAt (opening.schemaText directory) = false := by
    rw [Bool.eq_false_iff]
    intro hfile
    exact Bool.false_ne_true (hroom.free.1.symm.trans (Files.existsAt_of_isFileAt hfile))
  simp [Index.openExisting, hpath, readSchema, hfile, bind, Except.bind]

/-- A creation that finds an index changes nothing. -/
theorem eq_of_indexExists {disk after : Disk} {options : IndexOptions} {text directory : String}
    (hcreate : createFromText disk options text = (after, .error (.indexExists directory))) :
    after = disk := by
  unfold createFromText at hcreate
  split at hcreate
  · exact (Prod.mk.inj hcreate).1.symm
  · rcases fault_of_create hcreate with
      ⟨hsame, -⟩ | ⟨_, hfault⟩ | ⟨_, hfault⟩ | ⟨hfault, -⟩
    · exact hsame
    · contradiction
    · contradiction
    · contradiction

/--
A creation that would succeed still does so after any number of failures in the same directory,
with the same index and the same disk as if there had been none; the failures only tell in a
directory that was there but that its text did not lead to. Until then nothing can be opened there,
for want of a schema. And a creation that is refused because there is an index changes nothing, so
that the index is opened, or not, as before.
-/
theorem failed_creation_can_be_retried {disk created failed : Disk} {options : IndexOptions}
    {text : String} {index : Index} (htree : disk.files.IsTree)
    (hplain : IsPlain options.settings.schemaFile)
    (hcreate : createFromText disk options text = (created, .ok index))
    (hfailures : Failures options disk failed) :
    (∃ again, createFromText failed options text = (again, .ok index) ∧
      index.size = .ok 0 ∧ again.locked = created.locked ∧
      ∀ directory path, options.path = some directory →
        (pathOf directory <+: path → disk.files.hasNode (pathOf directory) = true →
          disk.files.existsAt directory = true) →
        again.files.node? path = created.files.node? path) ∧
    (∃ directory, options.path = some directory ∧ ∀ opening : IndexOptions,
      opening.path = options.path → opening.settings.schemaFile = options.settings.schemaFile →
        openExisting failed opening = .error (.schemaMissing directory)) ∧
    ∀ (other after : Disk) (attempt : IndexOptions) (schema directory : String),
      createFromText other attempt schema = (after, .error (.indexExists directory)) →
        after = other ∧ ∀ opening, openExisting after opening = openExisting other opening := by
  obtain ⟨schema, hschema, hfounded⟩ := createFromText_eq_ok hcreate
  have hcreated := hfounded
  obtain ⟨directory, files, hpath, hwrite, hlock, -, rfl⟩ := create_eq_ok hcreated
  obtain ⟨hfree, hleast, hbound, rfl⟩ := lock_eq_ok_iff.mp hlock
  have hroom := hasRoom_of_create hpath hfounded
  obtain ⟨hunspoilt, hlocked⟩ := unspoilt_of_failures hpath hplain hroom hfailures
  refine ⟨?_, ⟨directory, hpath, ?_⟩, ?_⟩
  · have hunlocked : pathOf directory ∉ failed.locked := by
      rw [hlocked]
      exact hfree
    obtain ⟨again, hagain⟩ :=
      hunspoilt.room.exists_create hpath hplain schema hunlocked hleast hbound
    refine ⟨again, (createFromText_eq hschema).trans hagain, rfl, ?_⟩
    obtain ⟨other, written, hother, hrewrite, hrelock, -, -⟩ := create_eq_ok hagain
    obtain rfl : directory = other := Option.some.inj (hpath.symm.trans hother)
    obtain ⟨-, -, -, rfl⟩ := lock_eq_ok_iff.mp hrelock
    refine ⟨congrArg (pathOf directory :: ·) hlocked, ?_⟩
    intro other path hother hleads
    obtain rfl : directory = other := Option.some.inj (hpath.symm.trans hother)
    rw [node?_of_writeAll hrewrite, node?_of_writeAll hwrite]
    by_cases hlist : path = listPath directory
    · simp only [hlist, if_true]
    · by_cases hdraft : path = pathOf (draftText (options.schemaText directory))
      · simp only [hdraft, if_true]
      · rw [hunspoilt.same path hlist hdraft fun hinside => isCalm_of_isTree htree (hleads hinside)]
  · intro opening hopening hfile
    have htext : opening.schemaText directory = options.schemaText directory := by
      rw [IndexOptions.schemaText, hfile, IndexOptions.schemaText]
    refine HasRoom.openExisting (hopening.trans hpath) ?_
    rw [htext]
    exact hunspoilt.room
  · intro other after attempt text directory hrefused
    obtain rfl := eq_of_indexExists hrefused
    exact ⟨rfl, fun _ => rfl⟩

/-- The first try has no schema, and the second one next to no memory. -/
theorem shelf_retried : ∃ created index failed, shelfDisk.files.IsTree ∧
    IsPlain ({} : Settings).schemaFile ∧
    createFromText shelfDisk { path := some "shelf" } talesText = (created, .ok index) ∧
    Failures { path := some "shelf" } shelfDisk failed ∧
    failed.files.node? ["shelf", "_schema.json.tmp"] = none ∧
    ∃ again, createFromText failed { path := some "shelf" } talesText = (again, .ok index) ∧
      index.size = .ok 0 := by
  have hplain : IsPlain ({} : Settings).schemaFile :=
    ⟨by decide, by decide, by decide, by decide⟩
  obtain ⟨created, index, hcreate⟩ : ∃ created index,
      createFromText shelfDisk { path := some "shelf" } talesText = (created, .ok index) :=
    ⟨_, _, createFromText_eq ofText_talesText⟩
  have hunread : createFromText shelfDisk { path := some "shelf" } "" = (shelfDisk, .error _) := rfl
  obtain ⟨failed, hsmall, hgone⟩ : ∃ failed, createFromText shelfDisk shelfOptions talesText =
      (failed, .error (.engine .budgetTooSmall)) ∧
      failed.files.node? ["shelf", "_schema.json.tmp"] = none :=
    ⟨_, createFromText_eq ofText_talesText, by decide⟩
  have hfailures : Failures { path := some "shelf" } shelfDisk failed :=
    .next hunread rfl rfl (.next hsmall rfl rfl (.none _))
  obtain ⟨⟨again, hagain, hsize, -⟩, -⟩ :=
    failed_creation_can_be_retried isTree_shelfDisk hplain hcreate hfailures
  exact ⟨created, index, failed, isTree_shelfDisk, hplain, hcreate, hfailures, hgone, again, hagain,
    hsize⟩

end Index

end DocIndex
