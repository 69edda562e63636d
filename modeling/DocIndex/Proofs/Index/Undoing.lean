import DocIndex.Proofs.Index.Reopening

/-!
What a failed creation leaves behind. Whichever step fails, what was written is taken away again:
with the directory if its text led to nothing before, file by file if it did. But the directories on
the way to a new one stay, and so does what was written outside of it. Of a directory that was there
before, a list of files and a draft of the schema are taken away whoever wrote them; and all that is
in it, if its text led to nothing only for want of a directory on the way.
-/

namespace DocIndex

open Storage

namespace Storage.Files

/-- Nothing differs but files at some paths. -/
structure DiffersAt (isWritten : Path → Prop) (before after : Files) : Prop where
  others : ∀ path, ¬ isWritten path → after.node? path = before.node? path
  folders : after.SameFolders before

section

variable {isWritten : Path → Prop} {before files after : Files}

theorem DiffersAt.refl (isWritten : Path → Prop) (files : Files) :
    DiffersAt isWritten files files :=
  ⟨fun _ _ => rfl, .refl files⟩

theorem DiffersAt.trans (hfirst : DiffersAt isWritten before files)
    (hsecond : DiffersAt isWritten files after) : DiffersAt isWritten before after where
  others path hpath := (hsecond.others path hpath).trans (hfirst.others path hpath)
  folders := hsecond.folders.trans hfirst.folders

theorem differsAt_of_write {path : Path} {content : Content}
    (hwrite : files.write path content = .ok after) (hpath : isWritten path) :
    DiffersAt isWritten files after where
  others other hother := by
    rw [node?_of_write hwrite, if_neg]
    rintro rfl
    exact hother hpath
  folders := sameFolders_of_write hwrite

theorem differsAt_of_rename {source target : Path}
    (hrename : files.rename source target = .ok after) (hsource : isWritten source)
    (htarget : isWritten target) : DiffersAt isWritten files after := by
  obtain ⟨content, hcontent, hnode, hafter⟩ := node?_of_rename hrename
  constructor
  · intro other hother
    rw [hafter, if_neg, if_neg]
    · rintro rfl
      exact hother hsource
    · rintro rfl
      exact hother htarget
  · intro other
    rw [hafter]
    split
    · rename_i hsame
      simp [hsame, hnode]
    · split
      · rename_i hsame
        simp [hsame, hcontent]
      · rfl

end

/-- Nothing differs but that files are gone. -/
structure LosesFiles (before after : Files) : Prop where
  gone_or_same : ∀ path, after.node? path = none ∨ after.node? path = before.node? path
  folders : after.SameFolders before

theorem losesFiles_of_node? {files after : Files} {isGone : Path → Prop}
    [∀ path, Decidable (isGone path ∧ files.isFile path = true)]
    (hnodes : ∀ path, after.node? path =
      if isGone path ∧ files.isFile path = true then none else files.node? path) :
    LosesFiles files after where
  gone_or_same path := by
    rw [hnodes]
    split
    · exact .inl rfl
    · exact .inr rfl
  folders path := by
    rw [hnodes]
    split
    · rename_i hgone
      obtain ⟨content, hcontent⟩ := isFile_iff.mp hgone.2
      simp [hcontent]
    · rfl

theorem LosesFiles.existsAt_eq_false {files after : Files} {text : String}
    (hloses : LosesFiles files after) (hmissing : files.existsAt text = false) :
    after.existsAt text = false := by
  rw [Bool.eq_false_iff, ne_eq, existsAt_iff, hloses.folders.leads_iff]
  rintro ⟨hleads, hnode⟩
  rcases hloses.gone_or_same (pathOf text) with hgone | hsame
  · simp [hasNode, hgone] at hnode
  · rw [hasNode, hsame] at hnode
    exact Bool.false_ne_true (hmissing.symm.trans (existsAt_of_leads hleads hnode))

/-- Removing files leaves all directories. -/
theorem sameFolders_removeFileAt (files : Files) (text : String) :
    (files.removeFileAt text).SameFolders files :=
  (losesFiles_of_node? (node?_removeFileAt files text)).folders

theorem isFile_removeFileAt (files : Files) (text : String) (other : Path) :
    (files.removeFileAt text).isFile other = true ↔
      ¬ files.Leads text other ∧ files.isFile other = true := by
  rw [isFile_iff, isFile_iff, node?_removeFileAt]
  split
  · rename_i hgone
    simp [hgone.1]
  · rename_i hstays
    rw [isFile_iff] at hstays
    simp only [not_and] at hstays
    constructor
    · exact fun hfile => ⟨fun hleads => hstays hleads hfile, hfile⟩
    · exact And.right

/-- Files that are removed one after the other are gone, and nothing else is. -/
theorem node?_foldl_removeFileAt (texts : List String) (files : Files) (other : Path) :
    (texts.foldl removeFileAt files).node? other =
      if (∃ text ∈ texts, files.Leads text other) ∧ files.isFile other = true then none
      else files.node? other := by
  induction texts generalizing files with
  | nil => simp
  | cons text rest ih =>
      rw [List.foldl_cons, ih]
      simp only [isFile_removeFileAt, node?_removeFileAt,
        (sameFolders_removeFileAt files text).leads_iff, List.exists_mem_cons_iff]
      by_cases hleads : files.Leads text other
      · simp [hleads]
      · simp [hleads]

/-- All on the way to something that is there is there. -/
theorem OnlyAdds.same {files after : Files} {text : String}
    (hadds : files.OnlyAdds after (way (namesOf text))) (hexists : files.existsAt text = true)
    (path : Path) : after.node? path = files.node? path := by
  obtain ⟨⟨-, hway, -⟩, hnode⟩ := existsAt_iff.mp hexists
  rcases hadds path with hsame | ⟨hnone, hplace, -⟩
  · exact hsame
  · rcases (mem_way_iff _).mp hplace with hbefore | hself
    · simp [hway path hbefore] at hnone
    · rw [hasNode, pathOf, ← hself, hnone] at hnode
      contradiction

end Storage.Files

namespace Index

/-- The files after a step of creation, whether it succeeds or not. -/
def Creation.left : Creation → Files
  | .ok files => files
  | .error (files, _) => files

/-- The paths to which the texts of the files of a new index lead. -/
def IsOwn (files : Files) (directory schemaFile : String) (path : Path) : Prop :=
  ∃ text ∈ cleanUpTexts directory schemaFile, files.Leads text path

instance {files : Files} {directory schemaFile : String} {path : Path} :
    Decidable (IsOwn files directory schemaFile path) :=
  inferInstanceAs (Decidable (∃ text ∈ cleanUpTexts directory schemaFile, files.Leads text path))

section

variable {files made : Files} {directory schemaFile : String} {schema : Schema}

theorem differsAt_bind {isWritten : Path → Prop} {first : Creation} {next : Files → Creation}
    (hfirst : files.DiffersAt isWritten (Creation.left first))
    (hnext : ∀ after, first = .ok after →
      after.DiffersAt isWritten (Creation.left (next after))) :
    files.DiffersAt isWritten (Creation.left (first >>= next)) := by
  cases first with
  | error fault => exact hfirst
  | ok after => exact hfirst.trans (hnext after rfl)

theorem isOwn_store (schemaFile : String) (hopens : files.Opens directory) :
    IsOwn files directory schemaFile (storePath directory) := by
  refine ⟨_, List.mem_cons_self, ?_⟩
  rw [storePath_eq]
  exact hopens.leads_joinText isPlain_storeFile

theorem isOwn_list (schemaFile : String) (hopens : files.Opens directory) :
    IsOwn files directory schemaFile (listPath directory) := by
  refine ⟨joinText directory listFile, by simp [cleanUpTexts], ?_⟩
  rw [listPath_eq]
  exact hopens.leads_joinText isPlain_listFile

theorem isOwn_schema (directory : String) (hleads : files.Leads schemaFile (pathOf schemaFile)) :
    IsOwn files directory schemaFile (pathOf schemaFile) :=
  ⟨schemaFile, by simp [cleanUpTexts], hleads⟩

theorem isOwn_draft (directory : String)
    (hleads : files.Leads (draftText schemaFile) (pathOf (draftText schemaFile))) :
    IsOwn files directory schemaFile (pathOf (draftText schemaFile)) :=
  ⟨draftText schemaFile, by simp [cleanUpTexts], hleads⟩

theorem isOwn_congr {others : Files} (hsame : files.SameFolders others)
    {path : Path} :
    IsOwn files directory schemaFile path ↔ IsOwn others directory schemaFile path := by
  simp only [IsOwn, hsame.leads_iff]

theorem differsAt_writeStore (files : Files) (directory schemaFile : String) (schema : Schema) :
    files.DiffersAt (IsOwn files directory schemaFile)
      (Creation.left (writeStore files directory schema)) := by
  unfold writeStore
  split
  · exact .refl _ _
  · rename_i hopening
    have hopens := openingFault?_eq_none_iff.mp hopening
    split
    · exact .refl _ _
    · split
      · exact .refl _ _
      · split
        · exact .refl _ _
        · rename_i listed hlisted
          have hdiffers := Files.differsAt_of_write hlisted (isOwn_list schemaFile hopens)
          split
          · exact hdiffers
          · rename_i kept hkept
            exact hdiffers.trans (Files.differsAt_of_write hkept (isOwn_store schemaFile hopens))

theorem differsAt_writeWhole (files : Files) (directory schemaFile text : String) :
    files.DiffersAt (IsOwn files directory schemaFile)
      (Creation.left (writeWhole files schemaFile text)) := by
  unfold writeWhole
  cases hwrite : files.writeAt (draftText schemaFile) (.text text) with
  | error fault => exact .refl _ _
  | ok drafted =>
      obtain ⟨hleads, hdrafted⟩ := Files.writeAt_eq_ok_iff.mp hwrite
      have hdiffers := Files.differsAt_of_write hdrafted (isOwn_draft directory hleads)
      refine differsAt_bind hdiffers ?_
      intro after hafter
      obtain rfl := Except.ok.inj hafter
      cases hrename : drafted.renameAt (draftText schemaFile) schemaFile with
      | error fault => exact .refl _ _
      | ok renamed =>
          obtain ⟨-, htarget, -, -, hrenamed⟩ := Files.renameAt_eq_ok_iff.mp hrename
          exact Files.differsAt_of_rename hrenamed (isOwn_draft directory hleads)
            (isOwn_schema directory (hdiffers.folders.leads_iff.mp htarget))

/-- Once the directory is made nothing changes but the files of the index. -/
theorem differsAt_of_made (schemaFile : String) (schema : Schema)
    (hmade : files.createDirectories directory = .ok made) :
    made.DiffersAt (IsOwn made directory schemaFile)
      (Creation.left (writeAll files directory schemaFile schema)) := by
  simp only [writeAll, makeWay_eq_ok_iff.mpr hmade]
  refine differsAt_bind (.refl _ _) ?_
  intro after hafter
  obtain rfl := Except.ok.inj hafter
  have hstore := differsAt_writeStore made directory schemaFile schema
  refine differsAt_bind hstore ?_
  intro kept hkept
  rw [hkept] at hstore
  have hwhole := differsAt_writeWhole kept directory schemaFile schema.toText
  exact ⟨fun path hpath => hwhole.others path (mt (isOwn_congr hstore.folders).mp hpath),
    hwhole.folders⟩

/-- If the directory cannot be made, some directories on the way to it may be new. -/
theorem left_of_not_made {left : Files} {fault : IoFault}
    (hmade : files.createDirectories directory = .error (left, fault)) :
    Creation.left (writeAll files directory schemaFile schema) = left := by
  simp only [writeAll, makeWay, hmade]
  rfl

theorem writeStore_of_missing (hmissing : ¬ files.Opens directory) (schema : Schema) :
    Creation.left (writeStore files directory schema) = files := by
  unfold writeStore
  split
  · rfl
  · exact absurd (openingFault?_eq_none_iff.mp ‹_›) hmissing

/-- A directory without a name is none, so nothing is written. -/
theorem left_of_unnamed (files : Files) (schemaFile : String) (schema : Schema) :
    Creation.left (writeAll files "" schemaFile schema) = files := by
  have hmade : makeWay files "" = .ok files := makeWay_eq_ok_iff.mpr rfl
  have hstore := writeStore_of_missing (fun hopens : files.Opens "" => hopens.named rfl) schema
  simp only [writeAll, hmade, bind, Except.bind]
  cases hwrite : writeStore files "" schema with
  | error fault => rwa [hwrite] at hstore
  | ok after => exact absurd rfl (writeStore_eq_ok hwrite).1.named

/-- In a directory that was there creation changes nothing but the files of the index. -/
theorem differsAt_of_existed (schemaFile : String) (schema : Schema)
    (hexisted : files.existsAt directory = true) :
    files.DiffersAt (IsOwn files directory schemaFile)
      (Creation.left (writeAll files directory schemaFile schema)) := by
  cases hmade : files.createDirectories directory with
  | error failure =>
      obtain ⟨left, fault⟩ := failure
      have hsame := (Files.createDirectories_eq_error hmade).1.same hexisted
      rw [left_of_not_made hmade]
      exact ⟨fun path _ => hsame path, fun path => by rw [hsame]⟩
  | ok made =>
      have hsame := (Files.createDirectories_eq_ok hmade).1.same hexisted
      have hfolders : made.SameFolders files := fun path => by rw [hsame]
      have hdiffers := differsAt_of_made schemaFile schema hmade
      exact ⟨fun path hpath =>
        (hdiffers.others path (mt (isOwn_congr hfolders).mp hpath)).trans (hsame path),
        hdiffers.folders.trans hfolders⟩

theorem isOwn_iff {path : Path} : IsOwn files directory schemaFile path ↔
    files.Leads (joinText directory storeFile) path ∨
      files.Leads (joinText directory listFile) path ∨ files.Leads schemaFile path ∨
        files.Leads (draftText schemaFile) path := by
  simp [IsOwn, cleanUpTexts]

/-- Where the files of an index are taken away only directories stay. -/
theorem node?_cleanUp_own {path : Path} (hown : IsOwn files directory schemaFile path) :
    (cleanUp files directory schemaFile true).node? path =
      if files.node? path = some .directory then some .directory else none := by
  have hclean := Files.node?_foldl_removeFileAt (cleanUpTexts directory schemaFile) files path
  rw [cleanUp, if_pos rfl, hclean]
  cases hnode : files.node? path with
  | none => simp
  | some node =>
      cases node with
      | directory => simp [Files.isFile, hnode]
      | file content => simp [Files.isFile, hnode, show ∃ text ∈ _, _ from hown]

theorem node?_cleanUp_of_not_own {path : Path} (hown : ¬ IsOwn files directory schemaFile path) :
    (cleanUp files directory schemaFile true).node? path = files.node? path := by
  have hclean := Files.node?_foldl_removeFileAt (cleanUpTexts directory schemaFile) files path
  rw [cleanUp, if_pos rfl, hclean, if_neg fun h => hown h.1]

/--
In a directory that was there a failed creation takes away the list of files and the draft of the
schema, if they are files, and nothing else; nor does it leave anything.
-/
theorem node?_cleanUp_existed (hexisted : files.existsAt directory = true)
    (hschema : files.existsAt schemaFile = false)
    (hstore : files.existsAt (joinText directory storeFile) = false) (path : Path) :
    (cleanUp (Creation.left (writeAll files directory schemaFile schema)) directory schemaFile
        true).node? path =
      if (files.Leads (joinText directory listFile) path ∨
          files.Leads (draftText schemaFile) path) ∧ files.isFile path = true then none
      else files.node? path := by
  have hdiffers := differsAt_of_existed schemaFile schema hexisted
  generalize Creation.left (writeAll files directory schemaFile schema) = left at hdiffers ⊢
  by_cases hown : IsOwn files directory schemaFile path
  · rw [node?_cleanUp_own ((isOwn_congr hdiffers.folders).mpr hown)]
    simp only [hdiffers.folders path]
    cases hnode : files.node? path with
    | none => simp
    | some node =>
        cases node with
        | directory => simp [Files.isFile, hnode]
        | file content =>
            -- Only the list of files and the draft can have been there as files.
            have hexists : files.hasNode path = true := by simp [Files.hasNode, hnode]
            have hsame : files.Leads (joinText directory listFile) path ∨
                files.Leads (draftText schemaFile) path := by
              rcases isOwn_iff.mp hown with hleads | hlist | hleads | hdraft
              · simp [Files.existsAt_of_leads hleads hexists] at hstore
              · exact .inl hlist
              · simp [Files.existsAt_of_leads hleads hexists] at hschema
              · exact .inr hdraft
            rw [if_neg (by simp), if_pos ⟨hsame, Files.isFile_iff.mpr ⟨content, hnode⟩⟩]
  · rw [node?_cleanUp_of_not_own (mt (isOwn_congr hdiffers.folders).mp hown),
      hdiffers.others path hown, if_neg]
    rintro ⟨hlist | hdraft, -⟩
    · exact hown (isOwn_iff.mpr (.inr (.inl hlist)))
    · exact hown (isOwn_iff.mpr (.inr (.inr (.inr hdraft))))

theorem below_joinText {name : String} (hname : IsPlain name) (directory : String) :
    pathOf directory <+: pathOf (joinText directory name) := by
  rw [pathOf_joinText hname]
  exact List.prefix_append _ _

/-- The own files of an index are in its directory, but for the schema file and its draft. -/
theorem below_of_isOwn {path : Path} (hown : IsOwn files directory schemaFile path)
    (hschema : path ≠ pathOf schemaFile) (hdraft : path ≠ pathOf (draftText schemaFile)) :
    pathOf directory <+: path := by
  rcases isOwn_iff.mp hown with hstore | hlist | hleads | hleads
  · exact hstore.eq_pathOf ▸ below_joinText isPlain_storeFile directory
  · exact hlist.eq_pathOf ▸ below_joinText isPlain_listFile directory
  · exact absurd hleads.eq_pathOf hschema
  · exact absurd hleads.eq_pathOf hdraft

/--
Of a directory that it has made a failed creation leaves nothing if it can remove it, and else the
empty directory; what it took for new may have been there.
-/
theorem node?_cleanUp_inside (hnamed : directory ≠ "")
    (hmade : files.createDirectories directory = .ok made) {path : Path}
    (hinside : pathOf directory <+: path) :
    (cleanUp (Creation.left (writeAll files directory schemaFile schema)) directory schemaFile
        false).node? path =
      if path = pathOf directory ∧ isRemovable directory = false then some .directory
      else none := by
  have hdiffers := differsAt_of_made schemaFile schema hmade
  have hopens := hdiffers.folders.opens_iff.mpr ⟨hnamed, (Files.createDirectories_eq_ok hmade).2⟩
  generalize Creation.left (writeAll files directory schemaFile schema) = left at hdiffers hopens ⊢
  rw [cleanUp, if_neg Bool.false_ne_true, Files.node?_removeDirectoryAt hopens]
  by_cases hself : path = pathOf directory
  · subst hself
    cases hremovable : isRemovable directory <;> simp [hopens.node?_eq]
  · simp [hinside, hself]

/-- What it writes outside of a directory that it has made a failed creation does not look after. -/
theorem node?_cleanUp_outside (hnamed : directory ≠ "")
    (hmade : files.createDirectories directory = .ok made) {path : Path}
    (houtside : ¬ pathOf directory <+: path) (hschema : path ≠ pathOf schemaFile)
    (hdraft : path ≠ pathOf (draftText schemaFile)) :
    (cleanUp (Creation.left (writeAll files directory schemaFile schema)) directory schemaFile
        false).node? path =
      (files.node? path).or
        (if path ∈ way (namesOf directory) then some .directory else none) := by
  have hdiffers := differsAt_of_made schemaFile schema hmade
  have hopens := hdiffers.folders.opens_iff.mpr ⟨hnamed, (Files.createDirectories_eq_ok hmade).2⟩
  rw [cleanUp, if_neg Bool.false_ne_true, Files.node?_removeDirectoryAt hopens,
    if_neg fun h => houtside h.1, hdiffers.others path, Files.node?_createDirectories hmade]
  exact fun hown => houtside (below_of_isOwn hown hschema hdraft)

end

/-- What a failed creation in a directory leaves of the files. -/
inductive Leaves (before after : Files) (directory schemaFile : String) : Prop where
  | existed (hexisted : before.existsAt directory = true)
      (hnodes : ∀ path, after.node? path =
        if (before.Leads (joinText directory listFile) path ∨
            before.Leads (draftText schemaFile) path) ∧ before.isFile path = true then none
        else before.node? path)
  | blocked (hnew : before.existsAt directory = false)
      (hblocked : ¬ ∃ made, before.createDirectories directory = .ok made)
      (hadds : before.OnlyAdds after (way (namesOf directory)))
      (hmissing : ¬ after.Reaches (namesOf directory))
  | made (hnamed : directory ≠ "") (hnew : before.existsAt directory = false)
      (hway : ∀ place ∈ way (namesOf directory), before.isFile place = false)
      (hinside : ∀ path, pathOf directory <+: path → after.node? path =
        if path = pathOf directory ∧ isRemovable directory = false then some .directory else none)
      (houtside : ∀ path, ¬ pathOf directory <+: path → path ≠ pathOf schemaFile →
        path ≠ pathOf (draftText schemaFile) → after.node? path = (before.node? path).or
          (if path ∈ way (namesOf directory) then some .directory else none))

/-- A failed creation leaves the disk as it is, or cleans up what its steps have left. -/
theorem create_eq_error {disk after : Disk} {options : IndexOptions} {schema : Schema}
    {fault : IndexError} (hcreate : create disk options schema = (after, .error fault)) :
    after = disk ∨ ∃ directory, options.path = some directory ∧
      disk.files.existsAt (options.schemaText directory) = false ∧
      disk.files.existsAt (joinText directory storeFile) = false ∧
      after = { disk with
        files := cleanUp
          (Creation.left (writeAll disk.files directory (options.schemaText directory) schema))
          directory (options.schemaText directory) (disk.files.existsAt directory) } := by
  unfold create at hcreate
  split at hcreate
  · exact .inl (Prod.mk.inj hcreate).1.symm
  · rename_i directory hdirectory
    dsimp only at hcreate
    split at hcreate
    · exact .inl (Prod.mk.inj hcreate).1.symm
    · rename_i hexists
      simp only [Bool.or_eq_true, not_or, Bool.not_eq_true] at hexists
      refine .inr ⟨directory, hdirectory, hexists.1, hexists.2, ?_⟩
      split at hcreate
      · rename_i files cause hwrite
        rw [hwrite]
        exact (Prod.mk.inj hcreate).1.symm
      · rename_i files hwrite
        rw [hwrite]
        split at hcreate
        · exact (Prod.mk.inj hcreate).1.symm
        · simp at hcreate

/-- Of a directory that was not there a failed creation leaves nothing but what `Leaves` says. -/
theorem leaves_of_new {files : Files} {directory : String} (schemaFile : String) (schema : Schema)
    (hnew : files.existsAt directory = false) (hnamed : directory ≠ "") :
    Leaves files (cleanUp (Creation.left (writeAll files directory schemaFile schema)) directory
      schemaFile false) directory schemaFile := by
  cases hmade : files.createDirectories directory with
  | error failure =>
      obtain ⟨left, fault⟩ := failure
      obtain ⟨hadds, hmissing⟩ := Files.createDirectories_eq_error hmade
      rw [left_of_not_made hmade, cleanUp, if_neg Bool.false_ne_true,
        Files.removeDirectoryAt_of_missing fun hopens => hmissing hopens.reaches]
      exact .blocked hnew (by simp [hmade]) hadds hmissing
  | ok made =>
      obtain ⟨hadds, hreaches⟩ := Files.createDirectories_eq_ok hmade
      refine .made hnamed hnew ?_ (fun path => node?_cleanUp_inside hnamed hmade)
        fun path => node?_cleanUp_outside hnamed hmade
      intro place hplace
      rw [← hadds.isFile_eq, Files.isFile, hreaches place hplace]

theorem leaves_of_create_error {disk after : Disk} {options : IndexOptions} {schema : Schema}
    {fault : IndexError} (hcreate : create disk options schema = (after, .error fault)) :
    after = disk ∨ after.locked = disk.locked ∧ ∃ directory, options.path = some directory ∧
      Leaves disk.files after.files directory (options.schemaText directory) := by
  rcases create_eq_error hcreate with rfl | ⟨directory, hpath, hschema, hstore, rfl⟩
  · exact .inl rfl
  · cases hexisted : disk.files.existsAt directory with
    | true =>
        exact .inr ⟨rfl, directory, hpath,
          .existed hexisted (node?_cleanUp_existed hexisted hschema hstore)⟩
    | false =>
        by_cases hnamed : directory = ""
        · left
          subst hnamed
          have hmissing : ¬ disk.files.Opens "" := fun hopens => hopens.named rfl
          rw [left_of_unnamed, cleanUp, if_neg Bool.false_ne_true,
            Files.removeDirectoryAt_of_missing hmissing]
        · exact .inr ⟨rfl, directory, hpath, leaves_of_new _ schema hexisted hnamed⟩

/-! Directories that are not missed -/

section

variable {files : Files} {directory : String}

/-- Nothing is where a text leads that names nothing, if all directories on the way to it stand. -/
theorem node?_of_not_existsAt (hnamed : directory ≠ "")
    (hway : files.Reaches (filledNames directory).dropLast)
    (hnew : files.existsAt directory = false)
    (hfile : files.isFile (pathOf directory) = false) : files.node? (pathOf directory) = none := by
  cases hnode : files.node? (pathOf directory) with
  | none => rfl
  | some node =>
      cases node with
      | file content => simp [Files.isFile, hnode] at hfile
      | directory =>
          have hreaches : files.Reaches (filledNames directory) := by
            rw [Files.reaches_iff, walk_filledNames]
            exact ⟨hway, hnode⟩
          have hopens : files.Opens directory := ⟨hnamed, Files.reaches_filledNames.mp hreaches⟩
          simp [hopens.existsAt] at hnew

/-- A text that leads to nothing from directories that stand ends in the name of what is missing. -/
theorem endsInName_of_new (hway : files.Reaches (filledNames directory).dropLast)
    (hnode : files.node? (pathOf directory) = none) : endsInName directory = true := by
  rw [← walk_filledNames] at hnode
  unfold endsInName
  rcases List.eq_nil_or_concat (filledNames directory) with hnil | ⟨before, name, hnames⟩
  · rw [hnil] at hnode
    contradiction
  · rw [List.concat_eq_append] at hnames
    rw [hnames, walk_concat] at hnode
    rw [hnames, List.dropLast_concat] at hway
    rw [hnames, List.getLast?_concat]
    split
    · contradiction
    · rename_i hhere
      obtain rfl := Option.some.inj hhere
      rw [enter_of_here "." (by decide), hway.directory] at hnode
      contradiction
    · rename_i hup
      obtain rfl := Option.some.inj hup
      have habove : (walk [] before).dropLast ∈ ancestors (walk [] before) :=
        mem_ancestors_iff.mpr (List.dropLast_prefix _)
      have henter : enter (walk [] before) ".." = (walk [] before).dropLast := rfl
      rw [henter, hway _ (mem_way_of_mem_ancestors habove)] at hnode
      contradiction
    · rfl

/-- A directory that is new in one that stands can be removed. -/
theorem isRemovable_of_new (htree : files.IsTree)
    (hway : files.Reaches (filledNames directory).dropLast)
    (hnode : files.node? (pathOf directory) = none) : isRemovable directory = true := by
  rw [isRemovable, Bool.and_eq_true, endsInName_of_new hway hnode, List.all_eq_true]
  refine ⟨rfl, fun place hplace => decide_eq_true fun hinner => ?_⟩
  rw [← mem_way_filledNames, mem_way_iff, walk_filledNames] at hplace
  rcases hplace with hbefore | hself
  · have hmissing := htree.node?_eq_none hnode hinner
    simp [hway place hbefore] at hmissing
  · exact hself

end

theorem below_draft {name : String} (hname : IsPlain name) (directory : String) :
    pathOf directory <+: pathOf (draftText (joinText directory name)) := by
  rw [draftText_joinText hname]
  exact below_joinText hname.draftText directory

/-- Nothing is left where all that was to be looked after could be. -/
theorem Leaves.nothing {before after : Files} {directory name : String}
    (hleaves : Leaves before after directory (joinText directory name)) (htree : before.IsTree)
    (hname : IsPlain name) (hway : before.Reaches (filledNames directory).dropLast)
    (hlist : before.isFile (listPath directory) = false)
    (hdraft : before.isFile (pathOf (draftText (joinText directory name))) = false)
    (path : Path) : after.node? path = before.node? path := by
  cases hleaves with
  | existed hexisted hnodes =>
      rw [hnodes, if_neg]
      rintro ⟨hleads | hleads, hfile⟩
      · rw [hleads.eq_pathOf] at hfile
        exact Bool.false_ne_true (hlist.symm.trans hfile)
      · rw [hleads.eq_pathOf] at hfile
        exact Bool.false_ne_true (hdraft.symm.trans hfile)
  | blocked hnew hblocked hadds hmissing =>
      rcases hadds path with hsame | ⟨hnone, hplace, hmade⟩
      · exact hsame
      · refine absurd (Files.reaches_filledNames.mp (Files.reaches_iff.mpr ⟨?_, ?_⟩)) hmissing
        · exact hadds.reaches hway
        · rw [← mem_way_filledNames, mem_way_iff] at hplace
          rcases hplace with hbefore | hself
          · simp [hway path hbefore] at hnone
          · rw [← hself, hmade]
  | made hnamed hnew hnofile hinside houtside =>
      have hnode := node?_of_not_existsAt hnamed hway hnew
        (hnofile _ (walk_mem_way (namesOf directory)))
      by_cases hbelow : pathOf directory <+: path
      · rw [hinside path hbelow, htree.node?_eq_none hnode hbelow,
          isRemovable_of_new htree hway hnode, if_neg (by simp)]
      · rw [houtside path hbelow]
        · split
          · rename_i hplace
            rw [← mem_way_filledNames, mem_way_iff, walk_filledNames] at hplace
            rcases hplace with hbefore | hself
            · rw [hway path hbefore, Option.some_or]
            · exact absurd (hself ▸ List.prefix_rfl) hbelow
          · exact Option.or_none
        · rintro rfl
          exact hbelow (below_joinText hname directory)
        · rintro rfl
          exact hbelow (below_draft hname directory)

/--
A creation that fails takes no directory for a writer. It leaves all files and directories as they
were, or else it names a directory. If the text of that led to something, a list of files and a
draft of the schema in it are gone, and nothing else has changed. If it led to nothing, and the
directory cannot be made, directories on the way to it may be new. If it can be made, those on the
way to it stay, and of itself no more than an empty directory: all that was in it is gone,
which was something if the text led to nothing only for want of a directory on the way; nothing else
has changed, except where the schema file belongs if it lies outside. So all is as it was where the
directories on the way stood, the schema file lies in the directory, and neither a list nor a draft
was there.
-/
theorem failed_creation_leaves {disk after : Disk} {options : IndexOptions} {text : String}
    {fault : IndexError} (htree : disk.files.IsTree)
    (hcreate : createFromText disk options text = (after, .error fault)) :
    after.locked = disk.locked ∧
    (after.files = disk.files ∨
      ∃ directory, options.path = some directory ∧
        Leaves disk.files after.files directory (options.schemaText directory)) ∧
    ∀ directory, options.path = some directory → IsPlain options.settings.schemaFile →
      disk.files.Reaches (filledNames directory).dropLast →
      disk.files.isFile (listPath directory) = false →
      disk.files.isFile (pathOf (draftText (options.schemaText directory))) = false →
        ∀ path, after.files.node? path = disk.files.node? path := by
  unfold createFromText at hcreate
  split at hcreate
  · obtain rfl := (Prod.mk.inj hcreate).1
    exact ⟨rfl, .inl rfl, fun _ _ _ _ _ _ _ => rfl⟩
  · rcases leaves_of_create_error hcreate with rfl | ⟨hlocked, other, hother, hleaves⟩
    · exact ⟨rfl, .inl rfl, fun _ _ _ _ _ _ _ => rfl⟩
    · refine ⟨hlocked, .inr ⟨other, hother, hleaves⟩, ?_⟩
      intro directory hpath hplain hway hlist hdraft path
      obtain rfl := Option.some.inj (hpath.symm.trans hother)
      exact hleaves.nothing htree hplain hway hlist hdraft path

/-- A directory in which novels were noted down, and a draft that is nobody's. -/
def shelfDisk : Disk where
  files := ⟨[(["shelf"], .directory), (["shelf", "novels"], .file (.text "Emma")),
    (["shelf", "_schema.json.tmp"], .file (.text "Dracula"))]⟩

/-- A budget that no writer can do with. -/
def shelfOptions : IndexOptions where
  path := some "shelf"
  budget := some 1000

theorem isTree_shelfDisk : shelfDisk.files.IsTree :=
  Files.isTree_of_nodes (by decide)

theorem shelf_left : ∃ after,
    createFromText shelfDisk shelfOptions talesText =
      (after, .error (.engine .budgetTooSmall)) ∧
    after.locked = [] ∧
    after.files.node? ["shelf", "novels"] = some (.file (.text "Emma")) ∧
    after.files.node? ["shelf", "_schema.json.tmp"] = none := by
  obtain ⟨after, hcreate, hgone⟩ : ∃ after, createFromText shelfDisk shelfOptions talesText =
      (after, .error (.engine .budgetTooSmall)) ∧
      after.files.node? ["shelf", "_schema.json.tmp"] = none :=
    ⟨_, createFromText_eq ofText_talesText, by decide⟩
  obtain ⟨hlocked, hleaves, -⟩ := failed_creation_leaves isTree_shelfDisk hcreate
  refine ⟨after, hcreate, hlocked, ?_, hgone⟩
  rcases hleaves with hsame | ⟨directory, hpath, hleaves⟩
  · rw [hsame]
    rfl
  · obtain rfl := Option.some.inj hpath
    have hthere : shelfDisk.files.existsAt "shelf" = true := by decide
    cases hleaves with
    | existed _ hnodes => exact (hnodes _).trans (by decide)
    | blocked hnew => exact absurd (hthere.symm.trans hnew) (by decide)
    | made _ hnew => exact absurd (hthere.symm.trans hnew) (by decide)

/-- The directory to be made is in one that has to be made too. -/
def parentOptions : IndexOptions where
  path := some "stories/tales"
  budget := some 1000

/-- A file that has the name of a list of files, but is none. -/
def notesDisk : Disk where
  files := ⟨[(["tales"], .directory), (["tales", ".managed.json"], .file (.text "Emma"))]⟩

/-- The way to the shelf leads through a directory that has to be made first. -/
def detourOptions : IndexOptions where
  path := some "stories/../shelf"
  budget := some 1000

/--
A failed creation does leave traces: a directory that nobody made is there, a list of files is gone
that was no list of this index, and a directory is gone that had stood all along.
-/
theorem failed_creation_leaves_traces :
    (¬ ∀ (disk after : Disk) (options : IndexOptions) (text : String) (fault : IndexError),
      disk.files.IsTree → createFromText disk options text = (after, .error fault) →
        ∀ path, disk.files.node? path = none → after.files.node? path = none) ∧
    (¬ ∀ (disk after : Disk) (options : IndexOptions) (text : String) (fault : IndexError),
      disk.files.IsTree → createFromText disk options text = (after, .error fault) →
        ∀ path node, disk.files.node? path = some node → after.files.node? path = some node) ∧
    ¬ ∀ (disk after : Disk) (options : IndexOptions) (text : String) (fault : IndexError),
      disk.files.IsTree → createFromText disk options text = (after, .error fault) →
        ∀ path, disk.files.node? path = some .directory →
          after.files.node? path = some .directory := by
  refine ⟨?_, ?_, ?_⟩
  · intro hnothing
    obtain ⟨after, hcreate, hmade⟩ : ∃ after, createFromText {} parentOptions talesText =
        (after, .error (.engine .budgetTooSmall)) ∧
        after.files.node? ["stories"] = some .directory :=
      ⟨_, createFromText_eq ofText_talesText, by decide⟩
    have htree : ({} : Files).IsTree := Files.isTree_of_nodes (by decide)
    have hstories := hnothing {} after _ _ _ htree hcreate ["stories"] rfl
    simp [hmade] at hstories
  · intro hkept
    obtain ⟨after, hcreate, hgone⟩ : ∃ after,
        createFromText notesDisk { path := some "tales" } talesText =
          (after, .error (.engine .unreadable)) ∧
        after.files.node? ["tales", ".managed.json"] = none :=
      ⟨_, createFromText_eq ofText_talesText, by decide⟩
    have htree : notesDisk.files.IsTree := Files.isTree_of_nodes (by decide)
    have hnotes := hkept notesDisk after _ _ _ htree hcreate ["tales", ".managed.json"] _ rfl
    simp [hgone] at hnotes
  · intro hkept
    obtain ⟨after, hcreate, hgone⟩ : ∃ after, createFromText shelfDisk detourOptions talesText =
        (after, .error (.engine .budgetTooSmall)) ∧ after.files.node? ["shelf"] = none :=
      ⟨_, createFromText_eq ofText_talesText, by decide⟩
    have hshelf := hkept shelfDisk after _ _ _ isTree_shelfDisk hcreate ["shelf"] rfl
    simp [hgone] at hshelf

end Index

end DocIndex
