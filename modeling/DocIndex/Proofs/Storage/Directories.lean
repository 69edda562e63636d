import DocIndex.Proofs.Storage.Places

/-!
Making and removing directories. Making the directory of a text adds directories on the way of the
text and does nothing else, whether it comes to its end or not. Removing it takes away all that is
in it; the directory itself stays if the text does not end in its name, or if the way of the text
was among what has gone.
-/

namespace DocIndex.Storage

namespace Files

variable {files after last : Files} {names : List String} {text : String}

/-! Making directories -/

/-- All that is new is directories at some paths. -/
def OnlyAdds (files after : Files) (places : List Path) : Prop :=
  ∀ path, after.node? path = files.node? path ∨
    files.node? path = none ∧ path ∈ places ∧ after.node? path = some .directory

theorem onlyAdds_refl (files : Files) (places : List Path) : files.OnlyAdds files places :=
  fun _ => .inl rfl

theorem OnlyAdds.mono {places others : List Path} (hadds : files.OnlyAdds after places)
    (hplaces : ∀ place ∈ places, place ∈ others) : files.OnlyAdds after others := by
  intro path
  rcases hadds path with hsame | ⟨hnone, hplace, hmade⟩
  · exact .inl hsame
  · exact .inr ⟨hnone, hplaces path hplace, hmade⟩

theorem OnlyAdds.trans {places : List Path} (hfirst : files.OnlyAdds after places)
    (hsecond : after.OnlyAdds last places) : files.OnlyAdds last places := by
  intro path
  rcases hsecond path with hsame | ⟨hnone, hplace, hmade⟩
  · rw [hsame]
    exact hfirst path
  · rcases hfirst path with hbefore | ⟨-, -, hdirectory⟩
    · exact .inr ⟨hbefore.symm.trans hnone, hplace, hmade⟩
    · simp [hdirectory] at hnone

theorem OnlyAdds.node?_eq {places : List Path} (hadds : files.OnlyAdds after places) {path : Path}
    {node : Node} (hnode : files.node? path = some node) : after.node? path = some node := by
  rcases hadds path with hsame | ⟨hnone, -, -⟩
  · exact hsame.trans hnode
  · simp [hnone] at hnode

theorem OnlyAdds.reaches {places : List Path} (hadds : files.OnlyAdds after places)
    (hreaches : files.Reaches names) : after.Reaches names :=
  hreaches.mono fun _ => hadds.node?_eq

theorem OnlyAdds.isFile_eq {places : List Path} (hadds : files.OnlyAdds after places)
    (path : Path) : after.isFile path = files.isFile path := by
  rcases hadds path with hsame | ⟨hnone, -, hmade⟩
  · rw [isFile, isFile, hsame]
  · rw [isFile, isFile, hnone, hmade]

theorem hasDirectory_iff : files.hasDirectory names = true ↔ files.Reaches names := by
  unfold hasDirectory
  cases hfollow : files.follow [] names with
  | error fault =>
      simp only [Bool.false_eq_true, false_iff]
      intro hreaches
      rw [follow_eq_ok_iff.mpr ⟨hreaches.dropLast, rfl⟩] at hfollow
      contradiction
  | ok place =>
      obtain ⟨hway, rfl⟩ := follow_eq_ok_iff.mp hfollow
      rw [reaches_iff, and_iff_right hway, decide_eq_true_eq]

theorem makeDirectory_eq_ok_iff : files.makeDirectory names = .ok after ↔
    files.Reaches names.dropLast ∧ files.node? (walk [] names) = none ∧
      after = files.put (walk [] names) .directory := by
  unfold makeDirectory
  cases hfollow : files.follow [] names with
  | error fault =>
      simp only [reduceCtorEq, false_iff]
      rintro ⟨hway, -⟩
      rw [follow_eq_ok_iff.mpr ⟨hway, rfl⟩] at hfollow
      contradiction
  | ok place =>
      obtain ⟨hway, rfl⟩ := follow_eq_ok_iff.mp hfollow
      cases hnode : files.node? (walk [] names) <;> simp [hasNode, hnode, hway, eq_comm]

/-- A directory that is made is all that is new, and all names lead to it. -/
theorem onlyAdds_makeDirectory (hmake : files.makeDirectory names = .ok after) :
    files.OnlyAdds after [walk [] names] ∧ after.Reaches names := by
  obtain ⟨hway, hnone, rfl⟩ := makeDirectory_eq_ok_iff.mp hmake
  have hne : walk [] names ≠ [] := by
    intro hnil
    rw [hnil] at hnone
    contradiction
  have hadds : files.OnlyAdds (files.put (walk [] names) .directory) [walk [] names] := by
    intro path
    rw [node?_put hne]
    split
    · rename_i hpath
      rw [hpath]
      exact .inr ⟨hnone, List.mem_singleton_self _, rfl⟩
    · exact .inl rfl
  refine ⟨hadds, reaches_iff.mpr ⟨hadds.reaches hway, ?_⟩⟩
  rw [node?_put hne, if_pos rfl]

theorem ensureDirectory_eq_ok (hensure : files.ensureDirectory names = .ok after) :
    files.OnlyAdds after [walk [] names] ∧ after.Reaches names := by
  unfold ensureDirectory at hensure
  split at hensure
  · rename_i made hmake
    obtain rfl := Except.ok.inj hensure
    exact onlyAdds_makeDirectory hmake
  · split at hensure
    · rename_i hdirectory
      obtain rfl := Except.ok.inj hensure
      exact ⟨onlyAdds_refl _ _, hasDirectory_iff.mp hdirectory⟩
    · contradiction

theorem ensureDirectory_eq_error {fault : IoFault}
    (hensure : files.ensureDirectory names = .error (after, fault)) :
    after = files ∧ ¬ files.Reaches names := by
  unfold ensureDirectory at hensure
  split at hensure
  · contradiction
  · split at hensure
    · contradiction
    · rename_i hdirectory
      obtain ⟨rfl, -⟩ := Prod.mk.inj (Except.error.inj hensure)
      exact ⟨rfl, mt hasDirectory_iff.mpr hdirectory⟩

/-- A directory is there or can be made where the way to it stands and no file is in its place. -/
theorem exists_ensureDirectory (hway : files.Reaches names.dropLast)
    (hfile : files.isFile (walk [] names) = false) :
    ∃ after, files.ensureDirectory names = .ok after := by
  cases hensure : files.ensureDirectory names with
  | ok after => exact ⟨after, rfl⟩
  | error left =>
      obtain ⟨-, hmissing⟩ := ensureDirectory_eq_error hensure
      rw [reaches_iff, and_iff_right hway] at hmissing
      have hnone : files.node? (walk [] names) = none := by
        cases hnode : files.node? (walk [] names) with
        | none => rfl
        | some node => cases node <;> simp_all [isFile]
      rw [ensureDirectory, makeDirectory_eq_ok_iff.mpr ⟨hway, hnone, rfl⟩] at hensure
      contradiction

/-- One directory after the other is made, each on a way of its own. -/
theorem foldlM_ensureDirectory_eq_ok {ways : List (List String)}
    (hfold : ways.foldlM ensureDirectory files = .ok after) :
    files.OnlyAdds after (ways.map (walk [])) ∧ ∀ names ∈ ways, after.Reaches names := by
  induction ways generalizing files with
  | nil =>
      obtain rfl := Except.ok.inj hfold
      exact ⟨onlyAdds_refl _ _, nofun⟩
  | cons names rest ih =>
      rw [List.foldlM_cons] at hfold
      cases hmade : files.ensureDirectory names with
      | error left =>
          rw [hmade] at hfold
          contradiction
      | ok made =>
          rw [hmade] at hfold
          obtain ⟨hadds, hreaches⟩ := ensureDirectory_eq_ok hmade
          obtain ⟨hothers, hall⟩ := ih hfold
          refine ⟨(hadds.mono (by simp)).trans (hothers.mono fun _ => List.mem_cons_of_mem _), ?_⟩
          intro other hother
          rcases List.mem_cons.mp hother with rfl | hother
          · exact hothers.reaches hreaches
          · exact hall other hother

theorem foldlM_ensureDirectory_eq_error {ways : List (List String)} {fault : IoFault}
    (hfold : ways.foldlM ensureDirectory files = .error (after, fault)) :
    files.OnlyAdds after (ways.map (walk [])) ∧ ∃ names ∈ ways, ¬ after.Reaches names := by
  induction ways generalizing files with
  | nil => contradiction
  | cons names rest ih =>
      rw [List.foldlM_cons] at hfold
      cases hmade : files.ensureDirectory names with
      | error left =>
          rw [hmade] at hfold
          obtain rfl := Except.error.inj hfold
          obtain ⟨rfl, hmissing⟩ := ensureDirectory_eq_error hmade
          exact ⟨onlyAdds_refl _ _, names, List.mem_cons_self, hmissing⟩
      | ok made =>
          rw [hmade] at hfold
          obtain ⟨hadds, -⟩ := ensureDirectory_eq_ok hmade
          obtain ⟨hothers, other, hother, hmissing⟩ := ih hfold
          exact ⟨(hadds.mono (by simp)).trans (hothers.mono fun _ => List.mem_cons_of_mem _),
            other, List.mem_cons_of_mem _ hother, hmissing⟩

/-- The directories above the last one are on the way of the names. -/
theorem prefix_of_mem_leading {before : List String} (hbefore : before ∈ leading names) :
    before <+: names.filter (· ≠ ".") := by
  obtain ⟨n, -, rfl⟩ := List.mem_map.mp hbefore
  exact List.take_prefix _ _

theorem walk_mem_way_of_mem_leading {before : List String}
    (hbefore : before ∈ leading names ++ [names]) : walk [] before ∈ way names := by
  rcases List.mem_append.mp hbefore with hleading | hself
  · exact (mem_way_filter enter_of_here).mp
      (mem_way_of_front (prefix_of_mem_leading hleading) (walk_mem_way before))
  · rw [List.mem_singleton.mp hself]
    exact walk_mem_way names

/-- Once the directory of a text has been made the text leads to it. -/
theorem createDirectories_eq_ok (hcreate : files.createDirectories text = .ok after) :
    files.OnlyAdds after (way (namesOf text)) ∧ after.Reaches (namesOf text) := by
  unfold createDirectories at hcreate
  split at hcreate
  · rename_i hempty
    obtain rfl := Except.ok.inj hcreate
    refine ⟨onlyAdds_refl _ _, reaches_filledNames.mp ?_⟩
    rw [hempty]
    exact reaches_nil
  · dsimp only at hcreate
    split at hcreate
    · obtain ⟨hadds, hall⟩ := foldlM_ensureDirectory_eq_ok hcreate
      refine ⟨hadds.mono ?_, reaches_filledNames.mp (hall _ (by simp))⟩
      intro place hplace
      obtain ⟨before, hbefore, rfl⟩ := List.mem_map.mp hplace
      exact mem_way_filledNames.mp (walk_mem_way_of_mem_leading hbefore)
    · obtain ⟨hadds, hreaches⟩ := ensureDirectory_eq_ok hcreate
      refine ⟨hadds.mono ?_, reaches_filledNames.mp hreaches⟩
      intro place hplace
      rw [List.mem_singleton.mp hplace]
      exact mem_way_filledNames.mp (walk_mem_way _)

/-- If the directory of a text cannot be made, the text leads to none. -/
theorem createDirectories_eq_error {fault : IoFault}
    (hcreate : files.createDirectories text = .error (after, fault)) :
    files.OnlyAdds after (way (namesOf text)) ∧ ¬ after.Reaches (namesOf text) := by
  unfold createDirectories at hcreate
  split at hcreate
  · contradiction
  · dsimp only at hcreate
    split at hcreate
    · obtain ⟨hadds, before, hbefore, hmissing⟩ := foldlM_ensureDirectory_eq_error hcreate
      refine ⟨hadds.mono ?_, mt (fun hreaches => ?_) hmissing⟩
      · intro place hplace
        obtain ⟨other, hother, rfl⟩ := List.mem_map.mp hplace
        exact mem_way_filledNames.mp (walk_mem_way_of_mem_leading hother)
      · rw [← reaches_filledNames] at hreaches
        rcases List.mem_append.mp hbefore with hleading | hself
        · exact ((reaches_filter enter_of_here).mpr hreaches).of_front
            (prefix_of_mem_leading hleading)
        · rwa [List.mem_singleton.mp hself]
    · obtain ⟨rfl, hmissing⟩ := ensureDirectory_eq_error hcreate
      exact ⟨onlyAdds_refl _ _, mt reaches_filledNames.mpr hmissing⟩

/-- Making the directory of a text changes nothing but that the directories on its way stand. -/
theorem node?_createDirectories (hcreate : files.createDirectories text = .ok after)
    (path : Path) : after.node? path =
      (files.node? path).or (if path ∈ way (namesOf text) then some .directory else none) := by
  obtain ⟨hadds, hreaches⟩ := createDirectories_eq_ok hcreate
  rcases hadds path with hsame | ⟨hnone, hplace, hmade⟩
  · by_cases hplace : path ∈ way (namesOf text)
    · have hdirectory := hreaches path hplace
      rw [← hsame, hdirectory, Option.some_or]
    · rw [hsame, if_neg hplace, Option.or_none]
  · rw [hnone, if_pos hplace, hmade, Option.none_or]

/-- Where there is a directory already none is made. -/
theorem createDirectories_of_reaches (hreaches : files.Reaches (namesOf text)) :
    files.createDirectories text = .ok files := by
  have hthere : files.ensureDirectory (filledNames text) = .ok files := by
    have hdirectory := hasDirectory_iff.mpr (reaches_filledNames.mpr hreaches)
    unfold ensureDirectory
    split
    · rename_i made hmake
      obtain ⟨-, hnone, -⟩ := makeDirectory_eq_ok_iff.mp hmake
      simp [(reaches_filledNames.mpr hreaches).directory] at hnone
    · rw [if_pos hdirectory]
  unfold createDirectories
  split
  · rfl
  · dsimp only
    split
    · rename_i hmake
      have hfollow : files.follow [] (filledNames text) = .ok _ :=
        follow_eq_ok_iff.mpr ⟨(reaches_filledNames.mpr hreaches).dropLast, rfl⟩
      rw [makeDirectory, hfollow] at hmake
      dsimp only at hmake
      split at hmake <;> contradiction
    · exact hthere

/-- The directories above the last one can all be made where no file is on the way. -/
theorem exists_foldlM_ensureDirectory
    (hfiles : ∀ place ∈ way names, files.isFile place = false) (count : Nat) :
    ∃ after, ((List.range count).map fun n => names.take (n + 1)).foldlM ensureDirectory files =
        .ok after ∧ after.Reaches (names.take count) := by
  induction count with
  | zero => exact ⟨files, rfl, reaches_nil⟩
  | succ count ih =>
      obtain ⟨made, hmade, hreaches⟩ := ih
      obtain ⟨hadds, -⟩ := foldlM_ensureDirectory_eq_ok hmade
      have hway : made.Reaches (names.take (count + 1)).dropLast := by
        refine hreaches.of_front (List.prefix_take_iff.mpr ⟨?_, ?_⟩)
        · exact (List.dropLast_prefix _).trans (List.take_prefix _ _)
        · rw [List.length_dropLast, List.length_take]
          omega
      have hfile : made.isFile (walk [] (names.take (count + 1))) = false := by
        rw [hadds.isFile_eq]
        exact hfiles _ (mem_way_of_front (List.take_prefix _ _) (walk_mem_way _))
      obtain ⟨after, hafter⟩ := exists_ensureDirectory hway hfile
      refine ⟨after, ?_, (ensureDirectory_eq_ok hafter).2⟩
      rw [List.range_succ, List.map_append, List.foldlM_append, hmade]
      simp only [bind, Except.bind, List.map_singleton, List.foldlM_cons, List.foldlM_nil, hafter]
      rfl

theorem reaches_dropLast_of_filter (hreaches : files.Reaches (names.filter (· ≠ ".")).dropLast)
    (hhere : names.getLast? = some "." → files.node? (walk [] names) = some .directory) :
    files.Reaches names.dropLast := by
  induction names using List.reverseRecOn with
  | nil => exact reaches_nil
  | append_singleton before name =>
      rw [List.dropLast_concat, ← reaches_filter enter_of_here]
      rw [List.filter_append] at hreaches
      by_cases hname : name = "."
      · subst hname
        rw [List.getLast?_concat, walk_concat, enter_of_here "." (by decide)] at hhere
        rw [reaches_iff, walk_filter enter_of_here]
        exact ⟨by simpa using hreaches, hhere rfl⟩
      · have hlast : [name].filter (· ≠ ".") = [name] := by simp [hname]
        rwa [hlast, List.dropLast_concat] at hreaches

/--
The directory of a text can be made where no file is on the way. Only if the text ends in the name
that a directory has for itself it has to be there before: no name is left to make it by.
-/
theorem exists_createDirectories (hfiles : ∀ place ∈ way (namesOf text), files.isFile place = false)
    (hhere : (filledNames text).getLast? = some "." →
      files.node? (pathOf text) = some .directory) :
    ∃ after, files.createDirectories text = .ok after := by
  have hway : ∀ place ∈ way (filledNames text), files.isFile place = false :=
    fun place hplace => hfiles place (mem_way_filledNames.mp hplace)
  unfold createDirectories
  split
  · exact ⟨files, rfl⟩
  · generalize hnames : filledNames text = names at *
    dsimp only
    split
    · -- The directories above are made first, by all names but those of a directory for itself.
      have habove : ∀ place ∈ way (names.filter (· ≠ ".")), files.isFile place = false :=
        fun place hplace => hway place ((mem_way_filter enter_of_here).mp hplace)
      obtain ⟨made, hmade, hreaches⟩ :=
        exists_foldlM_ensureDirectory habove ((names.filter (· ≠ ".")).length - 1)
      obtain ⟨hadds, -⟩ := foldlM_ensureDirectory_eq_ok hmade
      rw [← List.dropLast_eq_take] at hreaches
      have hlast : made.Reaches names.dropLast := by
        refine reaches_dropLast_of_filter hreaches fun hdot => hadds.node?_eq ?_
        rw [← hhere hdot, ← hnames, walk_filledNames]
      obtain ⟨after, hafter⟩ := exists_ensureDirectory hlast
        ((hadds.isFile_eq _).trans (hway _ (walk_mem_way names)))
      refine ⟨after, ?_⟩
      rw [List.foldlM_append, leading, hmade]
      simp only [bind, Except.bind, List.foldlM_cons, List.foldlM_nil, hafter]
      rfl
    · rename_i hmake
      refine exists_ensureDirectory ?_ (hway _ (walk_mem_way names))
      rcases follow_of_no_file hway with hfollow | hfollow
      · exact (follow_eq_ok_iff.mp hfollow).1
      · exact absurd (by rw [makeDirectory, hfollow]) hmake

end Files

/-! Removing directories -/

/--
Tells whether a directory goes with what is in it: the text ends in its name, and the way of the
text does not lead through what is in it.
-/
def isRemovable (text : String) : Bool :=
  endsInName text &&
    (way (namesOf text)).all fun place => decide (pathOf text <+: place → place = pathOf text)

/-- The top cannot be the last name of a text. -/
theorem pathOf_ne_nil_of_endsInName {text : String} (hends : endsInName text = true) :
    pathOf text ≠ [] := by
  unfold endsInName at hends
  split at hends
  · contradiction
  · contradiction
  · contradiction
  · rename_i name hhere hup hlast
    obtain ⟨before, hbefore⟩ := List.getLast?_eq_some_iff.mp hlast
    have hfilled : name ≠ "" := by
      have hmem : name ∈ filledNames text := by simp [hbefore]
      simpa using (List.mem_filter.mp hmem).2
    rw [← walk_filledNames, hbefore, walk_concat, enter, if_neg (not_or.mpr ⟨hfilled, hhere⟩),
      if_neg hup]
    exact List.concat_ne_nil _ _

namespace Files

variable {files : Files} {names : List String} {text : String}

theorem removeDirectoryAt_of_missing (hmissing : ¬ files.Opens text) :
    files.removeDirectoryAt text = files := by
  unfold removeDirectoryAt
  split
  · rfl
  · rename_i path hresolve
    split
    · rename_i hdirectory
      obtain ⟨hnamed, hway, rfl⟩ := resolve_eq_ok_iff.mp hresolve
      exact absurd ⟨hnamed, reaches_iff.mpr ⟨hway, hdirectory⟩⟩ hmissing
    · rfl

theorem reaches_empty {path : Path} (hreaches : files.Reaches names) :
    (files.empty path).Reaches names ↔ ∀ place ∈ way names, path <+: place → place = path := by
  refine forall₂_congr fun place hplace => ?_
  rw [node?_empty, hreaches place hplace]
  by_cases hinner : path <+: place <;> simp [hinner]

/-- The text still leads to its directory when that is empty, but not through what was in it. -/
theorem isOk_resolve_empty (hopens : files.Opens text) :
    ((files.empty (pathOf text)).resolve text).isOk = true ↔
      ∀ place ∈ way (namesOf text), pathOf text <+: place → place = pathOf text := by
  have hway : ((files.empty (pathOf text)).resolve text).isOk = true ↔
      (files.empty (pathOf text)).Reaches (namesOf text).dropLast := by
    constructor
    · intro hok
      cases hresolve : (files.empty (pathOf text)).resolve text with
      | ok place => exact (resolve_eq_ok_iff.mp hresolve).2.1
      | error fault => simp [hresolve, Except.isOk, Except.toBool] at hok
    · intro hway
      rw [resolve_eq_ok_iff.mpr ⟨hopens.named, hway, rfl⟩]
      rfl
  rw [hway, reaches_empty hopens.reaches.dropLast]
  refine forall_congr' fun place => ?_
  rw [mem_way_iff (namesOf text), or_imp]
  exact (and_iff_left fun hself _ => hself).symm

/-- Removing the directory of a text takes away what is in it, and itself if it can be removed. -/
theorem node?_removeDirectoryAt (hopens : files.Opens text) (other : Path) :
    (files.removeDirectoryAt text).node? other =
      if pathOf text <+: other ∧ (other ≠ pathOf text ∨ isRemovable text = true) then none
      else files.node? other := by
  have hremovable :
      (endsInName text && ((files.empty (pathOf text)).resolve text).isOk) = isRemovable text := by
    rw [Bool.eq_iff_iff, isRemovable, Bool.and_eq_true, Bool.and_eq_true,
      isOk_resolve_empty hopens, List.all_eq_true]
    simp only [decide_eq_true_eq]
  have hremove : files.removeDirectoryAt text =
      if isRemovable text then
        ⟨(files.empty (pathOf text)).nodes.filter fun entry => entry.1 ≠ pathOf text⟩
      else files.empty (pathOf text) := by
    rw [← hremovable]
    simp only [removeDirectoryAt, resolve_eq_ok_iff.mpr hopens.leads, hopens.node?_eq, if_true]
  rw [hremove]
  by_cases hgoes : isRemovable text = true
  · have hne := pathOf_ne_nil_of_endsInName (Bool.and_eq_true_iff.mp hgoes).1
    rw [if_pos hgoes]
    by_cases hother : other = []
    · subst hother
      rw [if_neg fun h => hne (List.prefix_nil.mp h.1)]
      rfl
    · rw [node?_of_ne_nil hother, lookup_filter_ne, ← node?_of_ne_nil hother, node?_empty]
      by_cases hself : other = pathOf text
      · simp [hself, hgoes]
      · simp [hself]
  · rw [if_neg hgoes, node?_empty]
    simp only [hgoes, Bool.false_eq_true, or_false]

end Files

end DocIndex.Storage
