import DocIndex.Proofs.Lookup
import DocIndex.Storage.Files

/-!
What the operations on files do to what stands at each path. Writing and renaming files never
touches a directory, and a directory whose ancestors are all directories can be written in.
-/

namespace DocIndex.Storage

/-! Paths -/

theorem namesFrom_append_slash (name before after : List Char) :
    namesFrom name (before ++ '/' :: after) = namesFrom name before ++ namesFrom [] after := by
  induction before generalizing name with
  | nil => simp [namesFrom]
  | cons ch rest ih =>
      rw [List.cons_append, namesFrom, namesFrom]
      split
      · rw [ih, List.cons_append]
      · exact ih _

theorem namesFrom_of_no_slash {name chars : List Char} (hchars : '/' ∉ chars) :
    namesFrom name chars = [String.ofList (name.reverse ++ chars)] := by
  induction chars generalizing name with
  | nil => simp [namesFrom]
  | cons ch rest ih =>
      rw [List.mem_cons, not_or] at hchars
      rw [namesFrom, if_neg (Ne.symm hchars.1), ih hchars.2]
      simp

theorem walk_append (path : Path) (names others : List String) :
    walk path (names ++ others) = walk (walk path names) others :=
  List.foldl_append

theorem walk_concat (path : Path) (names : List String) (name : String) :
    walk path (names ++ [name]) = enter (walk path names) name :=
  walk_append path names [name]

/-- A name that stands for an entry of a directory. -/
structure IsPlain (name : String) : Prop where
  no_slash : '/' ∉ name.toList
  nonempty : name ≠ ""
  ne_here : name ≠ "."
  ne_up : name ≠ ".."

theorem enter_of_isPlain {name : String} (hname : IsPlain name) (path : Path) :
    enter path name = path ++ [name] := by
  simp [enter, hname.nonempty, hname.ne_here, hname.ne_up]

theorem namesOf_of_isPlain {name : String} (hname : IsPlain name) : namesOf name = [name] := by
  rw [namesOf, namesFrom_of_no_slash hname.no_slash]
  simp

/-- The names of an entry of a directory: those of the directory, and its own. -/
theorem namesOf_joinText {name : String} (hname : IsPlain name) {directory : String}
    (hdirectory : directory ≠ "") :
    (namesOf (joinText directory name) = namesOf directory ++ [name]) ∨
      ∃ names, namesOf directory = names ++ [""] ∧
        namesOf (joinText directory name) = names ++ [name] := by
  have hhead : name.toList.head? ≠ some '/' := by
    intro hhead
    exact hname.no_slash (List.mem_of_mem_head? hhead)
  have hnames : namesFrom [] name.toList = [name] := namesOf_of_isPlain hname
  rw [joinText, if_neg (not_or.mpr ⟨hhead, hdirectory⟩)]
  split
  · rename_i hslash
    obtain ⟨before, hbefore⟩ := List.getLast?_eq_some_iff.mp hslash
    refine .inr ⟨namesFrom [] before, ?_, ?_⟩
    · rw [namesOf, hbefore, namesFrom_append_slash]
      rfl
    · rw [namesOf, String.toList_append, hbefore, List.append_assoc, List.singleton_append,
        namesFrom_append_slash, hnames]
  · left
    have htext : (s!"{directory}/{name}").toList = directory.toList ++ '/' :: name.toList := by
      simp [toString]
    rw [namesOf, htext, namesFrom_append_slash, hnames, namesOf]

theorem joinText_empty (name : String) : joinText "" name = name := by
  simp [joinText]

/-- A plain name goes on from a directory by one step. -/
theorem pathOf_joinText {name : String} (hname : IsPlain name) (directory : String) :
    pathOf (joinText directory name) = pathOf directory ++ [name] := by
  by_cases hdirectory : directory = ""
  · rw [hdirectory, joinText_empty, pathOf, namesOf_of_isPlain hname]
    exact enter_of_isPlain hname []
  · rw [pathOf, pathOf]
    rcases namesOf_joinText hname hdirectory with hnames | ⟨names, hslashed, hnames⟩
    · rw [hnames, walk_concat, enter_of_isPlain hname]
    · rw [hnames, hslashed, walk_concat, walk_concat, enter_of_isPlain hname]
      rfl

theorem mem_ancestors_iff {path ancestor : Path} :
    ancestor ∈ ancestors path ↔ ancestor <+: path := by
  rw [ancestors, List.mem_map]
  constructor
  · rintro ⟨n, -, rfl⟩
    exact List.take_prefix n path
  · intro hinner
    refine ⟨ancestor.length, ?_, (List.prefix_iff_eq_take.mp hinner).symm⟩
    rw [List.mem_range]
    exact Nat.lt_succ_of_le hinner.length_le

theorem self_mem_ancestors (path : Path) : path ∈ ancestors path :=
  mem_ancestors_iff.mpr List.prefix_rfl

/-- What is on the way to a path stands at the path or on the way to its parent. -/
theorem mem_ancestors_dropLast {path ancestor : Path} (hancestor : ancestor ∈ ancestors path)
    (hne : ancestor ≠ path) : ancestor ∈ ancestors path.dropLast := by
  rw [mem_ancestors_iff] at hancestor ⊢
  obtain ⟨rest, rfl⟩ := hancestor
  rcases List.eq_nil_or_concat rest with rfl | ⟨names, name, rfl⟩
  · exact absurd (List.append_nil ancestor).symm hne
  · rw [List.concat_eq_append, ← List.append_assoc, List.dropLast_concat]
    exact List.prefix_append ancestor names

/-- What is below a path is not on the way to its parent. -/
theorem notMem_ancestors_dropLast {path other : Path} (hpath : path ≠ [])
    (hinner : path <+: other) : other ∉ ancestors path.dropLast := by
  intro hancestor
  have hlength := (mem_ancestors_iff.mp hancestor).length_le
  have hpositive := List.length_pos_iff.mpr hpath
  have hle := hinner.length_le
  rw [List.length_dropLast] at hlength
  omega

namespace Files

/-! Nodes -/

theorem node?_of_ne_nil {path : Path} (hpath : path ≠ []) (files : Files) :
    files.node? path = files.nodes.lookup path := by
  cases path with
  | nil => exact absurd rfl hpath
  | cons name rest => rfl

theorem node?_put {path : Path} (hpath : path ≠ []) (files : Files) (node : Node) (other : Path) :
    (files.put path node).node? other = if other = path then some node else files.node? other := by
  by_cases hnil : other = []
  · subst hnil
    rw [if_neg (Ne.symm hpath)]
    rfl
  · rw [node?_of_ne_nil hnil, node?_of_ne_nil hnil, put, List.lookup_append, lookup_filter_ne]
    by_cases hother : other = path
    · rw [if_pos hother, if_pos hother, Option.none_or, hother, List.lookup_cons_self]
    · have hne : (other == path) = false := beq_eq_false_iff_ne.mpr hother
      rw [if_neg hother, if_neg hother, List.lookup_cons, hne, List.lookup_nil, Option.or_none]

theorem isFile_iff {files : Files} {path : Path} :
    files.isFile path = true ↔ ∃ content, files.node? path = some (.file content) := by
  unfold isFile
  split <;> simp_all

/-- Where no file is there is a directory or nothing. -/
theorem node?_of_no_file {files : Files} {path : Path} (hfile : files.isFile path = false) :
    files.node? path = none ∨ files.node? path = some .directory := by
  cases hnode : files.node? path with
  | none => exact .inl rfl
  | some node => cases node <;> simp_all [isFile]

theorem node?_removeFile (files : Files) (path other : Path) :
    (files.removeFile path).node? other =
      if files.isFile path ∧ other = path then none else files.node? other := by
  unfold removeFile
  by_cases hfile : files.isFile path = true
  · rw [if_pos hfile]
    by_cases hnil : other = []
    · subst hnil
      have hpath : [] ≠ path := by
        rintro rfl
        obtain ⟨content, hcontent⟩ := isFile_iff.mp hfile
        contradiction
      rw [if_neg fun h => hpath h.2]
      rfl
    · rw [node?_of_ne_nil hnil, node?_of_ne_nil hnil, lookup_filter_ne]
      simp only [hfile, true_and]
  · rw [if_neg hfile, if_neg fun h => hfile h.1]

theorem node?_empty (files : Files) (path other : Path) :
    (files.empty path).node? other =
      if path <+: other ∧ other ≠ path then none else files.node? other := by
  by_cases hnil : other = []
  · subst hnil
    rw [if_neg fun h => h.2 (List.prefix_nil.mp h.1).symm]
    rfl
  · rw [node?_of_ne_nil hnil, node?_of_ne_nil hnil, empty,
      lookup_filter_key fun place => !(path.isPrefixOf place && decide (place ≠ path))]
    have hgone : (path.isPrefixOf other && decide (other ≠ path)) = true ↔
        path <+: other ∧ other ≠ path := by
      rw [Bool.and_eq_true, List.isPrefixOf_iff_prefix, decide_eq_true_eq]
    by_cases hinner : path <+: other ∧ other ≠ path
    · rw [if_pos hinner, hgone.mpr hinner]
      rfl
    · rw [if_neg hinner, Bool.eq_false_iff.mpr (mt hgone.mp hinner)]
      rfl

/-- Whatever stands at a path stands in a directory, and all on the way to it are directories. -/
def IsTree (files : Files) : Prop :=
  ∀ path node, files.node? path = some node →
    ∀ ancestor ∈ ancestors path.dropLast, files.node? ancestor = some .directory

/-- It takes a look at the nodes only to tell that files make a tree. -/
theorem isTree_of_nodes {files : Files}
    (hnodes : ∀ entry ∈ files.nodes, ∀ ancestor ∈ ancestors entry.1.dropLast,
      files.node? ancestor = some .directory) : files.IsTree := by
  intro path node hnode
  by_cases hpath : path = []
  · subst hpath
    intro ancestor hancestor
    obtain rfl := List.prefix_nil.mp (mem_ancestors_iff.mp hancestor)
    rfl
  · rw [node?_of_ne_nil hpath, List.lookup_eq_some_iff] at hnode
    obtain ⟨before, after, hsplit, -⟩ := hnode
    exact hnodes (path, node) (by simp [hsplit])

/-- In a tree nothing stands below a path at which nothing stands. -/
theorem IsTree.node?_eq_none {files : Files} (htree : files.IsTree) {path other : Path}
    (hnode : files.node? path = none) (hinner : path <+: other) : files.node? other = none := by
  by_cases hother : path = other
  · rw [← hother, hnode]
  · rw [Option.eq_none_iff_forall_not_mem]
    intro node hfound
    have hdirectory := htree other node hfound path
      (mem_ancestors_dropLast (mem_ancestors_iff.mpr hinner) hother)
    simp [hnode] at hdirectory

/-- A directory of which all ancestors are directories can be written in. -/
theorem directoryFault?_eq_none {files : Files} {path : Path}
    (hfolders : ∀ ancestor ∈ ancestors path, files.node? ancestor = some .directory) :
    files.directoryFault? path = none := by
  have hfiles : (ancestors path).any files.isFile = false := by
    rw [List.any_eq_false]
    intro ancestor hancestor hfile
    obtain ⟨content, hcontent⟩ := isFile_iff.mp hfile
    simp [hfolders ancestor hancestor] at hcontent
  have hnode : files.hasNode path = true := by
    rw [hasNode, hfolders path (self_mem_ancestors path)]
    rfl
  rw [directoryFault?, hfiles, hnode]
  rfl

/-- Whether something can be done below a path depends on what stands on the way to it alone. -/
theorem directoryFault?_congr {files others : Files} {path : Path}
    (hnodes : ∀ ancestor ∈ ancestors path, files.node? ancestor = others.node? ancestor) :
    files.directoryFault? path = others.directoryFault? path := by
  have hfiles : (ancestors path).any files.isFile = (ancestors path).any others.isFile := by
    rw [Bool.eq_iff_iff, List.any_eq_true, List.any_eq_true]
    refine exists_congr fun ancestor => and_congr_right fun hancestor => ?_
    rw [isFile, isFile, hnodes ancestor hancestor]
  have hnode : files.hasNode path = others.hasNode path := by
    rw [hasNode, hasNode, hnodes path (self_mem_ancestors path)]
  rw [directoryFault?, directoryFault?, hfiles, hnode]

theorem isFile_of_directoryFault? {files : Files} {path ancestor : Path}
    (hfault : files.directoryFault? path = none) (hancestor : ancestor ∈ ancestors path) :
    files.isFile ancestor = false := by
  rw [directoryFault?] at hfault
  split at hfault
  · contradiction
  · rename_i hany
    rw [List.any_eq_true] at hany
    exact Bool.eq_false_iff.mpr fun hfile => hany ⟨ancestor, hancestor, hfile⟩

theorem write_eq_ok_iff {files after : Files} {path : Path} {content : Content} :
    files.write path content = .ok after ↔
      files.node? path ≠ some .directory ∧ files.directoryFault? path.dropLast = none ∧
        after = files.put path (.file content) := by
  unfold write
  split
  · simp_all
  · rename_i hnode
    have hnode' : files.node? path ≠ some .directory := fun h => hnode h
    cases files.directoryFault? path.dropLast with
    | none => simp [hnode', eq_comm (a := after)]
    | some fault => simp

/-- A file can be written in a directory that stands. -/
theorem write_eq_ok {files : Files} {path : Path} (hnode : files.node? path ≠ some .directory)
    (hfolders : ∀ ancestor ∈ ancestors path.dropLast, files.node? ancestor = some .directory)
    (content : Content) : files.write path content = .ok (files.put path (.file content)) :=
  write_eq_ok_iff.mpr ⟨hnode, directoryFault?_eq_none hfolders, rfl⟩

theorem node?_of_write {files after : Files} {path : Path} {content : Content}
    (hwrite : files.write path content = .ok after) (other : Path) :
    after.node? other = if other = path then some (.file content) else files.node? other := by
  obtain ⟨hnode, -, rfl⟩ := write_eq_ok_iff.mp hwrite
  refine node?_put ?_ files _ other
  rintro rfl
  exact hnode rfl

/-- Writing a file leaves every directory where it was. -/
theorem directory_of_write {files after : Files} {path : Path} {content : Content}
    (hwrite : files.write path content = .ok after) {other : Path}
    (hother : files.node? other = some .directory) : after.node? other = some .directory := by
  rw [node?_of_write hwrite, if_neg, hother]
  rintro rfl
  exact (write_eq_ok_iff.mp hwrite).1 hother

theorem read_eq_ok_iff {files : Files} {path : Path} {content : Content} :
    files.read path = .ok content ↔ files.node? path = some (.file content) := by
  unfold read
  split <;> simp_all

/-- Renaming moves the content of a file, and nothing else. -/
theorem node?_of_rename {files after : Files} {source target : Path}
    (hrename : files.rename source target = .ok after) :
    ∃ content, files.node? source = some (.file content) ∧
      files.node? target ≠ some .directory ∧
      ∀ other, after.node? other =
        if other = target then some (.file content)
        else if other = source then none else files.node? other := by
  unfold rename at hrename
  split at hrename
  · contradiction
  · contradiction
  · rename_i content hread htarget
    rw [read_eq_ok_iff] at hread
    refine ⟨content, hread, htarget, ?_⟩
    intro other
    have hfile : files.isFile source = true := isFile_iff.mpr ⟨content, hread⟩
    rw [node?_of_write hrename, node?_removeFile]
    simp only [hfile, true_and]

/-- A file can be moved to a directory that stands. -/
theorem rename_eq_ok {files : Files} {source target : Path} {content : Content}
    (hsource : files.node? source = some (.file content))
    (htarget : files.node? target ≠ some .directory)
    (hfolders : ∀ ancestor ∈ ancestors target.dropLast, files.node? ancestor = some .directory) :
    ∃ after, files.rename source target = .ok after := by
  have hremoved (path : Path) : (files.removeFile source).node? path = some .directory ↔
      files.node? path = some .directory := by
    rw [node?_removeFile]
    split
    · rename_i hsame
      simp [hsame.2, hsource]
    · rfl
  have hwrite := write_eq_ok (mt (hremoved target).mp htarget)
    (fun ancestor hancestor => (hremoved ancestor).mpr (hfolders ancestor hancestor)) content
  refine ⟨(files.removeFile source).put target (.file content), ?_⟩
  unfold rename
  rw [read_eq_ok_iff.mpr hsource]
  split
  · contradiction
  · rename_i hdirectory
    exact absurd hdirectory htarget
  · rename_i found hfound _
    obtain rfl := Except.ok.inj hfound
    exact hwrite

/-- Where a file has been moved to, another can be written. -/
theorem directoryFault?_of_rename {files after : Files} {source target : Path}
    (hrename : files.rename source target = .ok after) :
    after.directoryFault? target.dropLast = none := by
  unfold rename at hrename
  split at hrename
  · contradiction
  · contradiction
  · rename_i content hread htarget
    obtain ⟨hnode, hfault, rfl⟩ := write_eq_ok_iff.mp hrename
    have hne : target ≠ [] := by
      rintro rfl
      exact hnode rfl
    rw [← hfault]
    apply directoryFault?_congr
    intro ancestor hancestor
    rw [node?_put hne, if_neg]
    rintro rfl
    exact notMem_ancestors_dropLast hne List.prefix_rfl hancestor

theorem directory_of_rename {files after : Files} {source target : Path}
    (hrename : files.rename source target = .ok after) {other : Path}
    (hother : files.node? other = some .directory) : after.node? other = some .directory := by
  obtain ⟨content, hsource, htarget, hnodes⟩ := node?_of_rename hrename
  rw [hnodes, if_neg, if_neg, hother]
  · rintro rfl
    simp [hsource] at hother
  · rintro rfl
    exact htarget hother

end Files

end DocIndex.Storage
