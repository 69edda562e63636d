import DocIndex.Proofs.Storage.Files
import Mathlib.Data.List.Induction

/-!
Where texts lead. Names can be followed to the end just when directories stand all along their way;
then they lead to the path that the text means by its names alone. A way through directories stays
one as long as no directory is taken away.
-/

namespace DocIndex.Storage

/-! Ways -/

/-- The names before the last one lead to the directory in which the last one is looked up. -/
theorem mem_way_concat {names : List String} {name : String} {place : Path} :
    place ∈ way (names ++ [name]) ↔ place ∈ way names ∨ place = walk [] (names ++ [name]) := by
  have htake : (names ++ [name]).take (names.length + 1) = names ++ [name] :=
    List.take_of_length_le (by simp)
  have hway : way (names ++ [name]) = way names ++ [walk [] (names ++ [name])] := by
    rw [way, List.length_append, List.length_singleton, List.range_succ, List.map_append,
      List.map_singleton, htake, way, List.append_cancel_right_eq]
    apply List.map_congr_left
    intro n hn
    rw [List.take_append_of_le_length (Nat.le_of_lt_succ (List.mem_range.mp hn))]
  rw [hway, List.mem_append, List.mem_singleton]

theorem way_nil : way [] = [[]] :=
  rfl

theorem walk_mem_way (names : List String) : walk [] names ∈ way names := by
  induction names using List.reverseRecOn with
  | nil => exact List.mem_singleton_self _
  | append_singleton names name ih => exact mem_way_concat.mpr (.inr rfl)

theorem mem_way_iff (names : List String) {place : Path} :
    place ∈ way names ↔ place ∈ way names.dropLast ∨ place = walk [] names := by
  cases List.eq_nil_or_concat names with
  | inl hnil => simp [hnil, way_nil, walk]
  | inr hconcat =>
      obtain ⟨before, name, rfl⟩ := hconcat
      rw [List.concat_eq_append, List.dropLast_concat, mem_way_concat]

theorem mem_way_of_front {before names : List String} (hbefore : before <+: names) {place : Path}
    (hplace : place ∈ way before) : place ∈ way names := by
  induction names using List.reverseRecOn with
  | nil => rwa [List.prefix_nil.mp hbefore] at hplace
  | append_singleton names name ih =>
      rcases List.prefix_concat_iff.mp hbefore with rfl | hbefore
      · exact hplace
      · exact mem_way_concat.mpr (.inl (ih hbefore))

/-- The way does not change if names that lead nowhere are left out. -/
theorem walk_filter {isUsed : String → Bool}
    (hunused : ∀ name, isUsed name = false → ∀ path, enter path name = path) (names : List String) :
    walk [] (names.filter isUsed) = walk [] names := by
  induction names using List.reverseRecOn with
  | nil => rfl
  | append_singleton names name ih =>
      rw [List.filter_append, walk_append, ih, walk_concat]
      cases hname : isUsed name with
      | true => simp [hname, walk]
      | false => simp [hname, walk, hunused name hname]

theorem mem_way_filter {isUsed : String → Bool}
    (hunused : ∀ name, isUsed name = false → ∀ path, enter path name = path)
    {names : List String} {place : Path} :
    place ∈ way (names.filter isUsed) ↔ place ∈ way names := by
  induction names using List.reverseRecOn with
  | nil => rfl
  | append_singleton names name ih =>
      rw [List.filter_append, mem_way_concat]
      cases hname : isUsed name with
      | true =>
          have hlast : [name].filter isUsed = [name] := by simp [hname]
          rw [hlast, mem_way_concat, ih, walk_concat, walk_concat, walk_filter hunused]
      | false =>
          have hlast : [name].filter isUsed = [] := by simp [hname]
          rw [hlast, List.append_nil, ih, walk_concat, hunused name hname, or_iff_left_of_imp]
          rintro rfl
          exact walk_mem_way names

theorem enter_of_not_filled (name : String) (hname : decide (name ≠ "") = false) (path : Path) :
    enter path name = path := by
  rw [decide_eq_false_iff_not, not_not] at hname
  rw [enter, if_pos (.inl hname)]

theorem enter_of_here (name : String) (hname : decide (name ≠ ".") = false) (path : Path) :
    enter path name = path := by
  rw [decide_eq_false_iff_not, not_not] at hname
  rw [enter, if_pos (.inr hname)]

theorem walk_filledNames (text : String) : walk [] (filledNames text) = pathOf text :=
  walk_filter enter_of_not_filled _

theorem mem_way_filledNames {text : String} {place : Path} :
    place ∈ way (filledNames text) ↔ place ∈ way (namesOf text) :=
  mem_way_filter enter_of_not_filled

/-- Whoever goes to a path has been at all paths on the way to it. -/
theorem mem_way_of_mem_ancestors {names : List String} {ancestor : Path}
    (hancestor : ancestor ∈ ancestors (walk [] names)) : ancestor ∈ way names := by
  rw [mem_ancestors_iff] at hancestor
  induction names using List.reverseRecOn with
  | nil => exact List.mem_singleton.mpr (List.prefix_nil.mp hancestor)
  | append_singleton names name ih =>
      rw [mem_way_concat]
      rw [walk_concat, enter] at hancestor
      split at hancestor
      · exact .inl (ih hancestor)
      · split at hancestor
        · exact .inl (ih (hancestor.trans (List.dropLast_prefix _)))
        · rename_i hstays hup
          rcases List.prefix_concat_iff.mp hancestor with hself | hbefore
          · rw [hself, walk_concat, enter, if_neg hstays, if_neg hup]
            exact .inr rfl
          · exact .inl (ih hbefore)

namespace Files

/-! Ways through directories -/

/-- Names lead to a directory through directories that all stand. -/
def Reaches (files : Files) (names : List String) : Prop :=
  ∀ place ∈ way names, files.node? place = some .directory

instance {files : Files} {names : List String} : Decidable (files.Reaches names) :=
  inferInstanceAs (Decidable (∀ place ∈ way names, files.node? place = some .directory))

variable {files others : Files} {names : List String}

theorem reaches_nil : files.Reaches [] := by
  intro place hplace
  obtain rfl := List.mem_singleton.mp hplace
  rfl

theorem reaches_concat {name : String} : files.Reaches (names ++ [name]) ↔
    files.Reaches names ∧ files.node? (walk [] (names ++ [name])) = some .directory := by
  simp only [Reaches, mem_way_concat, or_imp, forall_and, forall_eq]

theorem reaches_iff : files.Reaches names ↔
    files.Reaches names.dropLast ∧ files.node? (walk [] names) = some .directory := by
  simp only [Reaches, mem_way_iff names, or_imp, forall_and, forall_eq]

theorem Reaches.dropLast (hreaches : files.Reaches names) : files.Reaches names.dropLast :=
  (reaches_iff.mp hreaches).1

theorem Reaches.directory (hreaches : files.Reaches names) :
    files.node? (walk [] names) = some .directory :=
  (reaches_iff.mp hreaches).2

/-- A way stays one when directories are made, and when files come and go. -/
theorem Reaches.mono (hreaches : files.Reaches names)
    (hsame : ∀ path, files.node? path = some .directory → others.node? path = some .directory) :
    others.Reaches names :=
  fun place hplace => hsame place (hreaches place hplace)

theorem Reaches.of_front {before : List String} (hreaches : files.Reaches names)
    (hbefore : before <+: names) : files.Reaches before :=
  fun place hplace => hreaches place (mem_way_of_front hbefore hplace)

theorem reaches_filter {isUsed : String → Bool}
    (hunused : ∀ name, isUsed name = false → ∀ path, enter path name = path) :
    files.Reaches (names.filter isUsed) ↔ files.Reaches names := by
  simp only [Reaches, mem_way_filter hunused]

theorem reaches_filledNames {text : String} :
    files.Reaches (filledNames text) ↔ files.Reaches (namesOf text) :=
  reaches_filter enter_of_not_filled

/-- A name without meaning does not make a way longer, but takes a directory to be looked up in. -/
theorem reaches_slashed : files.Reaches (names ++ [""]) ↔ files.Reaches names := by
  rw [reaches_concat, walk_concat, and_iff_left_of_imp]
  intro hreaches
  exact hreaches.directory

theorem follow_append (path : Path) (names others : List String) :
    files.follow path (names ++ others) =
      (files.follow path names).bind fun place => files.follow place others := by
  induction names generalizing path with
  | nil => rfl
  | cons name rest ih =>
      rw [List.cons_append, follow, follow]
      split
      · exact ih _
      · rfl
      · rfl

/-- All names are looked up in directories; what the last one leads to may be anything. -/
theorem follow_eq_ok_iff {place : Path} : files.follow [] names = .ok place ↔
    files.Reaches names.dropLast ∧ place = walk [] names := by
  induction names using List.reverseRecOn generalizing place with
  | nil => simp [follow, Reaches, way_nil, walk, node?, eq_comm]
  | append_singleton names name ih =>
      rw [List.dropLast_concat, follow_append, reaches_iff]
      constructor
      · intro hfollow
        cases hbefore : files.follow [] names with
        | error fault => simp [hbefore, Except.bind] at hfollow
        | ok here =>
            obtain ⟨hway, rfl⟩ := ih.mp hbefore
            rw [hbefore] at hfollow
            simp only [Except.bind, follow] at hfollow
            split at hfollow
            · rename_i hdirectory
              rw [walk_concat]
              exact ⟨⟨hway, hdirectory⟩, (Except.ok.inj hfollow).symm⟩
            · contradiction
            · contradiction
      · rintro ⟨⟨hway, hdirectory⟩, rfl⟩
        rw [ih.mpr ⟨hway, rfl⟩]
        simp only [Except.bind, follow, hdirectory, walk_concat]

/-- Where no file is on the way names lead on until nothing stands any more. -/
theorem follow_of_no_file (hfiles : ∀ place ∈ way names, files.isFile place = false) :
    files.follow [] names = .ok (walk [] names) ∨ files.follow [] names = .error .notFound := by
  induction names using List.reverseRecOn with
  | nil => exact .inl rfl
  | append_singleton names name ih =>
      rw [follow_append]
      rcases ih fun place hplace => hfiles place (mem_way_concat.mpr (.inl hplace)) with
        hfollow | hfollow
      · have hfile := hfiles (walk [] names) (mem_way_concat.mpr (.inl (walk_mem_way names)))
        simp only [hfollow, Except.bind, follow, walk_concat]
        cases hnode : files.node? (walk [] names) with
        | none => exact .inr rfl
        | some node =>
            cases node with
            | directory => exact .inl rfl
            | file content => simp [isFile, hnode] at hfile
      · rw [hfollow]
        exact .inr rfl

/-! What texts lead to -/

variable {text : String} {place : Path}

/-- A text leads to a path, at which something may stand or not. -/
def Leads (files : Files) (text : String) (place : Path) : Prop :=
  text ≠ "" ∧ files.Reaches (namesOf text).dropLast ∧ place = pathOf text

instance : Decidable (files.Leads text place) :=
  inferInstanceAs (Decidable (_ ∧ _ ∧ _))

theorem resolve_eq_ok_iff : files.resolve text = .ok place ↔ files.Leads text place := by
  rw [resolve, Leads]
  split
  · rename_i hempty
    simp [hempty]
  · rename_i hfilled
    rw [follow_eq_ok_iff, pathOf]
    simp only [hfilled, not_false_eq_true, true_and, ne_eq]

theorem Leads.mono (hleads : files.Leads text place)
    (hsame : ∀ path, files.node? path = some .directory → others.node? path = some .directory) :
    others.Leads text place :=
  ⟨hleads.1, hleads.2.1.mono hsame, hleads.2.2⟩

theorem Leads.eq_pathOf (hleads : files.Leads text place) : place = pathOf text :=
  hleads.2.2

theorem leads_of_resolve (hresolve : files.resolve text = .ok place) :
    files.Leads text (pathOf text) := by
  have hleads := resolve_eq_ok_iff.mp hresolve
  rwa [hleads.eq_pathOf] at hleads

theorem existsAt_iff : files.existsAt text = true ↔
    files.Leads text (pathOf text) ∧ files.hasNode (pathOf text) = true := by
  unfold existsAt
  split
  · rename_i path hresolve
    rw [(resolve_eq_ok_iff.mp hresolve).eq_pathOf, and_iff_right (leads_of_resolve hresolve)]
  · rename_i fault hresolve
    simp [← resolve_eq_ok_iff, hresolve]

theorem existsAt_of_leads (hleads : files.Leads text place) (hnode : files.hasNode place = true) :
    files.existsAt text = true := by
  obtain ⟨hnamed, hway, rfl⟩ := hleads
  exact existsAt_iff.mpr ⟨⟨hnamed, hway, rfl⟩, hnode⟩

theorem isFileAt_iff : files.isFileAt text = true ↔
    files.Leads text (pathOf text) ∧ files.isFile (pathOf text) = true := by
  unfold isFileAt
  split
  · rename_i path hresolve
    rw [(resolve_eq_ok_iff.mp hresolve).eq_pathOf, and_iff_right (leads_of_resolve hresolve)]
  · rename_i fault hresolve
    simp [← resolve_eq_ok_iff, hresolve]

theorem existsAt_of_isFileAt (hfile : files.isFileAt text = true) : files.existsAt text = true := by
  obtain ⟨hleads, hfile⟩ := isFileAt_iff.mp hfile
  obtain ⟨content, hcontent⟩ := isFile_iff.mp hfile
  exact existsAt_of_leads hleads (by simp [hasNode, hcontent])

theorem readTextAt_of_leads (hleads : files.Leads text place) :
    files.readTextAt text = files.readText place := by
  rw [readTextAt, resolve_eq_ok_iff.mpr hleads]
  rfl

theorem writeAt_eq_ok_iff {after : Files} {content : Content} :
    files.writeAt text content = .ok after ↔
      files.Leads text (pathOf text) ∧ files.write (pathOf text) content = .ok after := by
  unfold writeAt
  cases hresolve : files.resolve text with
  | error fault => simp [← resolve_eq_ok_iff, hresolve, Except.bind]
  | ok path =>
      rw [(resolve_eq_ok_iff.mp hresolve).eq_pathOf, and_iff_right (leads_of_resolve hresolve)]
      rfl

theorem renameAt_eq_ok_iff {after : Files} {source target : String} :
    files.renameAt source target = .ok after ↔
      files.Leads source (pathOf source) ∧ files.Leads target (pathOf target) ∧
        endsInName target = true ∧ isSlashed target = false ∧
        files.rename (pathOf source) (pathOf target) = .ok after := by
  unfold renameAt
  cases hsource : files.resolve source with
  | error fault => simp [← resolve_eq_ok_iff, hsource, bind, Except.bind]
  | ok path =>
      cases htarget : files.resolve target with
      | error fault => simp [← resolve_eq_ok_iff, htarget, bind, Except.bind]
      | ok place =>
          rw [(resolve_eq_ok_iff.mp hsource).eq_pathOf, (resolve_eq_ok_iff.mp htarget).eq_pathOf,
            and_iff_right (leads_of_resolve hsource), and_iff_right (leads_of_resolve htarget)]
          cases endsInName target <;> cases isSlashed target <;> simp [bind, Except.bind]

theorem node?_removeFileAt (files : Files) (text : String) (other : Path) :
    (files.removeFileAt text).node? other =
      if files.Leads text other ∧ files.isFile other = true then none
      else files.node? other := by
  unfold removeFileAt
  split
  · rename_i path hresolve
    have hleads : files.Leads text other ↔ other = path := by
      rw [← resolve_eq_ok_iff, hresolve, Except.ok.injEq, eq_comm]
    rw [node?_removeFile]
    by_cases hother : other = path
    · subst hother
      simp [hleads.mpr rfl]
    · simp [hleads, hother]
  · rename_i fault hresolve
    have hleads : ¬ files.Leads text other := by
      rw [← resolve_eq_ok_iff, hresolve]
      exact nofun
    rw [if_neg fun h => hleads h.1]

/-! Entries of a directory -/

variable {name directory : String} (hname : IsPlain name)

include hname

/-- A plain name is looked up in the directory of the text before it. -/
theorem reaches_joinText (hdirectory : directory ≠ "") :
    files.Reaches (namesOf (joinText directory name)).dropLast ↔
      files.Reaches (namesOf directory) := by
  rcases namesOf_joinText hname hdirectory with hnames | ⟨names, hslashed, hnames⟩
  · rw [hnames, List.dropLast_concat]
  · rw [hnames, hslashed, List.dropLast_concat, reaches_slashed]

end Files

section

variable {name : String} (hname : IsPlain name) (directory : String)

include hname

theorem joinText_ne_empty : joinText directory name ≠ "" := by
  intro hempty
  have hpath := pathOf_joinText hname directory
  rw [hempty] at hpath
  simp [show pathOf "" = [] from rfl] at hpath

theorem exists_namesOf_joinText :
    ∃ names, namesOf (joinText directory name) = names ++ [name] := by
  by_cases hdirectory : directory = ""
  · exact ⟨[], by rw [hdirectory, joinText_empty, namesOf_of_isPlain hname, List.nil_append]⟩
  · rcases namesOf_joinText hname hdirectory with hnames | ⟨names, -, hnames⟩
    · exact ⟨_, hnames⟩
    · exact ⟨_, hnames⟩

theorem endsInName_joinText : endsInName (joinText directory name) = true := by
  obtain ⟨names, hnames⟩ := exists_namesOf_joinText hname directory
  have hlast : (filledNames (joinText directory name)).getLast? = some name := by
    have hfilled : [name].filter (· ≠ "") = [name] := by simp [hname.nonempty]
    rw [filledNames, hnames, List.filter_append, hfilled, List.getLast?_concat]
  rw [endsInName, hlast]
  split
  · contradiction
  · exact absurd (Option.some.inj ‹_›) hname.ne_here
  · exact absurd (Option.some.inj ‹_›) hname.ne_up
  · rfl

theorem isSlashed_joinText : isSlashed (joinText directory name) = false := by
  rw [isSlashed, decide_eq_false_iff_not]
  intro hslash
  obtain ⟨before, hbefore⟩ := List.getLast?_eq_some_iff.mp hslash
  obtain ⟨names, hnames⟩ := exists_namesOf_joinText hname directory
  rw [namesOf, hbefore, namesFrom_append_slash] at hnames
  have hlast := List.append_inj_right' hnames rfl
  exact hname.nonempty (List.singleton_inj.mp hlast).symm

end

theorem Files.leads_joinText {files : Files} {name directory : String} {place : Path}
    (hname : IsPlain name) (hdirectory : directory ≠ "") :
    files.Leads (joinText directory name) place ↔
      files.Reaches (namesOf directory) ∧ place = pathOf directory ++ [name] := by
  rw [Leads, reaches_joinText hname hdirectory, pathOf_joinText hname,
    and_iff_right (joinText_ne_empty hname directory)]

namespace Files

/-! Directories by texts -/

/-- A text leads to a directory through directories that all stand. -/
structure Opens (files : Files) (directory : String) : Prop where
  named : directory ≠ ""
  reaches : files.Reaches (namesOf directory)

/-- All directories on the way to a directory stand, and so does it. -/
def HasDirectory (files : Files) (path : Path) : Prop :=
  ∀ ancestor ∈ ancestors path, files.node? ancestor = some .directory

variable {files others : Files} {directory text : String} {place : Path}

theorem Opens.hasDirectory (hopens : files.Opens directory) :
    files.HasDirectory (pathOf directory) :=
  fun ancestor hancestor => hopens.reaches ancestor (mem_way_of_mem_ancestors hancestor)

theorem Opens.node?_eq (hopens : files.Opens directory) :
    files.node? (pathOf directory) = some .directory :=
  hopens.reaches.directory

theorem Opens.leads (hopens : files.Opens directory) :
    files.Leads directory (pathOf directory) :=
  ⟨hopens.named, hopens.reaches.dropLast, rfl⟩

theorem Opens.existsAt (hopens : files.Opens directory) : files.existsAt directory = true := by
  rw [existsAt_iff, hasNode, hopens.node?_eq]
  exact ⟨hopens.leads, rfl⟩

theorem Opens.leads_joinText (hopens : files.Opens directory) {name : String}
    (hname : IsPlain name) : files.Leads (joinText directory name) (pathOf directory ++ [name]) :=
  (Storage.Files.leads_joinText hname hopens.named).mpr ⟨hopens.reaches, rfl⟩

theorem Opens.mono (hopens : files.Opens directory)
    (hsame : ∀ path, files.node? path = some .directory → others.node? path = some .directory) :
    others.Opens directory :=
  ⟨hopens.named, hopens.reaches.mono hsame⟩

/-- Two trees have the same directories. -/
def SameFolders (files others : Files) : Prop :=
  ∀ path, files.node? path = some .directory ↔ others.node? path = some .directory

theorem SameFolders.refl (files : Files) : files.SameFolders files :=
  fun _ => Iff.rfl

theorem SameFolders.trans {last : Files} (hfirst : files.SameFolders others)
    (hsecond : others.SameFolders last) : files.SameFolders last :=
  fun path => (hfirst path).trans (hsecond path)

/-- Writing a file makes no directory and takes none away. -/
theorem sameFolders_of_write {path : Path} {content : Content}
    (hwrite : files.write path content = .ok others) : others.SameFolders files := by
  intro other
  rw [node?_of_write hwrite]
  split
  · rename_i hsame
    simp [hsame, (write_eq_ok_iff.mp hwrite).1]
  · rfl

theorem SameFolders.leads_iff (hsame : files.SameFolders others) :
    files.Leads text place ↔ others.Leads text place :=
  ⟨fun hleads => hleads.mono fun path => (hsame path).mp,
    fun hleads => hleads.mono fun path => (hsame path).mpr⟩

theorem SameFolders.opens_iff (hsame : files.SameFolders others) :
    files.Opens directory ↔ others.Opens directory :=
  ⟨fun hopens => hopens.mono fun path => (hsame path).mp,
    fun hopens => hopens.mono fun path => (hsame path).mpr⟩

end Files

end DocIndex.Storage
