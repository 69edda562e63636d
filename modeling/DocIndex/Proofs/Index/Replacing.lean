import DocIndex.Proofs.Document.Row
import DocIndex.Proofs.Index.Reopening

/-!
A closed directory of which the schema file was replaced. It opens on the schema that now stands
there if that schema keeps its fields as the documents were kept, and what a schema keeps of a field
is all of it but the spelling of the tokenizer, and the tokenizer of a field that is not indexed.
-/

namespace DocIndex

open Storage

/-! What an index keeps of its fields -/

/-- Two fields that an index does not keep alike. -/
def FieldDef.DiffersFrom (field other : FieldDef) : Prop :=
  field.name ≠ other.name ∨ field.kind ≠ other.kind ∨ field.stored ≠ other.stored ∨
    field.indexed ≠ other.indexed ∨ field.fast ≠ other.fast ∨
    field.isSearchable = true ∧ field.effectiveTokenizer ≠ other.effectiveTokenizer

/-- Two lists of fields that differ in length, or at some position. -/
def FieldsDiffer (fields others : List FieldDef) : Prop :=
  fields.length ≠ others.length ∨
    ∃ (position : Nat) (field other : FieldDef), fields[position]? = some field ∧
      others[position]? = some other ∧ field.DiffersFrom other

namespace FieldDef

variable {field other : FieldDef}

theorem storage_of_text (hkind : field.kind = .text) :
    field.storage = .text field.stored field.fast (if field.indexed then
      some ⟨if field.effectiveTokenizer = .raw then .documents else .positions,
        field.effectiveTokenizer⟩ else none) := by
  rw [storage, hkind]

theorem storage_of_number (hkind : field.kind ≠ .text) :
    field.storage = .number field.kind field.indexed field.fast field.stored := by
  unfold storage
  split
  · contradiction
  · rfl

/-- Of an indexed text the detail follows from the tokenizer; of another no tokenizer is kept. -/
theorem storage_eq_iff_of_text (hfield : field.kind = .text) (hother : other.kind = .text) :
    field.storage = other.storage ↔
      field.stored = other.stored ∧ field.fast = other.fast ∧ field.indexed = other.indexed ∧
        (field.indexed = true → field.effectiveTokenizer = other.effectiveTokenizer) := by
  rw [storage_of_text hfield, storage_of_text hother, FieldStorage.text.injEq]
  cases field.indexed <;> cases other.indexed <;> simp
  grind

theorem storage_eq_iff_of_number (hfield : field.kind ≠ .text) (hother : other.kind ≠ .text) :
    field.storage = other.storage ↔
      field.kind = other.kind ∧ field.indexed = other.indexed ∧ field.fast = other.fast ∧
        field.stored = other.stored := by
  rw [storage_of_number hfield, storage_of_number hother, FieldStorage.number.injEq]

theorem storage_eq_iff_not_differsFrom (hname : field.name = other.name) :
    field.storage = other.storage ↔ ¬ field.DiffersFrom other := by
  by_cases hkind : field.kind = other.kind
  · by_cases htext : field.kind = .text
    · rw [storage_eq_iff_of_text htext (hkind ▸ htext)]
      simp only [DiffersFrom, isSearchable, hname, hkind ▸ htext, htext]
      grind
    · rw [storage_eq_iff_of_number htext (hkind ▸ htext)]
      simp only [DiffersFrom, isSearchable, hname, htext]
      grind
  · constructor
    · intro hstorage
      rw [← field.kind_storage, hstorage, other.kind_storage] at hkind
      exact absurd rfl hkind
    · exact fun hsame => absurd (.inr (.inl hkind)) hsame

end FieldDef

/-- Two schemas keep their fields alike unless their lists of fields differ. -/
theorem Schema.storage_eq_iff (schema another : Schema) :
    schema.storage = another.storage ↔ ¬ FieldsDiffer schema.fields another.fields := by
  rw [storage_eq, storage_eq]
  constructor
  · rintro hstorage (hlength | ⟨position, field, other, hfield, hother, hdiffers⟩)
    · have hsame := congrArg List.length hstorage
      rw [List.length_map, List.length_map] at hsame
      exact hlength hsame
    · have hsame := congrArg (·[position]?) hstorage
      simp only [List.getElem?_map, hfield, hother, Option.map_some, Option.some.injEq,
        Prod.mk.injEq] at hsame
      exact (FieldDef.storage_eq_iff_not_differsFrom hsame.1).mp hsame.2 hdiffers
  · intro hsame
    rw [FieldsDiffer, not_or, Decidable.not_not] at hsame
    obtain ⟨hlength, hsame⟩ := hsame
    apply List.ext_getElem (by rw [List.length_map, List.length_map, hlength])
    intro position hposition hposition'
    rw [List.length_map] at hposition hposition'
    rw [List.getElem_map, List.getElem_map]
    have hkept : ¬ schema.fields[position].DiffersFrom another.fields[position] := fun hdiffers =>
      hsame ⟨position, _, _, List.getElem?_eq_getElem hposition,
        List.getElem?_eq_getElem hposition', hdiffers⟩
    have hname : schema.fields[position].name = another.fields[position].name :=
      Decidable.not_not.mp fun hname => hkept (.inl hname)
    rw [hname, (FieldDef.storage_eq_iff_not_differsFrom hname).mpr hkept]

/-! Replacing the schema file -/

namespace Session

/-- Nothing that is done with a created index keeps its schema file from being written again. -/
theorem exists_write_schema [Segmenter] {disk created : Disk} {options : IndexOptions}
    {schema : Schema} {index : Index}
    (hcreate : Index.create disk options schema = (created, .ok index)) (calls : List Call)
    (text : String) :
    ∃ files, (run ⟨created, index⟩ calls).disk.files.write
      (pathOf (options.schemaText index.path)) (.text text) = .ok files := by
  have hstore := Index.schemaPath_ne_storePath hcreate
  have hfounded := (Index.founded_of_create hcreate).1
  have hframe := ((tracks_of_create hcreate).run hfounded calls).frame
  have hnode := (hframe _ hstore).trans (Index.schemaNode_of_create hcreate)
  have hwritable := Index.directoryFault?_of_create hcreate
  refine ⟨_, Files.write_eq_ok_iff.mpr ⟨by simp [hnode], ?_, rfl⟩⟩
  rw [← hwritable]
  apply Files.directoryFault?_congr
  intro ancestor hancestor
  apply hframe
  -- The file of documents is no directory, so the schema file does not stand below it.
  rintro rfl
  have hfile := Files.isFile_iff.mpr ⟨_, hfounded.store⟩
  exact Bool.false_ne_true ((Files.isFile_of_directoryFault? hwritable hancestor).symm.trans hfile)

end Session

/--
An index was created on a schema and closed, whatever had been done with it, and its schema file was
then replaced by a text of another schema, such as the one under which that schema is stored. The
directory is refused, as one whose schema does not match, just when the two lists of fields differ.
Otherwise it opens, for writing or for reading, on the schema that stands there now, and shows the
documents that were committed.
-/
theorem Schema.replaced_opens [Segmenter] (schema another : Schema) :
    Schema.ofText another.toText = .ok another ∧
    ∀ (text : String) (disk created : Disk) (options : IndexOptions) (index : Index),
      Schema.ofText text = .ok another →
      Index.create disk options schema = (created, .ok index) →
      pathOf (options.schemaText index.path) ≠ listPath index.path →
      ∀ calls : List Call,
        let session := Session.run ⟨created, index⟩ (calls ++ [.close])
        let documents := published (Session.events ⟨created, index⟩ (calls ++ [.close]))
        ∃ files, session.disk.files.write (pathOf (options.schemaText index.path)) (.text text) =
            .ok files ∧
          ∀ readOnly,
            let opening := Index.openExisting { session.disk with files := files }
              { options with readOnly := readOnly }
            (opening = .error (.schemaMismatch index.path) ↔
              FieldsDiffer schema.fields another.fields) ∧
            (¬ FieldsDiffer schema.fields another.fields → ∃ after reopened,
              opening = .ok (after, reopened) ∧ reopened.schema = .ok another ∧
                reopened.state =
                  some ⟨another, documents, if readOnly then none else some []⟩) := by
  refine ⟨another.ofText_toText, ?_⟩
  intro text disk created options index hanother hcreate hlist calls session documents
  have hclosed : session.index.state = none := by
    simp only [session, Session.run, List.foldl_append, List.foldl_cons, List.foldl_nil]
    exact Session.state_step_close _
  obtain ⟨files, hwrite⟩ := Session.exists_write_schema hcreate (calls ++ [.close]) text
  have hnodes := Files.node?_of_write hwrite
  have hstored := (hnodes (storePath index.path)).trans
    (if_neg (Index.schemaPath_ne_storePath hcreate).symm)
  have hlisted := (hnodes (listPath index.path)).trans (if_neg hlist.symm)
  have hfolders := Files.sameFolders_of_write hwrite
  have hleads := (hfolders.trans (Session.sameFolders_of_run hcreate _)).leads_iff.mpr
    (Index.leads_of_create hcreate)
  have hread : Index.readSchema files options index.path = .ok another :=
    Index.readSchema_of_text hleads ((hnodes _).trans (if_pos rfl)) hanother
  refine ⟨files, hwrite, fun readOnly => ?_⟩
  intro opening
  have hopened (hstorage : schema.storage = another.storage) :=
    Session.openExisting_of_closed hcreate hlist (calls ++ [.close]) hclosed hfolders hstored
      hlisted hread hstorage readOnly
  refine ⟨?_, ?_⟩
  · constructor
    · intro hmismatch
      by_contra hsame
      obtain ⟨after, hopen⟩ := hopened ((schema.storage_eq_iff another).mpr hsame)
      cases hopen.symm.trans hmismatch
    · intro hdiffer
      obtain ⟨hpath, hopens, hreadable, hfound, -⟩ :=
        Session.parts_of_closed hcreate hlist (calls ++ [.close]) hclosed hfolders hstored hlisted
      exact Index.openExisting_of_mismatch hpath hread hopens hreadable hfound
        fun hstorage => (schema.storage_eq_iff another).mp hstorage hdiffer
  · intro hsame
    obtain ⟨after, hopen⟩ := hopened ((schema.storage_eq_iff another).mpr hsame)
    exact ⟨after, _, hopen, rfl, rfl⟩

/-- The schema of a library with its tokenizer and its search field spelled out. -/
def spelledLibrary : Schema where
  definition :=
    { fields := [{ name := "title", kind := .text, tokenizer := some .standard },
        { name := "year", kind := .i64, fast := true }],
      searchFields := ["title"] }
  checked := rfl

/-- A library without a column for the years. -/
def columnlessLibrary : Schema where
  definition := { fields := [{ name := "title", kind := .text }, { name := "year", kind := .i64 }] }
  checked := rfl

section

attribute [local instance] Segmenter.byRuns

theorem library_replaced : ∃ created index,
    Index.create {} Session.libraryOptions librarySchema = (created, .ok index) ∧
      let closed := (Session.run ⟨created, index⟩
        [.addDocument (novel "emma" 1815), .commit, .close]).disk
      let schemaFile := pathOf (Session.libraryOptions.schemaText "library")
      (∃ files after reopened,
        closed.files.write schemaFile (.text spelledLibrary.toText) = .ok files ∧
        Index.openExisting { closed with files := files } Session.libraryOptions =
          .ok (after, reopened) ∧
        reopened.state = some ⟨spelledLibrary, [novel "emma" 1815], some []⟩) ∧
      ∃ files,
        closed.files.write schemaFile (.text columnlessLibrary.toText) = .ok files ∧
        Index.openExisting { closed with files := files } Session.libraryOptions =
          .error (.schemaMismatch "library") := by
  obtain ⟨created, hcreate, hpublished⟩ : ∃ created,
      Index.create {} Session.libraryOptions librarySchema =
        (created, .ok ⟨"library", {}, some ⟨librarySchema, [], some []⟩⟩) ∧
      published (Session.events ⟨created, ⟨"library", {}, some ⟨librarySchema, [], some []⟩⟩⟩
        [.addDocument (novel "emma" 1815), .commit, .close]) = [novel "emma" 1815] :=
    ⟨_, rfl, by decide⟩
  refine ⟨created, _, hcreate, ?_, ?_⟩
  · obtain ⟨htext, hreplace⟩ := librarySchema.replaced_opens spelledLibrary
    obtain ⟨files, hwrite, hopening⟩ := hreplace _ _ _ _ _ htext hcreate (by decide)
      [.addDocument (novel "emma" 1815), .commit]
    have hsame : ¬ FieldsDiffer librarySchema.fields spelledLibrary.fields :=
      (librarySchema.storage_eq_iff spelledLibrary).mp rfl
    obtain ⟨after, reopened, hopened, -, hstate⟩ := (hopening false).2 hsame
    rw [List.cons_append, List.cons_append, List.nil_append, hpublished] at hstate
    exact ⟨files, after, reopened, hwrite, hopened, hstate⟩
  · obtain ⟨htext, hreplace⟩ := librarySchema.replaced_opens columnlessLibrary
    obtain ⟨files, hwrite, hopening⟩ := hreplace _ _ _ _ _ htext hcreate (by decide)
      [.addDocument (novel "emma" 1815), .commit]
    have hdiffer : FieldsDiffer librarySchema.fields columnlessLibrary.fields :=
      .inr ⟨1, _, _, rfl, rfl, .inr (.inr (.inr (.inr (.inl (by decide)))))⟩
    exact ⟨files, hwrite, (hopening false).1.mpr hdiffer⟩

end

end DocIndex
