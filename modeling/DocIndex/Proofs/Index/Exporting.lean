import DocIndex.Proofs.Document.Row
import DocIndex.Proofs.Index.Session
import DocIndex.Proofs.Json.Outline
import DocIndex.Proofs.Text.Bytes

/-!
The texts of rows. The text of a page begins with the texts of its rows, and in each of these the
keys ascend: a row is put together in the order of the schema, with the score last, but the object
that it is put into does not keep that order.
-/

namespace DocIndex

open Json (memberText)

/-! The order of keys -/

/-- A row shows the field at a position: it is stored, and the document has a value of its kind. -/
def Document.shows (document : Document) (field : FieldDef) (id : FieldId) : Bool :=
  field.stored && (document.value? id).any fun value => value.kind = field.kind

/-- The names of the fields that a row shows, in the order of the schema. -/
def Document.shownNames (schema : Schema) (document : Document) : List String :=
  (schema.fields.zipIdx.filter fun entry => document.shows entry.1 entry.2).map (·.1.name)

/-- The names ascend by their bytes. -/
def NamesAscend (names : List String) : Prop :=
  names.Pairwise fun name other => Text.bytes name < Text.bytes other

theorem ascending_iff_namesAscend {members : List (String × Json)} :
    Json.Ascending members ↔ NamesAscend (members.map (·.1)) := by
  rw [NamesAscend, List.pairwise_map, Json.Ascending]
  simp only [Text.lt_iff_bytes_lt]

namespace Document

variable {document : Document} {field : FieldDef} {id : FieldId}

theorem shows_eq : document.shows field id =
    (field.stored && ((document.value? id).bind (FieldValue.shown? field.kind)).isSome) := by
  unfold shows
  cases document.value? id with
  | none => rfl
  | some value =>
      rw [Option.any_some, Option.bind_some, FieldValue.shown?]
      split <;> simp_all

theorem keys_storedMembers (document : Document) (id : FieldId) (fields : List FieldDef) :
    (storedMembers document id fields).map (·.1) =
      ((fields.zipIdx id).filter fun entry => document.shows entry.1 entry.2).map
        (·.1.name) := by
  induction fields generalizing id with
  | nil => rfl
  | cons field rest ih =>
      rw [List.zipIdx_cons, List.filter_cons]
      dsimp only
      rw [shows_eq, storedMembers]
      cases field.stored with
      | false => exact ih (id + 1)
      | true =>
          cases (document.value? id).bind (FieldValue.shown? field.kind) with
          | none => exact ih (id + 1)
          | some json => exact congrArg _ (ih (id + 1))

theorem exists_field_of_mem_shownNames {schema : Schema} {name : String}
    (hname : name ∈ document.shownNames schema) : ∃ field ∈ schema.fields, field.name = name := by
  obtain ⟨⟨field, id⟩, hentry, rfl⟩ := List.mem_map.mp hname
  have hfield := List.mem_zipIdx_iff_getElem?.mp (List.mem_of_mem_filter hentry)
  exact ⟨field, List.mem_of_getElem? hfield, rfl⟩

/-- The members of a row, in the order in which it is put together. -/
def rowMembers (schema : Schema) (document : Document) (score : Float32) : List (String × Json) :=
  storedMembers document 0 schema.fields ++ [(scoreKey, scoreJson score)]

theorem keys_rowMembers (schema : Schema) (document : Document) (score : Float32) :
    (document.rowMembers schema score).map (·.1) = document.shownNames schema ++ [scoreKey] := by
  rw [rowMembers, List.map_append, keys_storedMembers]
  rfl

theorem nodup_rowMembers (schema : Schema) (document : Document) (score : Float32) :
    ((document.rowMembers schema score).map (·.1)).Nodup := by
  rw [rowMembers, List.map_append, List.nodup_append]
  refine ⟨schema.nodup_storedMembers document, List.nodup_singleton _, ?_⟩
  intro name hname other hother
  obtain ⟨member, hmember, rfl⟩ := List.mem_map.mp hname
  obtain rfl := List.mem_singleton.mp hother
  exact Schema.name_of_mem_storedMembers hmember

end Document

/-! The text of a page -/

/-- The text of a page begins with those of its rows. -/
theorem Page.toList_toText (page : Page) :
    ∃ counts, page.toText.toList = "\x7b\"results\":[".toList ++
      ([','].intercalate (page.rows.map fun row => row.compact.toList) ++ ']' :: counts) := by
  rw [toText, toJson, Json.compact_object, List.map_cons, List.map_cons,
    List.intercalate_cons_cons, memberText, Json.compact_array]
  exact ⟨_, by simp [Json.quotedText, Json.escapeChar]; rfl⟩

namespace Index

/-- The text of an answer is that of a page, which shows some of the committed documents. -/
theorem page_of_searchText [Segmenter] {index : Index} {state : OpenIndex} {text output : String}
    (hstate : index.state = some state) (hsearch : index.searchText text = .ok output) :
    ∃ (page : Page) (hits : List Hit), index.search text = .ok page ∧ output = page.toText ∧
      (hits.map (·.2)).Subperm state.committed ∧ page.rows = rowsOf state.schema hits := by
  obtain ⟨page, hpage, rfl⟩ := map_eq_ok_iff.mp hsearch
  have hanswer := hpage
  unfold search at hanswer
  split at hanswer
  · contradiction
  · obtain ⟨hits, hcommitted, hrows⟩ := rows_of_answer hstate hanswer
    exact ⟨page, hits, hpage, rfl, hcommitted, hrows⟩

/--
In the text that answers a search, the text of each row holds the fields that the row shows and the
score, each once, in the ascending order of their keys. It holds them in the order of the schema,
the score last, just when their names happen to ascend in that order.
-/
theorem rows_in_key_order [Segmenter] {index : Index} {state : OpenIndex} {text output : String}
    (hstate : index.state = some state) (hsearch : index.searchText text = .ok output) :
    ∃ (page : Page) (hits : List Hit) (counts : List Char), index.search text = .ok page ∧
      (hits.map (·.2)).Subperm state.committed ∧ page.rows = rowsOf state.schema hits ∧
      output.toList = "\x7b\"results\":[".toList ++
        ([','].intercalate (page.rows.map fun row => row.compact.toList) ++ ']' :: counts) ∧
      ∀ hit ∈ hits, ∃ members : List (String × Json),
        (hit.2.row state.schema hit.1).compact.toList =
          '{' :: ([','].intercalate (members.map memberText) ++ ['}']) ∧
        (members.map (·.1)).Perm (hit.2.shownNames state.schema ++ [scoreKey]) ∧
        NamesAscend (members.map (·.1)) ∧
        (members.map (·.1) = hit.2.shownNames state.schema ++ [scoreKey] ↔
          NamesAscend (hit.2.shownNames state.schema ++ [scoreKey])) := by
  obtain ⟨page, hits, hpage, rfl, hcommitted, hrows⟩ := page_of_searchText hstate hsearch
  obtain ⟨counts, htext⟩ := page.toList_toText
  refine ⟨page, hits, counts, hpage, hcommitted, hrows, htext, ?_⟩
  rintro ⟨score, document⟩ -
  have hkeys := document.keys_rowMembers state.schema score
  refine ⟨Json.sortMembers (document.rowMembers state.schema score), Json.compact_object _,
    ?_, ?_, ?_⟩
  · rw [← hkeys]
    exact (Json.sortMembers_perm (document.nodup_rowMembers state.schema score)).map _
  · exact ascending_iff_namesAscend.mp (Json.ascending_sortMembers _)
  · rw [← hkeys, Json.keys_sortMembers_eq_iff, ascending_iff_namesAscend]

def shelfIndex (schema : Schema) (document : Document) : Index :=
  ⟨"shelf", {}, some ⟨schema, [document], none⟩⟩

/-- A request for all documents. -/
def allText : String :=
  "\x7b\"type\": \"all\"\x7d"

theorem hits_of_rows {schema : Schema} {document : Document} {hits : List Hit} {rows : List Json}
    (hcommitted : (hits.map (·.2)).Subperm [document]) (hrows : rows = rowsOf schema hits)
    (hone : rows.length = 1) : ∃ score, hits = [(score, document)] := by
  rw [hrows, rowsOf, List.length_map] at hone
  obtain ⟨⟨score, found⟩, rfl⟩ := List.length_eq_one_iff.mp hone
  obtain rfl := List.mem_singleton.mp (hcommitted.subset List.mem_cons_self)
  exact ⟨score, rfl⟩

theorem shelf_searched [Segmenter] {schema : Schema} {document : Document}
    (hone : ((shelfIndex schema document).search allText).toOption.map (·.rows.length) = some 1) :
    ∃ (page : Page) (score : Float32), (shelfIndex schema document).search allText = .ok page ∧
      (shelfIndex schema document).searchText allText = .ok page.toText ∧
      page.rows = [document.row schema score] := by
  obtain ⟨page, hpage, hlength⟩ := Option.map_eq_some_iff.mp hone
  rw [toOption_eq_some_iff] at hpage
  have hsearch : (shelfIndex schema document).searchText allText = .ok page.toText := by
    rw [searchText, hpage]
    rfl
  obtain ⟨found, hits, hfound, -, hcommitted, hrows⟩ := page_of_searchText rfl hsearch
  obtain rfl := Except.ok.inj (hfound.symm.trans hpage)
  obtain ⟨score, rfl⟩ := hits_of_rows hcommitted hrows hlength
  exact ⟨found, score, hpage, hsearch, hrows⟩

/-- Titles and years under names that begin with capitals. -/
def capitalSchema : Schema where
  definition := { fields := [{ name := "Title", kind := .text }, { name := "Year", kind := .i64 }] }
  checked := rfl

section

attribute [local instance] Segmenter.byRuns

/-- Capitals come before the mark with which the key of the score begins. -/
theorem capitals_in_order : ∃ (page : Page) (members : List (String × Json)),
    (shelfIndex capitalSchema (novel "emma" 1815)).searchText allText = .ok page.toText ∧
      page.rows.map (·.compact.toList) =
        ['{' :: ([','].intercalate (members.map memberText) ++ ['}'])] ∧
      members.map (·.1) = ["Title", "Year", "_score"] := by
  obtain ⟨page, score, hpage, hsearch, hrows⟩ :=
    @shelf_searched _ capitalSchema (novel "emma" 1815) (by decide +kernel)
  obtain ⟨found, hits, counts, hfound, hcommitted, hshown, -, hmembers⟩ :=
    rows_in_key_order rfl hsearch
  obtain rfl := Except.ok.inj (hpage.symm.trans hfound)
  obtain ⟨shown, rfl⟩ := hits_of_rows hcommitted hshown (congrArg List.length hrows)
  obtain ⟨members, htext, -, -, hordered⟩ := hmembers _ List.mem_cons_self
  refine ⟨page, members, hsearch, ?_, hordered.mpr ?_⟩
  · rw [hshown, rowsOf, List.map_singleton, List.map_singleton, htext]
  · show NamesAscend ["Title", "Year", "_score"]
    unfold NamesAscend
    decide

/-- Small letters come after it, so the score stands first. -/
theorem score_stands_first : ∃ (output : String) (score : Float32) (counts : List Char),
    (shelfIndex librarySchema (novel "emma" 1815)).searchText allText = .ok output ∧
      output.toList = "\x7b\"results\":[\x7b".toList ++
        ([','].intercalate (List.map memberText [("_score", scoreJson score),
          ("title", .string "emma"), ("year", .integer 1815)]) ++ '}' :: ']' :: counts) ∧
      (novel "emma" 1815).shownNames librarySchema = ["title", "year"] := by
  obtain ⟨page, score, -, hsearch, hrows⟩ :=
    @shelf_searched _ librarySchema (novel "emma" 1815) (by decide +kernel)
  have hrow : (novel "emma" 1815).row librarySchema score = .object [("_score", scoreJson score),
      ("title", .string "emma"), ("year", .integer 1815)] := by
    have hstored : storedMembers (novel "emma" 1815) 0 librarySchema.fields =
        [("title", .string "emma"), ("year", .integer 1815)] := rfl
    rw [Document.row, hstored]
    simp (disch := decide) only [Json.sortMembers, List.cons_append, List.nil_append, List.foldl,
      Json.insertMember_nil, Json.insertMember_of_gt, Json.insertMember_of_lt, scoreKey]
  obtain ⟨counts, htext⟩ := page.toList_toText
  refine ⟨_, score, counts, hsearch, ?_, rfl⟩
  rw [htext, hrows, List.map_singleton, List.intercalate_singleton, hrow, Json.compact_object]
  simp

end

end Index

end DocIndex
