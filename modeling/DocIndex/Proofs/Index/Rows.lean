import DocIndex.Proofs.Document.Row
import DocIndex.Proofs.Index.Session

/-!
Rows that searches give. After a document was added as a text and then committed, each row that a
search shows of it is the one that its text asks for, also when it is made from what a store gives
back of the document.
-/

namespace DocIndex

namespace Session

/-- The rows of a page are those of committed documents. -/
theorem hits_of_perform [Segmenter] {session next : Session} {call : Call} {page : Page}
    (hperform : session.perform call = .ok (next, .page page)) :
    ∃ (state : OpenIndex) (hits : List Hit), session.index.state = some state ∧
      (hits.map (·.2)).Subperm state.committed ∧ page.rows = rowsOf state.schema hits := by
  have hanswer : ∃ request, session.index.answer request = .ok page := by
    cases call with
    | search text =>
        obtain ⟨found, hsearch, hresult⟩ := map_eq_ok_iff.mp hperform
        obtain rfl := Reply.page.inj (Prod.mk.inj hresult).2
        unfold Index.search at hsearch
        split at hsearch
        · contradiction
        · exact ⟨_, hsearch⟩
    | ask request =>
        obtain ⟨found, hanswer, hresult⟩ := map_eq_ok_iff.mp hperform
        obtain rfl := Reply.page.inj (Prod.mk.inj hresult).2
        exact ⟨request, hanswer⟩
    | add | addDocument | commit | rollback | size | close | reopen =>
        obtain ⟨_, -, hresult⟩ := map_eq_ok_iff.mp hperform
        cases (Prod.mk.inj hresult).2
  obtain ⟨request, hanswer⟩ := hanswer
  cases hstate : session.index.state with
  | none => simp [Index.answer, Index.sought, Index.opened, hstate] at hanswer
  | some state =>
      obtain ⟨hits, hcommitted, hrows⟩ := Index.rows_of_answer hstate hanswer
      exact ⟨state, hits, rfl, hcommitted, hrows⟩

/-- The history tells of a text that was added by the document that it means. -/
theorem event_of_add [Segmenter] {session next : Session} {text : String} {reply : Reply}
    (hadd : session.perform (.add text) = .ok (next, reply)) :
    ∃ document, session.index.documentOf? text = some document ∧
      session.event (.add text) = .added document := by
  obtain ⟨index, hindex, -⟩ := map_eq_ok_iff.mp hadd
  obtain ⟨document, hdocument, -⟩ := Index.add_eq_ok hindex
  refine ⟨document, hdocument, ?_⟩
  rw [event, hadd]
  simp only [Call.effect, hdocument, Option.elim_some]

/--
After a text was added to an index and then committed, the document that it means is among those
that searches look at. Its row shows the score, and beside it what the text gives to the stored
fields and nothing else; and each page that a search gives is made of the rows of its hits, whether
these are taken as they were added or as a store gives them back.
-/
theorem run_shows_rows [Segmenter] {disk created : Disk} {options : IndexOptions} {schema : Schema}
    {index : Index} (hcreate : Index.create disk options schema = (created, .ok index))
    {store : Document → Document} (hstore : ∀ document, schema.Keeps document (store document))
    (before : List Call) {text : String} {next : Session} {reply : Reply}
    (hadd : (run ⟨created, index⟩ before).perform (.add text) = .ok (next, reply))
    (after : List Call) (hcommit : commitsFirst (next.events after) = true) :
    let session := next.run after
    ∃ members document, Json.read text = .ok (.object members) ∧
      (run ⟨created, index⟩ before).index.documentOf? text = some document ∧
      (∀ state, session.index.state = some state → document ∈ state.committed) ∧
      (∀ score, ∃ shown, document.row schema score = .object shown ∧
        IsRow schema.fields members score shown) ∧
      ∀ call last page, session.perform call = .ok (last, .page page) →
        ∃ (state : OpenIndex) (hits : List Hit), session.index.state = some state ∧
          (hits.map (·.2)).Subperm state.committed ∧ page.rows = rowsOf schema hits ∧
          page.rows = hits.map fun hit => (store hit.2).row schema hit.1 := by
  intro session
  have hfounded := (Index.founded_of_create hcreate).1
  have hbefore := (tracks_of_create hcreate).run hfounded before
  have hnext := hbefore.step hfounded (.add text)
  obtain ⟨document, hdocument, hevent⟩ := event_of_add hadd
  rw [step_of_ok hadd, hevent] at hnext
  have htracks : Tracks created index.path schema _ session := hnext.run hfounded after
  obtain ⟨state, hstate, htext⟩ := Index.exists_of_documentOf? hdocument
  obtain ⟨hstorage, -⟩ := hbefore.opened state hstate
  obtain ⟨members, hread, hrow⟩ := Document.isRow_of_ofText htext
  refine ⟨members, document, hread, hdocument, ?_, ?_, ?_⟩
  · intro other hother
    rw [(htracks.opened other hother).2.1, List.append_assoc]
    exact mem_published hcommit document _
  · intro score
    obtain ⟨shown, hshown, hisRow⟩ := hrow score
    rw [← Schema.row_of_storage_eq hstorage]
    exact ⟨shown, hshown, Schema.isRow_of_storage_eq hstorage hisRow⟩
  · intro call last page hperform
    obtain ⟨other, hits, hother, hcommitted, hrows⟩ := hits_of_perform hperform
    have hsame : page.rows = rowsOf schema hits := by
      rw [hrows]
      apply List.map_congr_left
      intro hit _
      exact Schema.row_of_storage_eq (htracks.opened other hother).1 hit.2 hit.1
    refine ⟨other, hits, hother, hcommitted, hsame, ?_⟩
    rw [hsame]
    apply List.map_congr_left
    intro hit _
    exact ((hstore hit.2).row hit.1).symm

/-- Reviews of novels: their words can be looked up, but are not stored. -/
def reviewSchema : Schema where
  definition :=
    { fields := [{ name := "novel", kind := .text },
        { name := "words", kind := .text, stored := false }, { name := "year", kind := .i64 },
        { name := "rating", kind := .f64 }] }
  checked := rfl

/-- The year is given twice, and no field has the name of the last key. -/
def reviewText : String :=
  "\x7b\"year\": 1815, \"words\": \"Witty\", \"novel\": \"Emma\", \"rating\": 9, " ++
    "\"year\": 1816, \"by\": null\x7d"

def reviewDocument : Document :=
  ⟨[(0, .text "Emma"), (1, .text "Witty"), (2, .i64 1816), (3, .f64 9)], ["by"]⟩

theorem ofText_reviewText :
    Document.ofText reviewSchema reviewText false = .ok reviewDocument :=
  toOption_eq_some_iff.mp (by decide +kernel)

theorem row_reviewDocument (score : Float32) : reviewDocument.row reviewSchema score =
    .object [(scoreKey, scoreJson score), ("novel", .string "Emma"), ("rating", .float 9),
      ("year", .integer 1816)] := by
  have hrating : FieldValue.toJson (.f64 9) = .float 9 := by
    have hfinite : (9 : Float).isFinite = true := by decide +kernel
    rw [FieldValue.toJson, Json.ofFloat, if_pos hfinite]
  have hstored : storedMembers reviewDocument 0 reviewSchema.fields =
      [("novel", .string "Emma"), ("year", .integer 1816), ("rating", .float 9)] := by
    rw [← hrating]
    rfl
  rw [Document.row, hstored]
  simp (disch := decide) only [Json.sortMembers, List.cons_append, List.nil_append, List.foldl,
    Json.insertMember_nil, Json.insertMember_of_gt, Json.insertMember_of_lt, scoreKey]

section

attribute [local instance] Segmenter.byRuns

/-- The review is added and committed, and it is what a search for everything finds. -/
theorem review_added : ∃ created index next,
    Index.create {} libraryOptions reviewSchema = (created, .ok index) ∧
      (run ⟨created, index⟩ []).perform (.add reviewText) = .ok (next, .done) ∧
      commitsFirst (next.events [.commit]) = true ∧
      (next.run [.commit]).index.state.map (·.committed) = some [reviewDocument] ∧
      ((next.run [.commit]).index.answer ⟨.all, none, 0⟩).toOption.map (·.rows.length) =
        some 1 := by
  have hcreate : Index.create {} libraryOptions reviewSchema = (_, .ok _) := rfl
  refine ⟨_, _, _, hcreate, perform_add rfl rfl ofText_reviewText, ?_, ?_, ?_⟩
  all_goals decide +kernel

theorem review_shown : ∃ created index next,
    Index.create {} libraryOptions reviewSchema = (created, .ok index) ∧
      (run ⟨created, index⟩ []).perform (.add reviewText) = .ok (next, .done) ∧
      commitsFirst (next.events [.commit]) = true ∧ ∃ page score,
        (next.run [.commit]).perform (.ask ⟨.all, none, 0⟩) =
          .ok (next.run [.commit], .page page) ∧
        page.rows = [.object [(scoreKey, scoreJson score), ("novel", .string "Emma"),
          ("rating", .float 9), ("year", .integer 1816)]] := by
  obtain ⟨created, index, next, hcreate, hadd, hcommit, hcommitted, hanswer⟩ := review_added
  obtain ⟨-, -, -, -, -, -, hpages⟩ :=
    run_shows_rows hcreate reviewSchema.keeps_kept [] hadd [.commit] hcommit
  obtain ⟨page, hpage, hlength⟩ := Option.map_eq_some_iff.mp hanswer
  have hperform : (next.run [.commit]).perform (.ask ⟨.all, none, 0⟩) =
      .ok (next.run [.commit], .page page) := by
    rw [perform, toOption_eq_some_iff.mp hpage]
    rfl
  obtain ⟨state, hits, hstate, hsubperm, hrows, -⟩ := hpages _ _ _ hperform
  obtain ⟨hit, rfl⟩ : ∃ hit, hits = [hit] := by
    rw [hrows, rowsOf, List.length_map] at hlength
    exact List.length_eq_one_iff.mp hlength
  have hdocument : hit.2 = reviewDocument := by
    have hall : state.committed = [reviewDocument] := by simpa [hstate] using hcommitted
    rw [hall] at hsubperm
    exact List.mem_singleton.mp (hsubperm.subset List.mem_cons_self)
  refine ⟨created, index, next, hcreate, hadd, hcommit, page, hit.1, hperform, ?_⟩
  rw [hrows, rowsOf, List.map_singleton, hdocument, row_reviewDocument]

end

end Session

end DocIndex
