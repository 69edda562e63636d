import DocIndex.Proofs.Search.Terms
import DocIndex.Proofs.Text.Edits
import DocIndex.Proofs.Text.Words

/-!
Searching for misspelt words. Each word of the term has to be found, up to its edits, in one of the
fields; a term of which no word is left finds nothing. So what is found depends on nothing but which
words and which fields there are.
-/

namespace DocIndex

namespace Plan

/-- What is left of a piece of a term between white space: its letters and digits, two or more. -/
def IsUsable (term : String) (word : List Char) : Prop :=
  2 ≤ word.length ∧ ∃ piece ∈ term.toList.splitOnP Unicode.isWhiteSpace,
    word = (Text.lower (String.ofList piece)).toList.filter Unicode.isAlphanumeric

theorem mem_usableWords_iff {term : String} {word : List Char} :
    word ∈ usableWords term ↔ IsUsable term word := by
  rw [usableWords, List.mem_filter, decide_eq_true_eq, strippedWords, List.mem_map]
  simp only [Text.mem_words_iff]
  constructor
  · rintro ⟨⟨_, ⟨piece, hpiece, -, rfl⟩, rfl⟩, hlength⟩
    exact ⟨hlength, piece, hpiece, rfl⟩
  · rintro ⟨hlength, piece, hpiece, rfl⟩
    have hsome : piece ≠ [] := by
      rintro rfl
      simp [Text.lower, Text.lowerAfter] at hlength
    exact ⟨⟨_, ⟨piece, hpiece, hsome, rfl⟩, rfl⟩, hlength⟩

theorem admits_fuzzy [Segmenter] {schema : Schema} {document : Document} {id : FieldId}
    {word : String} {distance : Nat} :
    (Criterion.fuzzy id word distance).admits (Entry.ofDocument schema document) = true ↔
      ∃ term, document.HasTerm schema id term ∧
        ∃ n ≤ distance, Text.Edits n word.toList term.toList := by
  rw [Criterion.admits, Entry.any_terms_iff (fun _ => rfl) fun _ => rfl]
  simp only [FieldValue.resembles, Text.withinEdits_iff]

/-- Every word has to be in one of the fields, up to its edits. -/
theorem admits_fuzzyCriteria [Segmenter] {schema : Schema} {document : Document}
    {ids : List FieldId} {words : List FuzzyWord} (hwords : words ≠ []) :
    (fuzzyCriteria ids words).admits (Entry.ofDocument schema document) = true ↔
      ∀ word ∈ words, ∃ id ∈ ids, ∃ term, document.HasTerm schema id term ∧
        ∃ n ≤ word.distance, Text.Edits n word.text.toList term.toList := by
  rw [fuzzyCriteria, Criterion.admits_must (by simpa using hwords), List.forall_mem_map]
  simp only [Criterion.admits_should, List.mem_map, exists_exists_and_eq_and, admits_fuzzy]

theorem compile_fuzzy {schema : Schema} {maxDistance distance : UInt8} {names : List String}
    {ids : List FieldId} (hdistance : distance ≤ min maxDistance distanceCap)
    (htargets : AreTargets schema names ids) (term : String) :
    compile schema maxDistance (.fuzzy term distance names) =
      .ok (if usableWords term = [] then .nothing
        else .fuzzy (fuzzyWords term distance.toNat) ids) := by
  rw [compile, ofQuery, ofFuzzy, if_neg (UInt8.not_lt.mpr hdistance),
    targets_of_areTargets htargets, fuzzyWords_eq]
  cases usableWords term <;> simp

end Plan

namespace Index

variable {index : Index} {state : OpenIndex} {distance : UInt8} {names : List String}
  {ids : List FieldId}

theorem finds_fuzzy [Segmenter] (hopen : index.state = some state)
    (hdistance : distance ≤ min index.settings.maxFuzzyDistance Plan.distanceCap)
    (htargets : Plan.AreTargets state.schema names ids) (term : String) :
    (∃ page, index.query (.fuzzy term distance names) = .ok page) ∧
    ∀ document, document ∈ index.found (.fuzzy term distance names) ↔
      document ∈ state.committed ∧ (∃ word, Plan.IsUsable term word) ∧
      ∀ word, Plan.IsUsable term word →
        ∃ id ∈ ids, ∃ found, document.HasTerm state.schema id found ∧
          ∃ n ≤ if word.length ≤ 5 then min distance.toNat 1 else distance.toNat,
            Text.Edits n word found.toList := by
  have htextless : (QueryDef.fuzzy term distance names).IsTextless := by
    simp [QueryDef.IsTextless, QueryDef.clauses]
  have hplan := Plan.compile_fuzzy hdistance htargets term
  simp only [← Plan.mem_usableWords_iff]
  by_cases hwords : Plan.usableWords term = []
  · rw [if_pos hwords] at hplan
    obtain ⟨hanswered, hfound⟩ := finds_of_compile hopen htextless hplan rfl
    refine ⟨hanswered, fun document => ?_⟩
    simp [hfound, Criterion.admits, hwords]
  · rw [if_neg hwords] at hplan
    obtain ⟨hanswered, hfound⟩ := finds_of_compile hopen htextless hplan rfl
    refine ⟨hanswered, fun document => ?_⟩
    rw [hfound, Plan.admits_fuzzyCriteria (by simpa [Plan.fuzzyWords_eq] using hwords)]
    simp only [Plan.fuzzyWords_eq, List.forall_mem_map, String.toList_ofList,
      List.exists_mem_of_ne_nil _ hwords, true_and]
    exact Iff.rfl

/--
A document is found if every usable word of the term becomes one of its terms by few enough edits,
in whichever of the fields, and if there is a usable word at all. Words of up to five characters
allow one edit at most. Each document is found as often as it was committed. Neither the order of
words or fields nor their repetition matters.
-/
theorem found_fuzzy [Segmenter] (hopen : index.state = some state)
    (hdistance : distance ≤ min index.settings.maxFuzzyDistance Plan.distanceCap)
    (htargets : Plan.AreTargets state.schema names ids) (term : String) :
    (∃ page, index.query (.fuzzy term distance names) = .ok page) ∧
    (∀ document, document ∈ index.found (.fuzzy term distance names) ↔
      document ∈ state.committed ∧ (∃ word, Plan.IsUsable term word) ∧
      ∀ word, Plan.IsUsable term word →
        ∃ id ∈ ids, ∃ found, document.HasTerm state.schema id found ∧
          ∃ n ≤ if word.length ≤ 5 then min distance.toNat 1 else distance.toNat,
            Text.Edits n word found.toList) ∧
    ((¬∃ word, Plan.IsUsable term word) → index.found (.fuzzy term distance names) = ∅) ∧
    (∃ hits, index.ranking (.fuzzy term distance names) = .ok hits ∧
      ∀ document ∈ index.found (.fuzzy term distance names),
        (hits.map (·.2)).count document = state.committed.count document) ∧
    ∀ other others, (∀ word, Plan.IsUsable other word ↔ Plan.IsUsable term word) →
      (∀ name, name ∈ others ↔ name ∈ names) →
      (∃ page, index.query (.fuzzy other distance others) = .ok page) ∧
      index.found (.fuzzy other distance others) = index.found (.fuzzy term distance names) := by
  obtain ⟨hanswered, hfound⟩ := finds_fuzzy hopen hdistance htargets term
  refine ⟨hanswered, hfound, ?_, exists_ranking_of_answered hopen hanswered, ?_⟩
  · intro hnone
    ext document
    simp only [hfound, hnone, false_and, and_false, Set.mem_empty_iff_false]
  · intro other others hwords hnames
    obtain ⟨otherIds, hothers, hids⟩ := htargets.exists_of_same_names hnames
    obtain ⟨hanswered', hfound'⟩ := finds_fuzzy hopen hdistance hothers other
    refine ⟨hanswered', ?_⟩
    ext document
    simp only [hfound, hfound', hwords, hids]

end Index

section

attribute [local instance] Segmenter.byRuns

/-- Two letters of a short word that have changed places are the one edit that is allowed. -/
theorem library_found_misspelt : openLibrary.state = some libraryState ∧
    (2 : UInt8) ≤ min ({} : Settings).maxFuzzyDistance Plan.distanceCap ∧
    Plan.AreTargets librarySchema ["title"] [0] ∧
    novel "emma" 1815 ∈ openLibrary.found (.fuzzy "Em-am !" 2 ["title"]) ∧
    novel "dracula" 1897 ∉ openLibrary.found (.fuzzy "Em-am !" 2 ["title"]) := by
  have hopen : openLibrary.state = some libraryState := rfl
  have hdistance : (2 : UInt8) ≤ min ({} : Settings).maxFuzzyDistance Plan.distanceCap := by decide
  have htargets : Plan.AreTargets librarySchema ["title"] [0] :=
    Plan.areTargets_of_targets rfl
  have hwords (word : List Char) : Plan.IsUsable "Em-am !" word ↔ word = ['e', 'm', 'a', 'm'] := by
    rw [← Plan.mem_usableWords_iff]
    exact List.mem_singleton
  have hfound := (Index.found_fuzzy hopen hdistance htargets "Em-am !").2.1
  refine ⟨hopen, hdistance, htargets, ?_, ?_⟩
  · rw [hfound]
    refine ⟨by decide, ⟨_, (hwords _).mpr rfl⟩, fun word hword => ?_⟩
    obtain rfl := (hwords word).mp hword
    have hterm : (novel "emma" 1815).HasTerm librarySchema 0 "emma" :=
      Entry.mem_terms_iff.mp (by decide)
    exact ⟨0, List.mem_cons_self, "emma", hterm, 1, by decide,
      .keep _ (.keep _ (.swap _ _ .nothing))⟩
  · rw [hfound]
    rintro ⟨-, -, hall⟩
    obtain ⟨id, hid, found, hterm, n, hn, hedits⟩ := hall _ ((hwords _).mpr rfl)
    obtain rfl := List.mem_singleton.mp hid
    have hmem : .text found ∈ [FieldValue.text "dracula"] := Entry.mem_terms_iff.mpr hterm
    obtain rfl : found = "dracula" := by simpa using hmem
    have hlength := hedits.length_le.2
    have hone : n ≤ 1 := hn
    simp at hlength
    omega

end

end DocIndex
