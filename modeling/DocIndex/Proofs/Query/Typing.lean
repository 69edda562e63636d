import DocIndex.Proofs.Schema.Fields
import DocIndex.Query.Plan

/-!
Well-typed plans. A plan that comes of a query has the shape of the query, and every node of it fits
the schema: its fields are those that the query names, of the kind that the node needs, and kept in
the way that it needs; its words, beginnings and bounds are such that a search can use them.
-/

namespace DocIndex

/-! Words -/

theorem Unicode.lowerChar_ne_nil (ch : Char) : lowerChar ch ≠ [] := by
  unfold lowerChar
  split
  · simp
  · split
    · simp
    · split <;> simp

theorem Text.lower_ne_empty {s : String} (hs : s ≠ "") : lower s ≠ "" := by
  intro hlower
  have hlist : lowerAfter [] s.toList = [] := by
    have := congrArg String.toList hlower
    simpa [lower] using this
  cases hchars : s.toList with
  | nil => exact hs (String.toList_eq_nil_iff.mp hchars)
  | cons ch rest =>
      rw [hchars, lowerAfter, List.append_eq_nil_iff] at hlist
      have hfirst := hlist.1
      split at hfirst
      · split at hfirst <;> contradiction
      · exact Unicode.lowerChar_ne_nil ch hfirst

namespace Plan

/-- The words of a term in lower case, less what is neither letter nor digit. -/
def strippedWords (term : String) : List (List Char) :=
  (Text.words term).map fun word => (Text.lower word).toList.filter Unicode.isAlphanumeric

/-- The words of a term of which two characters or more remain. -/
def usableWords (term : String) : List (List Char) :=
  (strippedWords term).filter fun word => 2 ≤ word.length

theorem fuzzyWords_eq (term : String) (distance : Nat) :
    fuzzyWords term distance =
      (usableWords term).map fun word => ⟨String.ofList word, wordDistance distance word⟩ := by
  simp only [fuzzyWords, usableWords, strippedWords]
  induction Text.words term with
  | nil => rfl
  | cons word rest ih =>
      rw [List.map_cons, List.filterMap_cons, List.filter_cons, ih]
      by_cases hlength : 2 ≤ ((Text.lower word).toList.filter Unicode.isAlphanumeric).length
      · simp [hlength, Nat.lt_iff_add_one_le]
      · simp [hlength, Nat.lt_iff_add_one_le]

end Plan

/-- A word and its edits, as a search for misspelt words may have them. -/
structure FuzzyWord.Fits (cap requested : UInt8) (word : FuzzyWord) : Prop where
  alphanumeric : ∀ ch ∈ word.text.toList, Unicode.isAlphanumeric ch = true
  length : 2 ≤ word.text.toList.length
  distance : word.distance ≤ min requested.toNat (min cap.toNat 2)
  short : word.text.toList.length ≤ 5 → word.distance ≤ 1

theorem Plan.fits_of_mem_fuzzyWords {cap requested : UInt8} {term : String} {word : FuzzyWord}
    (hrequested : requested ≤ min cap distanceCap)
    (hword : word ∈ fuzzyWords term requested.toNat) : word.Fits cap requested := by
  have hbound : requested.toNat ≤ min cap.toNat 2 := by
    rw [show min cap distanceCap = if cap ≤ distanceCap then cap else distanceCap from rfl]
      at hrequested
    split at hrequested <;> rename_i hcap <;>
      simp only [UInt8.le_iff_toNat_le, distanceCap, UInt8.reduceToNat] at hrequested hcap <;>
      omega
  rw [fuzzyWords_eq, List.mem_map] at hword
  obtain ⟨kept, hkept, rfl⟩ := hword
  rw [usableWords, List.mem_filter, decide_eq_true_eq] at hkept
  have hdistance : wordDistance requested.toNat kept ≤ requested.toNat := by
    unfold wordDistance
    split <;> omega
  constructor
  · intro ch hch
    obtain ⟨word, -, rfl⟩ := List.mem_map.mp hkept.1
    rw [String.toList_ofList] at hch
    exact (List.mem_filter.mp hch).2
  · rw [String.toList_ofList]
    exact hkept.2
  · exact Nat.le_min.mpr ⟨hdistance, Nat.le_trans hdistance hbound⟩
  · intro hshort
    rw [String.toList_ofList] at hshort
    have hone : wordDistance requested.toNat kept = min requested.toNat 1 := if_pos hshort
    exact Nat.le_trans (Nat.le_of_eq hone) (Nat.min_le_right _ _)

namespace Plan

/-- Fields as a full-text query names them; one that names none means the default fields. -/
structure AreTargets (schema : Schema) (names : List String) (ids : List FieldId) : Prop where
  nonempty : ids ≠ []
  searchable : ∀ id ∈ ids, schema.Searchable id
  named : names ≠ [] → List.Forall₂ schema.Names names ids
  default : names = [] → schema.AreDefaults ids

theorem searchable_of_textField {schema : Schema} {name : String} {id : FieldId}
    (hfield : textField schema name = .ok id) :
    schema.Names name id ∧ schema.Searchable id := by
  rw [textField] at hfield
  split at hfield
  · contradiction
  · rename_i position field hlookup
    obtain ⟨hget, hnames⟩ := Schema.lookup?_eq_some hlookup
    split at hfield
    · contradiction
    · rename_i hkind
      split at hfield
      · contradiction
      · rename_i hindexed
        obtain rfl := Except.ok.inj hfield
        refine ⟨hnames, field, hget, ?_⟩
        simp only [ne_eq, not_not] at hkind
        simpa [FieldDef.isSearchable, hkind] using hindexed

theorem searchable_of_textFieldsOf {schema : Schema} {names : List String} {ids : List FieldId}
    (hfields : textFieldsOf schema names = .ok ids) :
    List.Forall₂ schema.Names names ids ∧ ∀ id ∈ ids, schema.Searchable id := by
  induction names generalizing ids with
  | nil =>
      obtain rfl := Except.ok.inj hfields
      simp
  | cons name rest ih =>
      rw [textFieldsOf] at hfields
      split at hfields
      · contradiction
      · rename_i id hfield
        split at hfields
        · contradiction
        · rename_i others hothers
          obtain rfl := Except.ok.inj hfields
          obtain ⟨hname, hsearchable⟩ := searchable_of_textField hfield
          obtain ⟨hnames, hall⟩ := ih hothers
          refine ⟨.cons hname hnames, ?_⟩
          intro other hother
          rcases List.mem_cons.mp hother with rfl | hmem
          · exact hsearchable
          · exact hall other hmem

/-- What a full-text query looks at is what it names, and there is something to look at. -/
theorem areTargets_of_targets {schema : Schema} {names : List String} {ids : List FieldId}
    (htargets : targets schema names = .ok ids) : AreTargets schema names ids := by
  cases names with
  | nil =>
      obtain ⟨hdefaults, hsearchable⟩ := schema.targets_areDefaults
      rw [targets] at htargets
      split at htargets
      · contradiction
      · rename_i hsome
        obtain rfl := Except.ok.inj htargets
        exact ⟨hsome, hsearchable, fun h => absurd rfl h, fun _ => hdefaults⟩
  | cons name rest =>
      obtain ⟨hnames, hsearchable⟩ := searchable_of_textFieldsOf htargets
      refine ⟨?_, hsearchable, fun _ => hnames, fun h => absurd h (List.cons_ne_nil _ _)⟩
      rintro rfl
      cases hnames

theorem textField_of_searchable {schema : Schema} {name : String} {id : FieldId}
    (hnames : schema.Names name id) (hid : schema.Searchable id) :
    textField schema name = .ok id := by
  obtain ⟨field, hfield, hsearchable⟩ := hid
  obtain ⟨other, hother, rfl⟩ := (hnames id).mpr rfl
  obtain rfl := Option.some.inj (hother.symm.trans hfield)
  rw [FieldDef.isSearchable_iff] at hsearchable
  simp [textField, Schema.lookup?_of_field? hfield, hsearchable.1, hsearchable.2]

theorem textFieldsOf_of_searchable {schema : Schema} {names : List String} {ids : List FieldId}
    (hnames : List.Forall₂ schema.Names names ids) (hids : ∀ id ∈ ids, schema.Searchable id) :
    textFieldsOf schema names = .ok ids := by
  induction hnames with
  | nil => rfl
  | cons hname _ ih =>
      rw [List.forall_mem_cons] at hids
      simp only [textFieldsOf, textField_of_searchable hname hids.1, ih hids.2]

/-- Fields as a query names them are the ones that it looks at. -/
theorem targets_of_areTargets {schema : Schema} {names : List String} {ids : List FieldId}
    (hids : AreTargets schema names ids) : targets schema names = .ok ids := by
  cases names with
  | nil =>
      obtain rfl := schema.targets_areDefaults.1.unique (hids.default rfl)
      rw [targets]
      split
      · exact absurd ‹_› hids.nonempty
      · rfl
  | cons name rest =>
      exact textFieldsOf_of_searchable (hids.named (List.cons_ne_nil _ _)) hids.searchable

theorem exists_names_of_forall₂ {schema : Schema} {names : List String} {ids : List FieldId}
    (hnames : List.Forall₂ schema.Names names ids) :
    ∀ name ∈ names, ∃ id, schema.Names name id := by
  induction hnames with
  | nil => simp
  | cons hname _ ih => exact List.forall_mem_cons.mpr ⟨⟨_, hname⟩, ih⟩

theorem exists_forall₂_names {schema : Schema} {names : List String}
    (hnames : ∀ name ∈ names, ∃ id, schema.Names name id) :
    ∃ ids, List.Forall₂ schema.Names names ids := by
  induction names with
  | nil => exact ⟨[], .nil⟩
  | cons name rest ih =>
      rw [List.forall_mem_cons] at hnames
      obtain ⟨id, hid⟩ := hnames.1
      obtain ⟨ids, hids⟩ := ih hnames.2
      exact ⟨id :: ids, .cons hid hids⟩

theorem mem_iff_of_forall₂_names {schema : Schema} {names : List String} {ids : List FieldId}
    (hnames : List.Forall₂ schema.Names names ids) (id : FieldId) :
    id ∈ ids ↔ ∃ name ∈ names, schema.Names name id := by
  induction hnames with
  | nil => simp
  | @cons name first _ _ hname _ ih =>
      have hfirst : schema.Names name id ↔ id = first := by
        constructor
        · exact fun hid => hid.unique hname
        · rintro rfl
          exact hname
      simp [hfirst, ih]

/-- The order and the repetition of names mean nothing to the fields that they name. -/
theorem AreTargets.exists_of_same_names {schema : Schema} {names others : List String}
    {ids : List FieldId} (hids : AreTargets schema names ids)
    (hothers : ∀ name, name ∈ others ↔ name ∈ names) :
    ∃ otherIds, AreTargets schema others otherIds ∧ ∀ id, id ∈ otherIds ↔ id ∈ ids := by
  have hnil : others = [] ↔ names = [] := by
    simp only [List.eq_nil_iff_forall_not_mem, hothers]
  by_cases hdefault : names = []
  · refine ⟨ids, ⟨hids.nonempty, hids.searchable, ?_, fun _ => hids.default hdefault⟩,
      fun _ => Iff.rfl⟩
    exact fun hsome => absurd (hnil.mpr hdefault) hsome
  · have hnames := hids.named hdefault
    obtain ⟨otherIds, hotherIds⟩ : ∃ otherIds, List.Forall₂ schema.Names others otherIds := by
      apply exists_forall₂_names
      intro name hname
      exact exists_names_of_forall₂ hnames name ((hothers name).mp hname)
    have hmem : ∀ id, id ∈ otherIds ↔ id ∈ ids := by
      intro id
      rw [mem_iff_of_forall₂_names hotherIds, mem_iff_of_forall₂_names hnames]
      simp only [hothers]
    refine ⟨otherIds, ⟨?_, ?_, fun _ => hotherIds, ?_⟩, hmem⟩
    · simpa only [ne_eq, List.eq_nil_iff_forall_not_mem, hmem] using hids.nonempty
    · simpa only [hmem] using hids.searchable
    · exact fun hnone => absurd (hnil.mp hnone) hdefault

/-- The beginning to look for in a field: as given in a raw field, else in lower case. -/
structure IsBeginning (schema : Schema) (start : String) (clause : PrefixClause) : Prop where
  nonempty : clause.start ≠ ""
  folded : ∃ field, schema.field? clause.field = some field ∧
    clause.start = if field.effectiveTokenizer = .raw then start else Text.lower start

/--
The plan has the shape of the query, and every node of it fits the schema. `cap` is the configured
greatest edit distance.
-/
inductive Realizes (schema : Schema) (cap : UInt8) : QueryDef → Plan → Prop where
  | text {query : String} {names : List String} {ids : List FieldId}
      (htargets : AreTargets schema names ids) :
      Realizes schema cap (.text query names) (.text query ids)
  | fuzzy {sought : String} {requested : UInt8} {names : List String} {words : List FuzzyWord}
      {ids : List FieldId} (htargets : AreTargets schema names ids) (hwords : words ≠ [])
      (husable : words.map (·.text) = (usableWords sought).map String.ofList)
      (hfit : ∀ word ∈ words, word.Fits cap requested) :
      Realizes schema cap (.fuzzy sought requested names) (.fuzzy words ids)
  | fuzzyNothing {sought : String} {requested : UInt8} {names : List String}
      (hwords : usableWords sought = []) :
      Realizes schema cap (.fuzzy sought requested names) .nothing
  | phrase {sought : String} {names : List String} {ids : List FieldId}
      (htargets : AreTargets schema names ids) (hblank : Text.isBlank sought = false)
      (hraw : ∀ id ∈ ids, ∀ field, schema.field? id = some field →
        field.effectiveTokenizer ≠ .raw) :
      Realizes schema cap (.phrase sought names) (.phrase sought ids)
  | phraseNothing {sought : String} {names : List String}
      (hblank : Text.isBlank sought = true) :
      Realizes schema cap (.phrase sought names) .nothing
  | startsWith {start : String} {names : List String} {clauses : List PrefixClause}
      (htargets : AreTargets schema names (clauses.map (·.field)))
      (hbeginnings : ∀ clause ∈ clauses, IsBeginning schema start clause) :
      Realizes schema cap (.startsWith start names) (.startsWith clauses)
  | term {name : String} {json : Json} {id : FieldId} {field : FieldDef} {value : FieldValue}
      (hnames : schema.Names name id) (hfield : schema.field? id = some field)
      (hindexed : field.indexed = true) (hkind : value.kind = field.kind)
      (hvalue : FieldValue.ofJson? field.kind json = some value) :
      Realizes schema cap (.term name json) (.term id value)
  | rangeI64 {name : String} {min max : Option Int64} {id : FieldId} {field : FieldDef}
      (hnames : schema.Names name id) (hfield : schema.field? id = some field)
      (hfast : field.fast = true) (hkind : field.kind = .i64)
      (hbounds : ∀ least ∈ min, ∀ greatest ∈ max, ¬greatest < least) :
      Realizes schema cap (.rangeI64 name min max) (.rangeI64 id min max)
  | rangeF64 {name : String} {min max : Option Float} {id : FieldId} {field : FieldDef}
      (hnames : schema.Names name id) (hfield : schema.field? id = some field)
      (hfast : field.fast = true) (hkind : field.kind = .f64)
      (hbounds : ∀ least ∈ min, ∀ greatest ∈ max, ¬greatest < least) :
      Realizes schema cap (.rangeF64 name min max) (.rangeF64 id min max)
  | bool {must should mustNot : List QueryDef} {musts shoulds mustNots : List Plan}
      (hsome : ¬(must = [] ∧ should = [] ∧ mustNot = []))
      (hmust : List.Forall₂ (Realizes schema cap) must musts)
      (hshould : List.Forall₂ (Realizes schema cap) should shoulds)
      (hmustNot : List.Forall₂ (Realizes schema cap) mustNot mustNots) :
      Realizes schema cap (.bool must should mustNot) (.bool musts shoulds mustNots)
  | boolNothing : Realizes schema cap (.bool [] [] []) .nothing
  | all : Realizes schema cap .all .all

variable {schema : Schema} {cap : UInt8} {plan : Plan}

theorem realizes_of_ofFuzzy {sought : String} {requested : UInt8} {names : List String}
    (hplan : ofFuzzy schema (min cap distanceCap) sought requested names = .ok plan) :
    Realizes schema cap (.fuzzy sought requested names) plan := by
  rw [ofFuzzy] at hplan
  split at hplan
  · contradiction
  · rename_i hrequested
    rw [UInt8.not_lt] at hrequested
    split at hplan
    · contradiction
    · rename_i ids htargets
      have htexts := congrArg (List.map (·.text)) (fuzzyWords_eq sought requested.toNat)
      simp only [List.map_map, Function.comp_def] at htexts
      split at hplan
      · rename_i hwords
        obtain rfl := Except.ok.inj hplan
        refine .fuzzyNothing ?_
        rw [fuzzyWords_eq] at hwords
        exact List.map_eq_nil_iff.mp hwords
      · rename_i hwords
        obtain rfl := Except.ok.inj hplan
        exact .fuzzy (areTargets_of_targets htargets) hwords htexts
          fun word hword => fits_of_mem_fuzzyWords hrequested hword

theorem byHandle_of_field? {id : FieldId} {field : FieldDef}
    (hfield : schema.field? id = some field) : byHandle schema id = .ok field := by
  rw [Schema.field?] at hfield
  rw [byHandle, schema.tables_hold.ofHandle?_eq, hfield, Option.map_some]

theorem isTokenized_iff {field : FieldDef} (hfield : field.isSearchable = true) :
    field.isTokenized = true ↔ field.effectiveTokenizer ≠ .raw := by
  simp [FieldDef.isTokenized, (FieldDef.isSearchable_iff.mp hfield).1]

/-- Fields that can be searched are all cut into terms, or one of them is refused. -/
theorem checkCut_eq_ok_iff {ids : List FieldId} (hids : ∀ id ∈ ids, schema.Searchable id) :
    checkCut schema ids = .ok () ↔ ∀ id ∈ ids, ∀ field, schema.field? id = some field →
      field.effectiveTokenizer ≠ .raw := by
  induction ids with
  | nil => simp [checkCut]
  | cons id rest ih =>
      rw [List.forall_mem_cons] at hids
      obtain ⟨⟨field, hfield, hsearchable⟩, hrest⟩ := hids
      simp only [checkCut, byHandle_of_field? hfield, isTokenized_iff hsearchable,
        List.forall_mem_cons, hfield, Option.some.injEq, forall_eq', ← ih hrest]
      split <;> simp [*]

theorem realizes_of_ofPhrase {sought : String} {names : List String}
    (hplan : ofPhrase schema sought names = .ok plan) :
    Realizes schema cap (.phrase sought names) plan := by
  rw [ofPhrase] at hplan
  split at hplan
  · contradiction
  · rename_i ids htargets
    have hids := areTargets_of_targets htargets
    split at hplan
    · contradiction
    · rename_i hcut
      split at hplan
      · rename_i hblank
        obtain rfl := Except.ok.inj hplan
        exact .phraseNothing hblank
      · rename_i hblank
        obtain rfl := Except.ok.inj hplan
        exact .phrase hids (Bool.not_eq_true _ ▸ hblank)
          ((checkCut_eq_ok_iff hids.searchable).mp hcut)

/-- The beginning to look for in the field at a position. -/
def beginning (schema : Schema) (start : String) (id : FieldId) : PrefixClause :=
  ((schema.field? id).map (prefixClause start id)).getD ⟨id, start⟩

theorem prefixClauses_eq {start : String} {ids : List FieldId}
    (hids : ∀ id ∈ ids, schema.Searchable id) :
    prefixClauses schema start ids = .ok (ids.map (beginning schema start)) := by
  induction ids with
  | nil => rfl
  | cons id rest ih =>
      rw [List.forall_mem_cons] at hids
      obtain ⟨⟨field, hfield, -⟩, hrest⟩ := hids
      rw [prefixClauses, byHandle_of_field? hfield, ih hrest, List.map_cons, beginning, hfield]
      rfl

theorem isBeginning_beginning {start : String} {id : FieldId} (hstart : start ≠ "")
    (hid : schema.Searchable id) : IsBeginning schema start (beginning schema start id) := by
  obtain ⟨field, hfield, -⟩ := hid
  rw [beginning, hfield, Option.map_some, Option.getD_some, prefixClause]
  by_cases hraw : field.effectiveTokenizer = .raw
  · simp only [if_pos hraw]
    exact ⟨hstart, field, hfield, by rw [if_pos hraw]⟩
  · simp only [if_neg hraw]
    exact ⟨Text.lower_ne_empty hstart, field, hfield, by rw [if_neg hraw]⟩

theorem field_beginning (schema : Schema) (start : String) (id : FieldId) :
    (beginning schema start id).field = id := by
  rw [beginning]
  cases schema.field? id with
  | none => rfl
  | some field =>
      rw [Option.map_some, Option.getD_some, prefixClause]
      split <;> rfl

theorem realizes_of_ofPrefix {start : String} {names : List String}
    (hplan : ofPrefix schema start names = .ok plan) :
    Realizes schema cap (.startsWith start names) plan := by
  rw [ofPrefix] at hplan
  split at hplan
  · contradiction
  · rename_i hstart
    split at hplan
    · contradiction
    · rename_i ids htargets
      have hids := areTargets_of_targets htargets
      simp only [prefixClauses_eq hids.searchable] at hplan
      obtain rfl := Except.ok.inj hplan
      refine .startsWith ?_ ?_
      · simpa [Function.comp_def, field_beginning] using hids
      · intro clause hclause
        obtain ⟨id, hid, rfl⟩ := List.mem_map.mp hclause
        exact isBeginning_beginning hstart (hids.searchable id hid)

theorem kind_of_ofJson? {kind : FieldKind} {json : Json} {value : FieldValue}
    (hvalue : FieldValue.ofJson? kind json = some value) : value.kind = kind := by
  unfold FieldValue.ofJson? at hvalue
  split at hvalue
  · obtain rfl := Option.some.inj hvalue
    rfl
  · obtain ⟨n, -, rfl⟩ := Option.map_eq_some_iff.mp hvalue
    rfl
  · obtain ⟨x, -, rfl⟩ := Option.map_eq_some_iff.mp hvalue
    rfl
  · contradiction

/-- A field is asked for what it would take as a value of a document. -/
theorem termValue?_eq_ofJson? (kind : FieldKind) (json : Json) :
    termValue? kind json = FieldValue.ofJson? kind json := by
  cases kind <;> cases json <;>
    simp only [termValue?, FieldValue.ofJson?, Json.int64?, Json.float?, Option.map_none,
      Option.map_some]
  split <;> rfl

theorem realizes_of_ofTerm {name : String} {json : Json}
    (hplan : ofTerm schema name json = .ok plan) : Realizes schema cap (.term name json) plan := by
  simp only [ofTerm, termValue?_eq_ofJson?] at hplan
  split at hplan
  · contradiction
  · rename_i id field hlookup
    obtain ⟨hfield, hnames⟩ := Schema.lookup?_eq_some hlookup
    split at hplan
    · contradiction
    · rename_i hindexed
      split at hplan
      · rename_i value hvalue
        obtain rfl := Except.ok.inj hplan
        exact .term hnames hfield (by simpa using hindexed) (kind_of_ofJson? hvalue) hvalue
      · contradiction

theorem rangeField_eq_ok {name : String} {kind : FieldKind} {id : FieldId}
    (hrange : rangeField schema name kind = .ok id) :
    ∃ field, schema.Names name id ∧ schema.field? id = some field ∧ field.fast = true ∧
      field.kind = kind := by
  rw [rangeField] at hrange
  split at hrange
  · contradiction
  · rename_i position field hlookup
    obtain ⟨hfield, hnames⟩ := Schema.lookup?_eq_some hlookup
    split at hrange
    · contradiction
    · rename_i hkind
      split at hrange
      · contradiction
      · rename_i hfast
        obtain rfl := Except.ok.inj hrange
        exact ⟨field, hnames, hfield, by simpa using hfast, not_not.mp hkind⟩

theorem not_crossed_of_checkIntegers {min max : Option Int64}
    (hcheck : checkIntegers min max = .ok ()) :
    ∀ least ∈ min, ∀ greatest ∈ max, ¬greatest < least := by
  rintro least hmin greatest hmax hcrossed
  rw [Option.mem_def] at hmin hmax
  subst hmin hmax
  simp [checkIntegers, hcrossed] at hcheck

theorem not_crossed_of_checkFloats {min max : Option Float}
    (hcheck : checkFloats min max = .ok ()) :
    ∀ least ∈ min, ∀ greatest ∈ max, ¬greatest < least := by
  rintro least hmin greatest hmax hcrossed
  rw [Option.mem_def] at hmin hmax
  subst hmin hmax
  simp [checkFloats, hcrossed] at hcheck

mutual

theorem realizes_of_ofQuery (query : QueryDef) {plan : Plan}
    (hplan : ofQuery schema (min cap distanceCap) query = .ok plan) :
    Realizes schema cap query plan := by
  cases query with
  | text query names =>
      rw [ofQuery] at hplan
      split at hplan
      · contradiction
      · rename_i ids htargets
        obtain rfl := Except.ok.inj hplan
        exact .text (areTargets_of_targets htargets)
  | fuzzy sought requested names => exact realizes_of_ofFuzzy hplan
  | phrase sought names => exact realizes_of_ofPhrase hplan
  | startsWith start names => exact realizes_of_ofPrefix hplan
  | term name json => exact realizes_of_ofTerm hplan
  | rangeI64 name min max =>
      rw [ofQuery] at hplan
      split at hplan
      · contradiction
      · rename_i id hrange
        obtain ⟨field, hnames, hfield, hfast, hkind⟩ := rangeField_eq_ok hrange
        split at hplan
        · contradiction
        · rename_i hcheck
          obtain rfl := Except.ok.inj hplan
          exact .rangeI64 hnames hfield hfast hkind (not_crossed_of_checkIntegers hcheck)
  | rangeF64 name min max =>
      rw [ofQuery] at hplan
      split at hplan
      · contradiction
      · rename_i id hrange
        obtain ⟨field, hnames, hfield, hfast, hkind⟩ := rangeField_eq_ok hrange
        split at hplan
        · contradiction
        · rename_i hcheck
          obtain rfl := Except.ok.inj hplan
          exact .rangeF64 hnames hfield hfast hkind (not_crossed_of_checkFloats hcheck)
  | bool must should mustNot =>
      by_cases hnone : must = [] ∧ should = [] ∧ mustNot = []
      · obtain ⟨rfl, rfl, rfl⟩ := hnone
        obtain rfl := Except.ok.inj hplan
        exact .boolNothing
      · rw [ofQuery] at hplan
        · split at hplan
          · contradiction
          · rename_i musts hmust
            split at hplan
            · contradiction
            · rename_i shoulds hshould
              split at hplan
              · contradiction
              · rename_i mustNots hmustNot
                obtain rfl := Except.ok.inj hplan
                exact .bool hnone (realizes_of_ofQueries must hmust)
                  (realizes_of_ofQueries should hshould) (realizes_of_ofQueries mustNot hmustNot)
        · rintro rfl rfl rfl
          exact hnone ⟨rfl, rfl, rfl⟩
  | all =>
      obtain rfl := Except.ok.inj hplan
      exact .all
  termination_by structural query

theorem realizes_of_ofQueries (queries : List QueryDef) {plans : List Plan}
    (hplans : ofQueries schema (min cap distanceCap) queries = .ok plans) :
    List.Forall₂ (Realizes schema cap) queries plans := by
  cases queries with
  | nil =>
      obtain rfl := Except.ok.inj hplans
      exact .nil
  | cons query rest =>
      rw [ofQueries] at hplans
      split at hplans
      · contradiction
      · rename_i plan hplan
        split at hplans
        · contradiction
        · rename_i others hothers
          obtain rfl := Except.ok.inj hplans
          exact .cons (realizes_of_ofQuery query hplan) (realizes_of_ofQueries rest hothers)
  termination_by structural queries

end

/-- Every plan that a query compiles to is well typed against the schema and mirrors the query. -/
theorem compile_realizes {query : QueryDef} (hplan : compile schema cap query = .ok plan) :
    Realizes schema cap query plan :=
  realizes_of_ofQuery query hplan

/-- A query for a library, in which a capital, a hyphen and a short word are to be seen to. -/
def whaleQuery : QueryDef :=
  .bool [.fuzzy "Moby-Dick 1851" 2 []] [.startsWith "Whale" ["title"]]
    [.rangeI64 "year" none (some 1850)]

def whalePlan : Plan :=
  .bool [.fuzzy [⟨"mobydick", 2⟩, ⟨"1851", 1⟩] [0]] [.startsWith [⟨0, "whale"⟩]]
    [.rangeI64 1 none (some 1850)]

theorem whalePlan_realizes : compile librarySchema 5 whaleQuery = .ok whalePlan ∧
    Realizes librarySchema 5 whaleQuery whalePlan := by
  have hplan : compile librarySchema 5 whaleQuery = .ok whalePlan := rfl
  exact ⟨hplan, compile_realizes hplan⟩

end Plan

end DocIndex
