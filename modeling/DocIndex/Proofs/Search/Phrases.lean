import DocIndex.Proofs.Search.Terms
import Mathlib.Data.List.Fold
import Mathlib.Data.List.MinMax
import Mathlib.Data.List.SplitBy

/-!
Searching for phrases. Each field cuts the phrase into tokens as it cuts its values; a document is
found if in one of the fields all tokens stand at the distances that they have in the phrase. What
counts is where a token was in the text, so words that a field drops leave gaps on both sides.
-/

namespace DocIndex

namespace Analysis

/-- A phrase stands in a text: its tokens occur, all shifted by the same distance. -/
def Occurs (phrase text : List Token) : Prop :=
  phrase ≠ [] ∧ ∃ shift : Int, ∀ part ∈ phrase, ∃ token ∈ text,
    token.text = part.text ∧ (token.position : Int) = part.position + shift

/-- A phrase of one token stands wherever the token does. -/
theorem occurs_singleton {part : Token} {text : List Token} :
    Occurs [part] text ↔ ∃ token ∈ text, token.text = part.text := by
  simp only [Occurs, List.mem_singleton, forall_eq]
  constructor
  · rintro ⟨-, shift, token, htoken, htext, -⟩
    exact ⟨token, htoken, htext⟩
  · rintro ⟨token, htoken, htext⟩
    exact ⟨List.cons_ne_nil _ _, token.position - part.position, token, htoken, htext, by omega⟩

/-- A phrase stands in the terms of a text if it stands in the tokens and its own are kept. -/
theorem occurs_terms [Segmenter] {tokenizer : Tokenizer} {phrase : List Token} {text : String} :
    Occurs phrase (tokenizer.terms text) ↔
      Occurs phrase (tokenizer.analyze text) ∧
        ∀ part ∈ phrase, part.text.utf8ByteSize ≤ termBound := by
  simp only [Occurs, Tokenizer.terms, List.mem_filter, decide_eq_true_eq]
  constructor
  · rintro ⟨hsome, shift, hall⟩
    refine ⟨⟨hsome, shift, fun part hpart => ?_⟩, fun part hpart => ?_⟩
    · obtain ⟨token, ⟨htoken, -⟩, hstands⟩ := hall part hpart
      exact ⟨token, htoken, hstands⟩
    · obtain ⟨token, ⟨-, hkeeps⟩, htext, -⟩ := hall part hpart
      exact htext ▸ hkeeps
  · rintro ⟨⟨hsome, shift, hall⟩, hkeeps⟩
    refine ⟨hsome, shift, fun part hpart => ?_⟩
    obtain ⟨token, htoken, htext, hposition⟩ := hall part hpart
    exact ⟨token, ⟨htoken, htext ▸ hkeeps part hpart⟩, htext, hposition⟩

end Analysis

namespace Phrase

variable {entry : Entry} {id : FieldId} {last place : Nat} {phrase : List Occurrence}

theorem le_lastPosition {part : Occurrence} (hpart : part ∈ phrase) :
    part.position ≤ lastPosition phrase := by
  rw [lastPosition, List.foldl_eq_foldr]
  exact List.le_max_of_le (List.mem_map_of_mem hpart) le_rfl

theorem mem_places_iff : place ∈ places entry id last phrase ↔
    phrase ≠ [] ∧ ∀ part ∈ phrase, place ∈ shifted entry id last part := by
  fun_induction places entry id last phrase with
  | case1 => simp
  | case2 part => simp
  | case3 part rest hrest others ih =>
      have hsome : rest ≠ [] := fun hnil => hrest hnil
      simp [others, ih, hsome]

/-- A phrase occurs if all its terms do, shifted by the same distance. -/
theorem count_pos_iff (entry : Entry) (id : FieldId) (hsome : phrase ≠ []) :
    0 < count 0 entry id phrase ↔
      ∃ shift : Int, ∀ part ∈ phrase, ∃ position ∈ entry.positions id part.term,
        (position : Int) = part.position + shift := by
  rw [count, List.length_pos_iff_exists_mem]
  simp only [mem_places_iff, shifted, List.mem_map]
  constructor
  · rintro ⟨place, -, hall⟩
    refine ⟨place - lastPosition phrase, fun part hpart => ?_⟩
    obtain ⟨position, hposition, rfl⟩ := hall part hpart
    have hle := le_lastPosition hpart
    exact ⟨position, hposition, by omega⟩
  · rintro ⟨shift, hall⟩
    -- The last term stands no earlier than any other, so that its place is not cut off at zero.
    refine ⟨(lastPosition phrase + shift).toNat, hsome, fun part hpart => ?_⟩
    obtain ⟨position, hposition, hshift⟩ := hall part hpart
    have hle := le_lastPosition hpart
    exact ⟨position, hposition, by omega⟩

end Phrase

/-- A phrase stands in the terms of a field of a document. -/
def Document.HasPhrase [Segmenter] (schema : Schema) (document : Document) (sought : String)
    (id : FieldId) :
    Prop :=
  ∃ field value, schema.field? id = some field ∧ field.indexed = true ∧
    document.value? id = some (.text value) ∧
    Analysis.Occurs (field.effectiveTokenizer.analyze sought) (field.effectiveTokenizer.terms value)

section Fields

variable {schema : Schema} {document : Document} {sought : String} {id : FieldId}
  {field : FieldDef}

theorem Document.hasPhrase_iff_positions [Segmenter] (hfield : schema.field? id = some field)
    (hsome : field.effectiveTokenizer.analyze sought ≠ []) :
    document.HasPhrase schema sought id ↔
      ∃ shift : Int, ∀ part ∈ field.effectiveTokenizer.analyze sought,
        ∃ position : Nat, document.HasToken schema id ⟨part.text, position⟩ ∧
          (position : Int) = part.position + shift := by
  constructor
  · rintro ⟨other, value, hother, hindexed, hvalue, -, shift, hall⟩
    obtain rfl := Option.some.inj (hother.symm.trans hfield)
    refine ⟨shift, fun part hpart => ?_⟩
    obtain ⟨⟨text, position⟩, htoken, rfl, hposition⟩ := hall part hpart
    exact ⟨position, (hasToken_iff hfield hindexed hvalue).mpr htoken, hposition⟩
  · rintro ⟨shift, hall⟩
    -- The first token shows that there is a value, and all others are tokens of it as well.
    obtain ⟨first, hfirst⟩ := List.exists_mem_of_ne_nil _ hsome
    obtain ⟨-, ⟨other, value, hother, hindexed, hvalue, -⟩, -⟩ := hall first hfirst
    obtain rfl := Option.some.inj (hother.symm.trans hfield)
    refine ⟨other, value, hother, hindexed, hvalue, hsome, shift, fun part hpart => ?_⟩
    obtain ⟨position, htoken, hposition⟩ := hall part hpart
    exact ⟨_, (hasToken_iff hfield hindexed hvalue).mp htoken, rfl, hposition⟩

theorem Document.hasPhrase_iff_hasTerm [Segmenter] (hfield : schema.field? id = some field)
    {part : Analysis.Token} (hsingle : field.effectiveTokenizer.analyze sought = [part]) :
    document.HasPhrase schema sought id ↔ document.HasTerm schema id part.text := by
  constructor
  · rintro ⟨other, value, hother, hindexed, hvalue, hoccurs⟩
    obtain rfl := Option.some.inj (hother.symm.trans hfield)
    rw [hsingle, Analysis.occurs_singleton] at hoccurs
    obtain ⟨⟨text, position⟩, htoken, rfl⟩ := hoccurs
    exact ⟨position, other, value, hother, hindexed, hvalue, htoken⟩
  · rintro ⟨position, other, value, hother, hindexed, hvalue, htoken⟩
    obtain rfl := Option.some.inj (hother.symm.trans hfield)
    refine ⟨other, value, hother, hindexed, hvalue, ?_⟩
    rw [hsingle, Analysis.occurs_singleton]
    exact ⟨_, htoken, rfl⟩

/-- What a field is asked for is the phrase; a phrase without a token asks it for nothing. -/
theorem Plan.admits_phraseCriterion [Segmenter] (hid : schema.Searchable id)
    {part : Option Criterion} (hpart : phraseCriterion schema sought id = .ok part) :
    (∃ criterion ∈ part.toList, criterion.admits (Entry.ofDocument schema document) = true) ↔
      document.HasPhrase schema sought id := by
  obtain ⟨field, hfield, hsearchable⟩ := hid
  simp only [phraseCriterion, tokenizer?, Schema.indexing?_of_isSearchable hfield hsearchable,
    Option.bind_some, Tokenizer.named?_name] at hpart
  split at hpart
  · rename_i hnone
    obtain rfl := Except.ok.inj hpart
    simp only [Option.toList_none, List.not_mem_nil, false_and, exists_false, false_iff]
    rintro ⟨other, value, hother, -, -, hsome, -⟩
    obtain rfl := Option.some.inj (hother.symm.trans hfield)
    exact hsome hnone
  · rename_i token hsingle
    obtain rfl := Except.ok.inj hpart
    rw [Document.hasPhrase_iff_hasTerm hfield hsingle]
    simp [Criterion.admits, Entry.has_iff]
  · rename_i tokens hsome _
    obtain rfl := Except.ok.inj hpart
    rw [Document.hasPhrase_iff_positions hfield hsome]
    have hparts : (field.effectiveTokenizer.analyze sought).map Occurrence.ofToken ≠ [] := by
      simpa using hsome
    simp only [Option.toList_some, List.mem_singleton, exists_eq_left, Criterion.admits,
      decide_eq_true_eq, Phrase.count_pos_iff _ _ hparts, List.forall_mem_map, Occurrence.ofToken,
      Entry.mem_positions_iff]

theorem Plan.admits_phraseParts [Segmenter] {ids : List FieldId}
    (hids : ∀ id ∈ ids, schema.Searchable id) {parts : List Criterion}
    (hparts : phraseParts schema sought ids = .ok parts) :
    (∃ criterion ∈ parts, criterion.admits (Entry.ofDocument schema document) = true) ↔
      ∃ id ∈ ids, document.HasPhrase schema sought id := by
  induction ids generalizing parts with
  | nil =>
      obtain rfl := Except.ok.inj hparts
      simp
  | cons id rest ih =>
      rw [List.forall_mem_cons] at hids
      rw [phraseParts] at hparts
      split at hparts
      · contradiction
      · rename_i part hpart
        split at hparts
        · contradiction
        · rename_i others hothers
          obtain rfl := Except.ok.inj hparts
          simp only [List.mem_append, or_and_right, exists_or,
            admits_phraseCriterion hids.1 hpart, ih hids.2 hothers, List.mem_cons, exists_eq_left]

theorem Plan.admits_phraseCriteria [Segmenter] {ids : List FieldId}
    (hids : ∀ id ∈ ids, schema.Searchable id) {criterion : Criterion}
    (hcriterion : phraseCriteria schema sought ids = .ok criterion) :
    criterion.admits (Entry.ofDocument schema document) = true ↔
      ∃ id ∈ ids, document.HasPhrase schema sought id := by
  rw [phraseCriteria] at hcriterion
  split at hcriterion
  · contradiction
  · rename_i hparts
    obtain rfl := Except.ok.inj hcriterion
    rw [← admits_phraseParts hids hparts]
    simp [Criterion.admits]
  · rename_i parts _ hparts
    obtain rfl := Except.ok.inj hcriterion
    rw [← admits_phraseParts hids hparts, Criterion.admits_should]

theorem Document.hasPhrase_iff [Segmenter] (hid : schema.Searchable id) :
    document.HasPhrase schema sought id ↔
      ∃ field value, schema.field? id = some field ∧ document.value? id = some (.text value) ∧
        Analysis.Occurs (field.effectiveTokenizer.analyze sought)
          (field.effectiveTokenizer.analyze value) ∧
        ∀ part ∈ field.effectiveTokenizer.analyze sought,
          part.text.utf8ByteSize ≤ Analysis.termBound := by
  obtain ⟨field, hfield, hsearchable⟩ := hid
  rw [FieldDef.isSearchable_iff] at hsearchable
  simp only [HasPhrase, hfield, Option.some.injEq, exists_and_left, exists_eq_left',
    hsearchable.2, true_and, Analysis.occurs_terms]

theorem Plan.compile_phrase {names : List String} {ids : List FieldId}
    (htargets : AreTargets schema names ids)
    (hcut : ∀ id ∈ ids, ∀ field, schema.field? id = some field → field.effectiveTokenizer ≠ .raw)
    (maxDistance : UInt8) (sought : String) :
    compile schema maxDistance (.phrase sought names) =
      .ok (if Text.isBlank sought then .nothing else .phrase sought ids) := by
  have hchecked := (checkCut_eq_ok_iff htargets.searchable).mpr hcut
  simp only [compile, ofQuery, ofPhrase, targets_of_areTargets htargets, hchecked]
  split <;> rfl

/-- A single field that cuts its values can be asked for a phrase. -/
theorem Plan.areCutTargets_singleton {names : List String}
    (htargets : targets schema names = .ok [id]) (hfield : schema.field? id = some field)
    (hcut : field.effectiveTokenizer ≠ .raw) : AreTargets schema names [id] ∧
    ∀ other ∈ [id], ∀ found, schema.field? other = some found →
      found.effectiveTokenizer ≠ .raw := by
  refine ⟨areTargets_of_targets htargets, fun other hother found hfound => ?_⟩
  obtain rfl := List.mem_singleton.mp hother
  obtain rfl := Option.some.inj (hfound.symm.trans hfield)
  exact hcut

end Fields

namespace Index

variable {index : Index} {state : OpenIndex} {names : List String} {ids : List FieldId}

theorem finds_phrase [Segmenter] (hopen : index.state = some state)
    (htargets : Plan.AreTargets state.schema names ids)
    (hcut : ∀ id ∈ ids, ∀ field, state.schema.field? id = some field →
      field.effectiveTokenizer ≠ .raw) (sought : String) :
    (∃ page, index.query (.phrase sought names) = .ok page) ∧
    ∀ document, document ∈ index.found (.phrase sought names) ↔
      document ∈ state.committed ∧ Text.isBlank sought = false ∧
      ∃ id ∈ ids, document.HasPhrase state.schema sought id := by
  have htextless : (QueryDef.phrase sought names).IsTextless := by
    simp [QueryDef.IsTextless, QueryDef.clauses]
  have hplan := Plan.compile_phrase htargets hcut index.settings.maxFuzzyDistance sought
  cases hblank : Text.isBlank sought with
  | true =>
      rw [if_pos hblank] at hplan
      obtain ⟨hanswered, hfound⟩ := finds_of_compile hopen htextless hplan rfl
      refine ⟨hanswered, fun document => ?_⟩
      simp [hfound, Criterion.admits]
  | false =>
      rw [if_neg (Bool.not_eq_true _ ▸ hblank)] at hplan
      obtain ⟨criterion, hcriterion, -⟩ :=
        Plan.exists_phraseCriteria sought htargets.searchable hcut
      obtain ⟨hanswered, hfound⟩ := finds_of_compile hopen htextless hplan hcriterion
      refine ⟨hanswered, fun document => ?_⟩
      simp [hfound, Plan.admits_phraseCriteria htargets.searchable hcriterion]

/--
A document is found if in one of the fields the phrase, as the field cuts it, stands in the value,
as the field cuts that, each as often as it was committed. This holds whatever the segmenter makes
of a text. A blank phrase finds nothing, whatever tokens it has, and neither does one with a token
that is too long to be kept, or one of which no field makes a token.
-/
theorem found_phrase [Segmenter] (hopen : index.state = some state)
    (htargets : Plan.AreTargets state.schema names ids)
    (hcut : ∀ id ∈ ids, ∀ field, state.schema.field? id = some field →
      field.effectiveTokenizer ≠ .raw) (sought : String) :
    (∃ page, index.query (.phrase sought names) = .ok page) ∧
    (∀ document, document ∈ index.found (.phrase sought names) ↔
      document ∈ state.committed ∧ Text.isBlank sought = false ∧
      ∃ id ∈ ids, ∃ field value, state.schema.field? id = some field ∧
        document.value? id = some (.text value) ∧
        Analysis.Occurs (field.effectiveTokenizer.analyze sought)
          (field.effectiveTokenizer.analyze value) ∧
        ∀ part ∈ field.effectiveTokenizer.analyze sought,
          part.text.utf8ByteSize ≤ Analysis.termBound) ∧
    ((∀ id ∈ ids, ∀ field, state.schema.field? id = some field →
      field.effectiveTokenizer.analyze sought = []) →
      index.found (.phrase sought names) = ∅) ∧
    ∃ hits, index.ranking (.phrase sought names) = .ok hits ∧
      ∀ document ∈ index.found (.phrase sought names),
        (hits.map (·.2)).count document = state.committed.count document := by
  obtain ⟨hanswered, hfound⟩ := finds_phrase hopen htargets hcut sought
  have hranking := exists_ranking_of_answered hopen hanswered
  refine ⟨hanswered, fun document => ?_, fun hnone => ?_, hranking⟩
  · rw [hfound]
    refine and_congr_right fun _ => and_congr_right fun _ => exists_congr fun id => ?_
    exact and_congr_right fun hid => Document.hasPhrase_iff (htargets.searchable id hid)
  · ext document
    rw [hfound, Set.mem_empty_iff_false, iff_false]
    rintro ⟨-, -, id, hid, field, value, hfield, -, -, hsome, -⟩
    exact hsome (hnone id hid field hfield)

end Index

/-- A collection of notes: the notes, which may be in Chinese, and what they are about. -/
def noteSchema : Schema where
  definition :=
    { fields := [{ name := "note", kind := .text, tokenizer := some .jieba },
        { name := "topic", kind := .text }] }
  checked := rfl

def note (text : String) : Document :=
  ⟨[(0, .text text)], []⟩

/-- A word of one letter that is repeated. -/
def roar (length : Nat) : String :=
  String.ofList (List.replicate length 'z')

theorem utf8ByteSize_roar (length : Nat) : (roar length).utf8ByteSize = length := by
  rw [roar, String.utf8ByteSize_ofList]
  induction length with
  | zero => rfl
  | succ n ih =>
      rw [List.replicate_succ, String.utf8Len_cons, ih]
      rfl

/-- A note on a lion: a word of its topic is longer than the words that are kept. -/
def lionNote : Document :=
  ⟨[(1, .text ("The lion says " ++ roar 40 ++ " at night"))], []⟩

/-- What a collection holds. -/
def noteState : OpenIndex where
  schema := noteSchema
  committed := [lionNote, note "我们 北京", note (roar 65531)]
  buffer := none

def openNotes : Index :=
  ⟨"notes", {}, some noteState⟩

theorem note_targets : Plan.AreTargets noteSchema ["note"] [0] ∧
    ∀ id ∈ [0], ∀ field, noteSchema.field? id = some field → field.effectiveTokenizer ≠ .raw :=
  Plan.areCutTargets_singleton rfl rfl (by decide)

theorem topic_targets : Plan.AreTargets noteSchema ["topic"] [1] ∧
    ∀ id ∈ [1], ∀ field, noteSchema.field? id = some field → field.effectiveTokenizer ≠ .raw :=
  Plan.areCutTargets_singleton rfl rfl (by decide)

/--
What is relied on of a segmenter where the notes are missed: a space is a word of its own, alone and
between words, and letters that stand together are one word, however many they are.
-/
structure CutsNotes [Segmenter] : Prop where
  space : Segmenter.words " " = [⟨" ", 0⟩]
  spaced : Segmenter.words "我们 北京" = [⟨"我们", 0⟩, ⟨" ", 2⟩, ⟨"北京", 3⟩]
  long : Segmenter.words (roar 65531) = [⟨roar 65531, 0⟩]

/-- A phrase of nothing but white space finds nothing, though it may stand in a note. -/
theorem note_missed_by_space [Segmenter] (hcuts : CutsNotes) :
    Analysis.Occurs (Tokenizer.jieba.analyze " ") (Tokenizer.jieba.analyze "我们 北京") ∧
      note "我们 北京" ∉ openNotes.found (.phrase " " ["note"]) := by
  constructor
  · rw [Tokenizer.analyze, hcuts.space, Tokenizer.analyze, hcuts.spaced,
      Analysis.occurs_singleton]
    decide
  · rw [(Index.finds_phrase rfl note_targets.1 note_targets.2 " ").2]
    rintro ⟨-, hblank, -⟩
    exact absurd hblank (by decide)

/-- A word that is too long to be kept cannot be found, though it is all of a note. -/
theorem note_missed_by_roar [Segmenter] (hcuts : CutsNotes) :
    Analysis.Occurs (Tokenizer.jieba.analyze (roar 65531))
        (Tokenizer.jieba.analyze (roar 65531)) ∧
      note (roar 65531) ∉ openNotes.found (.phrase (roar 65531) ["note"]) := by
  have hroar : Tokenizer.jieba.analyze (roar 65531) = [⟨roar 65531, 0⟩] := hcuts.long
  constructor
  · rw [hroar, Analysis.occurs_singleton]
    exact ⟨_, List.mem_cons_self, rfl⟩
  · obtain ⟨htargets, hcut⟩ := note_targets
    rw [(Index.finds_phrase rfl htargets hcut (roar 65531)).2]
    rintro ⟨-, -, id, hid, hphrase⟩
    obtain ⟨field, -, hfield, -, -, hshort⟩ :=
      (Document.hasPhrase_iff (htargets.searchable id hid)).mp hphrase
    obtain rfl := List.mem_singleton.mp hid
    obtain rfl := Option.some.inj hfield
    have hsize := hshort ⟨roar 65531, 0⟩ (by
      change _ ∈ Tokenizer.jieba.analyze _
      rw [hroar]
      exact List.mem_cons_self)
    rw [utf8ByteSize_roar] at hsize
    exact absurd hsize (by decide)

section

attribute [local instance] Segmenter.byRuns

theorem words_roar {length : Nat} (hlength : length ≠ 0) :
    Segmenter.words (roar length) = [⟨roar length, 0⟩] := by
  have hsome : List.replicate length 'z' ≠ [] := by simpa using hlength
  have hletter : (!Unicode.isWhiteSpace 'z' && !Unicode.isWhiteSpace 'z') = true := by decide
  change Segmenter.placed 0 ((roar length).toList.splitBy _) = _
  rw [roar, String.toList_ofList,
    List.splitBy_of_isChain hsome (List.isChain_replicate_of_rel _ hletter)]
  rfl

/-- Without a dictionary the notes are cut as with one, where no word stands beside another. -/
theorem cutsNotes_byRuns : CutsNotes where
  space := by decide
  spaced := by decide
  long := words_roar (by decide)

/-- A note is found by words with a word between them that is not kept, and not without that. -/
theorem notes_found_by_phrase : openNotes.state = some noteState ∧
    (Plan.AreTargets noteSchema ["topic"] [1] ∧
      ∀ id ∈ [1], ∀ field, noteSchema.field? id = some field → field.effectiveTokenizer ≠ .raw) ∧
    lionNote ∈ openNotes.found (.phrase ("SAYS " ++ roar 50 ++ ", at") ["topic"]) ∧
    lionNote ∉ openNotes.found (.phrase "says at" ["topic"]) := by
  have hopen : openNotes.state = some noteState := rfl
  obtain ⟨htargets, hcut⟩ := topic_targets
  have hvalue : Tokenizer.standard.analyze ("The lion says " ++ roar 40 ++ " at night") =
      [⟨"the", 0⟩, ⟨"lion", 1⟩, ⟨"says", 2⟩, ⟨"at", 4⟩, ⟨"night", 5⟩] := by
    decide +kernel
  have hphrase : Tokenizer.standard.analyze ("SAYS " ++ roar 50 ++ ", at") =
      [⟨"says", 0⟩, ⟨"at", 2⟩] := by
    decide +kernel
  have hclose : Tokenizer.standard.analyze "says at" = [⟨"says", 0⟩, ⟨"at", 1⟩] := by
    decide +kernel
  refine ⟨hopen, topic_targets, ?_, ?_⟩
  · rw [(Index.found_phrase hopen htargets hcut _).2.1]
    refine ⟨List.mem_cons_self, by decide +kernel, 1, List.mem_cons_self, _, _, rfl, rfl, ?_, ?_⟩
    · change Analysis.Occurs (Tokenizer.standard.analyze _) (Tokenizer.standard.analyze _)
      rw [hphrase, hvalue]
      exact ⟨by decide, 2, by simp⟩
    · change ∀ part ∈ Tokenizer.standard.analyze _, _
      rw [hphrase]
      decide
  · rw [(Index.found_phrase hopen htargets hcut "says at").2.1]
    rintro ⟨-, -, id, hid, field, value, hfield, hsome, hoccurs, -⟩
    obtain rfl := List.mem_singleton.mp hid
    obtain rfl := Option.some.inj hfield
    obtain rfl := FieldValue.text.inj (Option.some.inj hsome)
    change Analysis.Occurs (Tokenizer.standard.analyze _) (Tokenizer.standard.analyze _) at hoccurs
    rw [hclose, hvalue] at hoccurs
    obtain ⟨-, shift, hall⟩ := hoccurs
    simp at hall
    omega

/--
A space is a token of its own, but a phrase of nothing else finds nothing; and a word that is too
long to be kept cannot be found.
-/
theorem notes_missed_by_phrase : CutsNotes ∧ openNotes.state = some noteState ∧
    (Plan.AreTargets noteSchema ["note"] [0] ∧
      ∀ id ∈ [0], ∀ field, noteSchema.field? id = some field → field.effectiveTokenizer ≠ .raw) ∧
    (note "我们 北京" ∈ noteState.committed ∧
      Analysis.Occurs (Tokenizer.jieba.analyze " ") (Tokenizer.jieba.analyze "我们 北京") ∧
      note "我们 北京" ∉ openNotes.found (.phrase " " ["note"])) ∧
    note (roar 65531) ∈ noteState.committed ∧
      Analysis.Occurs (Tokenizer.jieba.analyze (roar 65531))
        (Tokenizer.jieba.analyze (roar 65531)) ∧
      note (roar 65531) ∉ openNotes.found (.phrase (roar 65531) ["note"]) := by
  refine ⟨cutsNotes_byRuns, rfl, note_targets, ⟨?_, ?_⟩, ?_, ?_⟩
  · simp [noteState]
  · exact note_missed_by_space cutsNotes_byRuns
  · simp [noteState]
  · exact note_missed_by_roar cutsNotes_byRuns

end

end DocIndex
