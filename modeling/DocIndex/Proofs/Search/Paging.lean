import DocIndex.Index.Handle
import DocIndex.Proofs.Schema.Fields
import Mathlib.Data.ENat.Lattice

/-!
Paging. A page shows a part of one ranking that is the same for every limit and offset: what follows
the offset, up to the limit in force, where a limit of zero means no bound. A page tells how many
hits there are in all and whether some follow, so that a caller who turns pages until none follows
has seen the whole ranking, and no hit twice. None of the sums of 64 bits involved wraps around.
-/

namespace DocIndex

theorem toNat_min (a b : UInt64) : (min a b).toNat = min a.toNat b.toNat := by
  rw [show min a b = if a ≤ b then a else b from rfl]
  split <;> rename_i h <;> rw [UInt64.le_iff_toNat_le] at h <;> omega

theorem toNat_max (a b : UInt64) : (max a b).toNat = max a.toNat b.toNat := by
  rw [show max a b = if a ≤ b then b else a from rfl]
  split <;> rename_i h <;> rw [UInt64.le_iff_toNat_le] at h <;> omega

theorem ne_zero_iff_toNat_pos (a : UInt64) : a ≠ 0 ↔ 0 < a.toNat := by
  rw [ne_eq, ← UInt64.toNat_inj, UInt64.toNat_zero]
  omega

theorem toNat_ofNat_length {α : Type} {items : List α} (hsize : items.length < 2 ^ 63) :
    (UInt64.ofNat items.length).toNat = items.length :=
  UInt64.toNat_ofNat_of_lt' (Nat.lt_of_lt_of_le hsize (by decide))

/-- The number of hits that a limit allows; zero means no bound. -/
def capOf (limit : UInt64) : ℕ∞ :=
  if limit = 0 then ⊤ else limit.toNat

/-- The elements of a list up to a number of them. -/
noncomputable def takeUpTo {α : Type} (cap : ℕ∞) (items : List α) : List α :=
  items.take (min cap items.length).toNat

@[simp] theorem takeUpTo_top {α : Type} (items : List α) : takeUpTo ⊤ items = items := by
  simp [takeUpTo]

@[simp] theorem takeUpTo_coe {α : Type} (n : Nat) (items : List α) :
    takeUpTo n items = items.take n := by
  rw [takeUpTo, ← Nat.mono_cast.map_min, ENat.toNat_natCast]
  rcases Nat.le_total n items.length with h | h
  · rw [Nat.min_eq_left h]
  · rw [Nat.min_eq_right h, List.take_length, List.take_of_length_le h]

@[simp] theorem takeUpTo_nil {α : Type} (cap : ℕ∞) : takeUpTo cap ([] : List α) = [] := by
  simp [takeUpTo]

theorem map_takeUpTo {α β : Type} (f : α → β) (cap : ℕ∞) (items : List α) :
    (takeUpTo cap items).map f = takeUpTo cap (items.map f) := by
  simp [takeUpTo, List.map_take]

theorem length_takeUpTo_le {α : Type} (cap : ℕ∞) (items : List α) :
    (takeUpTo cap items).length ≤ items.length :=
  List.length_take_le' _ _

theorem capOf_of_ne_zero {limit : UInt64} (hlimit : limit ≠ 0) : capOf limit = limit.toNat := by
  simp [capOf, hlimit]

/-- Of the requested and the greatest limit the smaller one is in force. -/
theorem Settings.capOf_effectiveLimit (settings : Settings) (requested : UInt64) :
    capOf (settings.effectiveLimit requested) =
      min (capOf requested) (capOf settings.maxLimit) := by
  unfold Settings.effectiveLimit
  by_cases hmax : settings.maxLimit = 0
  · simp [hmax, capOf]
  · by_cases hrequested : requested = 0
    · simp [hrequested, hmax, capOf]
    · have hmin : min requested settings.maxLimit ≠ 0 := by
        rw [ne_zero_iff_toNat_pos, toNat_min]
        have := (ne_zero_iff_toNat_pos _).mp hmax
        have := (ne_zero_iff_toNat_pos _).mp hrequested
        omega
      rw [if_neg hmax, if_neg hrequested, capOf_of_ne_zero hmin, capOf_of_ne_zero hmax,
        capOf_of_ne_zero hrequested, toNat_min, Nat.mono_cast.map_min]

/-- Whenever hits are collected, at least one is wanted. -/
theorem Paging.one_le_of_window? {paging : Paging} {total : UInt64} {window : Window}
    (hwindow : paging.window? total = some window) : 1 ≤ window.limit := by
  unfold Paging.window? at hwindow
  split at hwindow
  · contradiction
  · obtain rfl := Option.some.inj hwindow
    rw [UInt64.le_iff_toNat_le, toNat_max]
    exact Nat.le_max_right _ _

/-- The collector is always asked for something, and the last place it looks at is in range. -/
theorem Paging.window?_inRange {paging : Paging} {total : UInt64} {window : Window}
    (htotal : total.toNat < 2 ^ 63) (hwindow : paging.window? total = some window) :
    window.limit ≠ 0 ∧ window.limit.toNat + window.offset.toNat < 2 ^ 64 := by
  have hleast := Paging.one_le_of_window? hwindow
  refine ⟨(ne_zero_iff_toNat_pos _).mpr (UInt64.le_iff_toNat_le.mp hleast), ?_⟩
  unfold Paging.window? at hwindow
  split at hwindow
  · contradiction
  · rename_i hoffset
    rw [UInt64.le_iff_toNat_le] at hoffset
    obtain rfl := Option.some.inj hwindow
    have hone : (1 : UInt64).toNat = 1 := rfl
    change (max (_ : UInt64) 1).toNat + paging.offset.toNat < 2 ^ 64
    rw [toNat_max]
    split
    · omega
    · rw [toNat_min]
      omega

/-- The limit and the offset alone say what is shown of a ranking of some of `total` documents. -/
theorem Paging.select_eq (paging : Paging) {total : UInt64} {hits : List Hit}
    (hhits : hits.length ≤ total.toNat) :
    paging.select total hits = takeUpTo (capOf paging.limit) (hits.drop paging.offset.toNat) := by
  unfold Paging.select Paging.window?
  by_cases hoffset : total ≤ paging.offset
  · have hdrop : hits.drop paging.offset.toNat = [] := by
      rw [UInt64.le_iff_toNat_le] at hoffset
      exact List.drop_eq_nil_of_le (by omega)
    simp [hoffset, hdrop]
  · have hone : (1 : UInt64).toNat = 1 := rfl
    have hlength : (hits.drop paging.offset.toNat).length ≤ total.toNat := by
      rw [List.length_drop]
      omega
    rw [if_neg hoffset]
    rw [UInt64.le_iff_toNat_le] at hoffset
    by_cases hlimit : paging.limit = 0
    · simp only [Window.collect, hlimit, capOf, if_true, takeUpTo_top]
      refine List.take_of_length_le ?_
      rw [toNat_max]
      omega
    · have := (ne_zero_iff_toNat_pos _).mp hlimit
      rw [capOf_of_ne_zero hlimit, takeUpTo_coe]
      simp only [Window.collect, if_neg hlimit]
      rw [List.take_eq_take_iff, toNat_max, toNat_min]
      omega

namespace Page

/-- The page shows a part of some rows: those after an offset, as far as a cap allows. -/
structure IsPart (page : Page) (rows : List Json) (cap : ℕ∞) (offset : UInt64) : Prop where
  offset_eq : page.offset = offset
  capOf_limit : capOf page.limit = cap
  rows_eq : page.rows = takeUpTo cap (rows.drop offset.toNat)
  count_eq : page.count.toNat = page.rows.length
  totalCount_eq : page.totalCount.toNat = rows.length
  /-- The sum that decides whether rows follow does not wrap around. -/
  sum_inRange : page.offset.toNat + page.count.toNat < 2 ^ 64
  hasMore_iff : page.hasMore = true ↔ rows.drop (offset.toNat + page.rows.length) ≠ []

theorem ofRows_isPart {rows : List Json} (paging : Paging) (hsize : rows.length < 2 ^ 63) :
    (ofRows (takeUpTo (capOf paging.limit) (rows.drop paging.offset.toNat))
      (UInt64.ofNat rows.length) paging).IsPart rows (capOf paging.limit) paging.offset := by
  set shown := takeUpTo (capOf paging.limit) (rows.drop paging.offset.toNat) with hshown
  have hlength : shown.length ≤ rows.length - paging.offset.toNat := by
    rw [← List.length_drop]
    exact length_takeUpTo_le _ _
  have hcount : (UInt64.ofNat shown.length).toNat = shown.length :=
    toNat_ofNat_length (by omega)
  have htotal : (UInt64.ofNat rows.length).toNat = rows.length := toNat_ofNat_length hsize
  have hoffset : paging.offset.toNat < 2 ^ 64 := paging.offset.toNat_lt
  have hsum : paging.offset.toNat + shown.length < 2 ^ 64 := by omega
  refine ⟨rfl, rfl, rfl, hcount, htotal, ?_, ?_⟩
  · simpa only [ofRows, hcount] using hsum
  · simp only [hasMore, ofRows, decide_eq_true_eq, UInt64.lt_iff_toNat_lt, UInt64.toNat_add,
      hcount, htotal, Nat.mod_eq_of_lt hsum, ne_eq, List.drop_eq_nil_iff]
    omega

end Page

theorem length_rank_le (entries : List Entry) (criterion : Criterion) :
    (rank entries criterion).length ≤ entries.length := by
  simp only [rank, List.length_mergeSort, List.length_map]
  exact List.length_filter_le _ _

theorem documents_rank_perm [Segmenter] (schema : Schema) (documents : List Document)
    (criterion : Criterion) :
    ((rank (documents.map (Entry.ofDocument schema)) criterion).map (·.2)).Perm
      (documents.filter fun document => criterion.admits (Entry.ofDocument schema document)) := by
  refine ((List.mergeSort_perm _ _).map _).trans (List.Perm.of_eq ?_)
  simp [List.filter_map, Function.comp_def, Entry.ofDocument]

theorem Paging.select_sublist (paging : Paging) (total : UInt64) (hits : List Hit) :
    (paging.select total hits).Sublist hits := by
  unfold Paging.select
  split
  · exact List.nil_sublist hits
  · exact (List.take_sublist _ _).trans (List.drop_sublist _ _)

def rowsOf (schema : Schema) (hits : List Hit) : List Json :=
  hits.map fun hit => hit.2.row schema hit.1

/-- What a search shows is a part of the rows of its ranking. -/
theorem searchDocuments_isPart [Segmenter] (schema : Schema) {documents : List Document}
    (hsize : documents.length < 2 ^ 63) (criterion : Criterion) (paging : Paging) :
    (searchDocuments schema documents criterion paging).IsPart
      (rowsOf schema (rank (documents.map (Entry.ofDocument schema)) criterion))
      (capOf paging.limit) paging.offset := by
  set hits := rank (documents.map (Entry.ofDocument schema)) criterion with hhits
  have hlength : hits.length ≤ documents.length := by
    have := length_rank_le (documents.map (Entry.ofDocument schema)) criterion
    rwa [List.length_map] at this
  have hselect : paging.select (UInt64.ofNat documents.length) hits =
      takeUpTo (capOf paging.limit) (hits.drop paging.offset.toNat) := by
    refine paging.select_eq ?_
    rwa [toNat_ofNat_length hsize]
  have hpage : searchDocuments schema documents criterion paging =
      Page.ofRows (takeUpTo (capOf paging.limit) ((rowsOf schema hits).drop paging.offset.toNat))
        (UInt64.ofNat (rowsOf schema hits).length) paging := by
    simp only [searchDocuments, Page.ofHits, ← hhits, hselect, rowsOf, List.length_map,
      ← List.map_drop, ← map_takeUpTo]
  rw [hpage]
  refine Page.ofRows_isPart paging ?_
  rw [rowsOf, List.length_map]
  omega

namespace Index

/-- A failure to rank the documents is reported on whatever page is asked for. -/
theorem answer_of_ranking_error [Segmenter] {index : Index} {query : QueryDef} {fault : IndexError}
    (hranking : index.ranking query = .error fault) (limit : Option UInt64) (offset : UInt64) :
    index.answer ⟨query, limit, offset⟩ = .error fault := by
  unfold ranking at hranking
  unfold answer
  cases hsought : index.sought query with
  | error other =>
      rw [hsought] at hranking
      obtain rfl := Except.error.inj hranking
      rfl
  | ok found =>
      rw [hsought] at hranking
      contradiction

theorem opened_eq_ok_iff {index : Index} {state : OpenIndex} :
    index.opened = .ok state ↔ index.state = some state := by
  unfold opened
  cases index.state <;> simp

theorem sought_state [Segmenter] {index : Index} {query : QueryDef} {state : OpenIndex}
    {criterion : Criterion} (hsought : index.sought query = .ok (state, criterion)) :
    index.state = some state := by
  unfold sought at hsought
  split at hsought
  · contradiction
  · rename_i found hopened
    split at hsought
    · contradiction
    · split at hsought
      · contradiction
      · obtain ⟨rfl, -⟩ := Prod.mk.inj (Except.ok.inj hsought)
        exact opened_eq_ok_iff.mp hopened

theorem exists_sought_of_ranking [Segmenter] {index : Index} {query : QueryDef} {hits : List Hit}
    (hranking : index.ranking query = .ok hits) :
    ∃ state criterion, index.sought query = .ok (state, criterion) ∧
      hits = rank (state.committed.map (Entry.ofDocument state.schema)) criterion := by
  unfold ranking at hranking
  cases hsought : index.sought query with
  | error fault =>
      rw [hsought] at hranking
      contradiction
  | ok found =>
      rw [hsought] at hranking
      exact ⟨found.1, found.2, rfl, (Except.ok.inj hranking).symm⟩

/-- Every page of a ranked query is a part of the one ranking. -/
theorem answer_isPart [Segmenter] {index : Index} {state : OpenIndex} {query : QueryDef}
    {hits : List Hit} (hopen : index.state = some state) (hsize : state.committed.length < 2 ^ 63)
    (hranking : index.ranking query = .ok hits) (limit : Option UInt64) (offset : UInt64) :
    ∃ page, index.answer ⟨query, limit, offset⟩ = .ok page ∧
      page.IsPart (rowsOf state.schema hits)
        (capOf (Request.paging ⟨query, limit, offset⟩ index.settings).limit) offset := by
  obtain ⟨found, criterion, hsought, rfl⟩ := exists_sought_of_ranking hranking
  have hfound : found = state := Option.some.inj ((sought_state hsought).symm.trans hopen)
  subst hfound
  refine ⟨_, by rw [answer, hsought], ?_⟩
  exact searchDocuments_isPart found.schema hsize criterion
    (Request.paging ⟨query, limit, offset⟩ index.settings)

/--
The pages that a caller turns from an offset on: each starts `size` hits after the one before it,
and the last one is the first that says that no hits follow.
-/
inductive Turned [Segmenter] (index : Index) (query : QueryDef) (limit : Option UInt64)
    (size : UInt64) :
    UInt64 → List Page → Prop where
  | last {offset : UInt64} {page : Page}
      (hanswer : index.answer ⟨query, limit, offset⟩ = .ok page) (hlast : page.hasMore = false) :
      Turned index query limit size offset [page]
  | next {offset : UInt64} {page : Page} {pages : List Page}
      (hanswer : index.answer ⟨query, limit, offset⟩ = .ok page) (hmore : page.hasMore = true)
      (hrest : Turned index query limit size (offset + size) pages) :
      Turned index query limit size offset (page :: pages)

theorem turned_iff_of_last [Segmenter] {index : Index} {query : QueryDef} {limit : Option UInt64}
    {size offset : UInt64} {page : Page} (hanswer : index.answer ⟨query, limit, offset⟩ = .ok page)
    (hlast : page.hasMore = false) (pages : List Page) :
    index.Turned query limit size offset pages ↔ pages = [page] := by
  constructor
  · intro hturned
    cases hturned with
    | last hother _ =>
        obtain rfl := Except.ok.inj (hanswer.symm.trans hother)
        rfl
    | next hother hmore _ =>
        obtain rfl := Except.ok.inj (hanswer.symm.trans hother)
        rw [hlast] at hmore
        contradiction
  · rintro rfl
    exact .last hanswer hlast

theorem turned_iff_of_more [Segmenter] {index : Index} {query : QueryDef} {limit : Option UInt64}
    {size offset : UInt64} {page : Page} {rest : List Page}
    (hanswer : index.answer ⟨query, limit, offset⟩ = .ok page) (hmore : page.hasMore = true)
    (hrest : ∀ pages, index.Turned query limit size (offset + size) pages ↔ pages = rest)
    (pages : List Page) :
    index.Turned query limit size offset pages ↔ pages = page :: rest := by
  constructor
  · intro hturned
    cases hturned with
    | last hother hlast =>
        obtain rfl := Except.ok.inj (hanswer.symm.trans hother)
        rw [hlast] at hmore
        contradiction
    | next hother _ hpages =>
        obtain rfl := Except.ok.inj (hanswer.symm.trans hother)
        rw [(hrest _).mp hpages]
  · rintro rfl
    exact .next hanswer hmore ((hrest _).mpr rfl)

/--
From any offset the pages come to an end, and together they show all rows from there on. The
induction is on the number of rows not yet shown, which a full page makes smaller.
-/
theorem exists_turned [Segmenter] {index : Index} {query : QueryDef} {limit : Option UInt64}
    {size : UInt64} {rows : List Json} (hrows : rows.length < 2 ^ 63) (hsize : size ≠ 0)
    (hpart : ∀ offset, ∃ page, index.answer ⟨query, limit, offset⟩ = .ok page ∧
      page.IsPart rows size.toNat offset) (offset : UInt64) :
    ∃ pages, (∀ others, index.Turned query limit size offset others ↔ others = pages) ∧
      pages.flatMap (·.rows) = rows.drop offset.toNat ∧
      ∀ k (hk : k < pages.length), pages[k].offset.toNat = offset.toNat + k * size.toNat := by
  have hpos := (ne_zero_iff_toNat_pos size).mp hsize
  generalize hn : rows.length - offset.toNat = n
  induction n using Nat.strong_induction_on generalizing offset with
  | h n ih =>
      obtain ⟨page, hanswer, hpage⟩ := hpart offset
      have hshown : page.rows = (rows.drop offset.toNat).take size.toNat := by
        rw [hpage.rows_eq, takeUpTo_coe]
      have hlength : page.rows.length = min size.toNat (rows.length - offset.toNat) := by
        rw [hshown, List.length_take, List.length_drop]
      cases hmore : page.hasMore with
      | false =>
          have hrest : rows.length ≤ offset.toNat + page.rows.length := by
            have := hpage.hasMore_iff.not.mp (by simp [hmore])
            rwa [not_not, List.drop_eq_nil_iff] at this
          refine ⟨[page], turned_iff_of_last hanswer hmore, ?_, ?_⟩
          · rw [List.flatMap_singleton, hshown]
            refine List.take_of_length_le ?_
            rw [List.length_drop]
            omega
          · intro k hk
            obtain rfl : k = 0 := by simpa using hk
            simp [hpage.offset_eq]
      | true =>
          have hrest : offset.toNat + page.rows.length < rows.length := by
            have := hpage.hasMore_iff.mp hmore
            rwa [ne_eq, List.drop_eq_nil_iff, Nat.not_le] at this
          have hnext : (offset + size).toNat = offset.toNat + size.toNat := by
            rw [UInt64.toNat_add]
            omega
          obtain ⟨pages, hturned, hconcat, hoffsets⟩ :=
            ih (rows.length - (offset + size).toNat) (by omega) (offset + size) rfl
          refine ⟨page :: pages, turned_iff_of_more hanswer hmore hturned, ?_, ?_⟩
          · rw [List.flatMap_cons, hconcat, hshown, hnext, ← List.drop_drop,
              List.take_append_drop]
          · intro k hk
            cases k with
            | zero => simp [hpage.offset_eq]
            | succ k =>
                rw [List.getElem_cons_succ, hoffsets, hnext, Nat.succ_mul]
                omega

/--
For every query that can be ranked, and every limit and offset, the answer is the part of the one
ranking that follows the offset, up to the smaller of the limit in force and the greatest limit; a
query that cannot be ranked fails alike whatever part is asked for. What the collector is asked for
is never empty and in range. Where the limit bounds the pages, turning them from the start ends,
and it shows every hit of the ranking once and in order.
-/
theorem answers_page_ranking [Segmenter] {index : Index} {state : OpenIndex}
    (hopen : index.state = some state) (hsize : state.committed.length < 2 ^ 63)
    (query : QueryDef) :
    (∀ fault, index.ranking query = .error fault →
      ∀ limit offset, index.answer ⟨query, limit, offset⟩ = .error fault) ∧
    ∀ hits, index.ranking query = .ok hits → ∀ limit : Option UInt64,
      let size := index.settings.effectiveLimit (limit.getD index.settings.defaultLimit)
      capOf size =
        min (capOf (limit.getD index.settings.defaultLimit)) (capOf index.settings.maxLimit) ∧
      (∀ offset, ∃ page, index.answer ⟨query, limit, offset⟩ = .ok page ∧
        page.IsPart (rowsOf state.schema hits) (capOf size) offset) ∧
      (∀ offset window,
        Paging.window? ⟨size, offset⟩ (UInt64.ofNat state.committed.length) = some window →
          window.limit ≠ 0 ∧ window.limit.toNat + window.offset.toNat < 2 ^ 64) ∧
      (size ≠ 0 → ∃ pages, (∀ others, index.Turned query limit size 0 others ↔ others = pages) ∧
        pages.flatMap (·.rows) = rowsOf state.schema hits ∧
        ∀ k (hk : k < pages.length), pages[k].offset.toNat = k * size.toNat) := by
  refine ⟨fun fault hfault limit offset => answer_of_ranking_error hfault limit offset, ?_⟩
  intro hits hranking limit size
  have hrows : (rowsOf state.schema hits).length < 2 ^ 63 := by
    obtain ⟨found, criterion, hsought, rfl⟩ := exists_sought_of_ranking hranking
    obtain rfl := Option.some.inj ((sought_state hsought).symm.trans hopen)
    have := length_rank_le (found.committed.map (Entry.ofDocument found.schema)) criterion
    rw [List.length_map] at this
    rw [rowsOf, List.length_map]
    omega
  have hpart := answer_isPart hopen hsize hranking limit
  refine ⟨index.settings.capOf_effectiveLimit _, hpart, ?_, ?_⟩
  · intro offset window hwindow
    refine Paging.window?_inRange ?_ hwindow
    rwa [toNat_ofNat_length hsize]
  · intro hbounded
    have hpages : ∀ offset, ∃ page, index.answer ⟨query, limit, offset⟩ = .ok page ∧
        page.IsPart (rowsOf state.schema hits) size.toNat offset := by
      intro offset
      rw [← capOf_of_ne_zero hbounded]
      exact hpart offset
    obtain ⟨pages, hturned, hconcat, hoffsets⟩ := exists_turned hrows hbounded hpages 0
    refine ⟨pages, hturned, by simpa using hconcat, ?_⟩
    intro k hk
    simpa using hoffsets k hk

end Index

def novel (title : String) (year : Int64) : Document :=
  ⟨[(0, .text title), (1, .i64 year)], []⟩

/-- What a library holds: three novels, and one more that waits to be committed. -/
def libraryState : OpenIndex where
  schema := librarySchema
  committed := [novel "emma" 1815, novel "dracula" 1897, novel "ulysses" 1922]
  buffer := some [novel "dune" 1965]

def openLibrary : Index :=
  ⟨"library", {}, some libraryState⟩

section

attribute [local instance] Segmenter.byRuns

/-- Turned two by two, the pages of a library show its three novels. -/
theorem library_turned_by_two : openLibrary.state = some libraryState ∧
    libraryState.committed.length < 2 ^ 63 ∧
    ∃ hits, openLibrary.ranking .all = .ok hits ∧ hits.length = 3 ∧
      ∃ pages, openLibrary.Turned .all (some 2) 2 0 pages ∧
        pages.flatMap (·.rows) = rowsOf librarySchema hits := by
  have hopen : openLibrary.state = some libraryState := rfl
  have hsize : libraryState.committed.length < 2 ^ 63 := by decide
  have hranking : openLibrary.ranking .all =
      .ok (rank (libraryState.committed.map (Entry.ofDocument librarySchema)) .all) := rfl
  have hpaged := (Index.answers_page_ranking hopen hsize .all).2 _ hranking (some 2)
  obtain ⟨pages, hturned, hrows, -⟩ := hpaged.2.2.2 (by decide)
  refine ⟨hopen, hsize, _, hranking, ?_, pages, (hturned pages).mpr rfl, hrows⟩
  rw [rank, List.length_mergeSort, List.length_map]
  rfl

end

end DocIndex
