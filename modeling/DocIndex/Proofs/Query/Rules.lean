import DocIndex.Proofs.Query.Clauses
import DocIndex.Proofs.Query.Typing

/-!
The rules that queries keep. Each clause of a query, by its type, has to keep some rules in turn:
about the fields that it looks at, and about its words, values and bounds. A query has a plan if all
rules of all its clauses are kept; otherwise the error is that of the first rule that is broken,
clause by clause. The cap on edit distances is a matter of the rules alone: no plan depends on it.
-/

namespace DocIndex

/-- A rule about a query, and the error if it is broken. -/
structure Rule where
  kept : Prop
  error : QueryError

/-- Of some rules, the first that is broken has this error. -/
inductive FirstBroken : List Rule → QueryError → Prop where
  | here {rule : Rule} {rest : List Rule} (hbroken : ¬rule.kept) :
      FirstBroken (rule :: rest) rule.error
  | later {rule : Rule} {rest : List Rule} {fault : QueryError} (hkept : rule.kept)
      (hrest : FirstBroken rest fault) : FirstBroken (rule :: rest) fault

/-- A result is had if all rules are kept, and else the error of the first that is broken. -/
def Follows {α : Type} (rules : List Rule) : Except QueryError α → Prop
  | .ok _ => ∀ rule ∈ rules, rule.kept
  | .error fault => FirstBroken rules fault

section

variable {α β : Type} {rules others : List Rule} {fault another : QueryError}

theorem FirstBroken.not_kept (hbroken : FirstBroken rules fault) :
    ¬∀ rule ∈ rules, rule.kept := by
  induction hbroken with
  | here hbroken => exact fun hall => hbroken (hall _ List.mem_cons_self)
  | later _ _ ih => exact fun hall => ih fun rule hrule => hall rule (List.mem_cons_of_mem _ hrule)

theorem FirstBroken.unique (hfirst : FirstBroken rules fault)
    (hsecond : FirstBroken rules another) : fault = another := by
  induction hfirst with
  | here hbroken =>
      cases hsecond with
      | here => rfl
      | later hkept => exact absurd hkept hbroken
  | later hkept _ ih =>
      cases hsecond with
      | here hbroken => exact absurd hkept hbroken
      | later _ hrest => exact ih hrest

theorem FirstBroken.append_right (hbroken : FirstBroken rules fault) (others : List Rule) :
    FirstBroken (rules ++ others) fault := by
  induction hbroken with
  | here hbroken => exact .here hbroken
  | later hkept _ ih => exact .later hkept ih

theorem FirstBroken.append_left (hkept : ∀ rule ∈ others, rule.kept)
    (hbroken : FirstBroken rules fault) : FirstBroken (others ++ rules) fault := by
  induction others with
  | nil => exact hbroken
  | cons rule rest ih =>
      rw [List.forall_mem_cons] at hkept
      exact .later hkept.1 (ih hkept.2)

theorem Follows.ok_iff {result : Except QueryError α} (hfollows : Follows rules result) :
    (∃ a, result = .ok a) ↔ ∀ rule ∈ rules, rule.kept := by
  cases result with
  | error fault => simpa using hfollows.not_kept
  | ok a => exact ⟨fun _ => hfollows, fun _ => ⟨a, rfl⟩⟩

theorem Follows.error_iff {result : Except QueryError α} (hfollows : Follows rules result)
    (fault : QueryError) : result = .error fault ↔ FirstBroken rules fault := by
  cases result with
  | error other =>
      rw [Except.error.injEq]
      constructor
      · rintro rfl
        exact hfollows
      · exact FirstBroken.unique hfollows
  | ok a =>
      simp only [reduceCtorEq, false_iff]
      exact fun hbroken => hbroken.not_kept hfollows

/--
A step whose error is that of the whole comes before the rest; together they follow the rules of
both.
-/
theorem Follows.andThen {first : Except QueryError α} {result : Except QueryError β}
    (hfirst : Follows rules first)
    (herror : ∀ fault, first = .error fault → result = .error fault)
    (hrest : ∀ a, first = .ok a → Follows others result) : Follows (rules ++ others) result := by
  cases hstep : first with
  | error fault =>
      rw [hstep] at hfirst
      rw [herror fault hstep]
      exact FirstBroken.append_right hfirst others
  | ok a =>
      have hresult := hrest a hstep
      rw [hstep] at hfirst
      cases result with
      | error fault => exact FirstBroken.append_left hfirst hresult
      | ok b => exact List.forall_mem_append.mpr ⟨hfirst, hresult⟩

theorem follows_broken {kept : Prop} (hbroken : ¬kept) :
    Follows (⟨kept, fault⟩ :: rules) (.error fault : Except QueryError α) :=
  FirstBroken.here hbroken

theorem Follows.cons {rule : Rule} {result : Except QueryError α} (hkept : rule.kept)
    (hresult : Follows rules result) : Follows (rule :: rules) result := by
  cases result with
  | error fault => exact .later hkept hresult
  | ok a => exact List.forall_mem_cons.mpr ⟨hkept, hresult⟩

/-- A check comes before what else is to be kept. -/
theorem follows_check {rule : Rule} {broken : Prop} [Decidable broken]
    {result : Except QueryError α} (hrule : broken ↔ ¬rule.kept)
    (hresult : Follows rules result) :
    Follows (rule :: rules) (if broken then .error rule.error else result) := by
  split
  · rename_i hbroken
    exact .here (hrule.mp hbroken)
  · rename_i hbroken
    exact hresult.cons (not_not.mp fun hkept => hbroken (hrule.mpr hkept))

theorem follows_ok (a : α) : Follows [] (.ok a) := by
  intro rule hrule
  exact absurd hrule List.not_mem_nil

/-- After the last step that can fail there is nothing more to keep. -/
theorem Follows.lastly {first : Except QueryError α} {result : Except QueryError β}
    (hfirst : Follows rules first)
    (herror : ∀ fault, first = .error fault → result = .error fault)
    (hrest : ∀ a, first = .ok a → ∃ b, result = .ok b) : Follows rules result := by
  rw [← List.append_nil rules]
  refine hfirst.andThen herror fun a ha => ?_
  obtain ⟨b, hb⟩ := hrest a ha
  rw [hb]
  exact follows_ok b

end

/-- The JSON values that a field of some kind takes. -/
def FieldKind.Takes : FieldKind → Json → Prop
  | .text, json => ∃ s, json = .string s
  | .i64, json =>
      ∃ n : Int, json = .integer n ∧ Int64.minValue.toInt ≤ n ∧ n ≤ Int64.maxValue.toInt
  | .f64, json => (∃ n, json = .integer n) ∨ ∃ x, json = .float x

theorem FieldKind.takes_iff {kind : FieldKind} {json : Json} :
    kind.Takes json ↔ ∃ value, FieldValue.ofJson? kind json = some value := by
  have hmax (n : Int) : n ≤ Int64.maxValue.toInt ↔ n < 9223372036854775808 :=
    Int.le_iff_lt_add_one
  cases kind <;> cases json <;>
    simp [Takes, FieldValue.ofJson?, Json.int64?, Json.float?, hmax]

namespace Plan

/-- What a field of a name has to be: one that is declared, and of which more is to be said. -/
def fieldRules (schema : Schema) (name : String) (others : FieldDef → List Rule) : List Rule :=
  ⟨schema.declared name ≠ [], .unknownField name⟩ :: (schema.declared name).flatMap others

/-- What a field has to be for full-text queries. -/
def textRules (schema : Schema) (name : String) : List Rule :=
  fieldRules schema name fun field =>
    [⟨field.kind = .text, .kindMismatch name .text field.kind⟩,
      ⟨field.indexed = true, .notIndexed name⟩]

/-- What the fields of a full-text query have to be; if it names none there are default fields. -/
def targetRules (schema : Schema) : List String → List Rule
  | [] => [⟨schema.defaultNames ≠ [], .noSearchFields⟩]
  | names => names.flatMap (textRules schema)

/-- The names of the fields that a full-text query looks at. -/
def targetNames (schema : Schema) : List String → List String
  | [] => schema.defaultNames
  | names => names

/-- Fields have to be cut into terms. -/
def cutRules (schema : Schema) (names : List String) : List Rule :=
  names.map fun name =>
    ⟨∀ field ∈ schema.declared name, field.effectiveTokenizer ≠ .raw, .phraseOnRawField name⟩

def rangeRules (schema : Schema) (name : String) (kind : FieldKind) : List Rule :=
  fieldRules schema name fun field =>
    [⟨field.kind = kind, .kindMismatch name kind field.kind⟩, ⟨field.fast = true, .notFast name⟩]

/-- Bounds that are both given must leave something between them. -/
def boundRules {α : Type} [LT α] (crossed : α → α → QueryError) : Option α → Option α → List Rule
  | some min, some max => [⟨¬max < min, crossed min max⟩]
  | _, _ => []

/-- What a clause has to keep, whatever the clauses within it; `cap` bounds edit distances. -/
def clauseRules (schema : Schema) (cap : UInt8) : QueryDef → List Rule
  | .text _ names => targetRules schema names
  | .fuzzy _ distance names =>
      ⟨distance ≤ cap, .distanceTooLarge distance cap⟩ :: targetRules schema names
  | .phrase _ names => targetRules schema names ++ cutRules schema (targetNames schema names)
  | .startsWith start names => ⟨start ≠ "", .emptyPrefix⟩ :: targetRules schema names
  | .term name value =>
      fieldRules schema name fun field =>
        [⟨field.indexed = true, .notIndexed name⟩,
          ⟨field.kind.Takes value, .valueMismatch name field.kind value⟩]
  | .rangeI64 name min max =>
      rangeRules schema name .i64 ++ boundRules .integersCrossed min max
  | .rangeF64 name min max =>
      rangeRules schema name .f64 ++ boundRules .floatsCrossed min max
  | .bool _ _ _ | .all => []

/-- What a query has to keep, clause by clause. -/
def rules (schema : Schema) (cap : UInt8) (query : QueryDef) : List Rule :=
  query.clauses.flatMap (clauseRules schema cap)

variable {schema : Schema} {cap : UInt8}

/-- A step that looks for the field of a name follows the rules of that field. -/
theorem follows_lookup {α : Type} {name : String} {others : FieldDef → List Rule}
    {next : FieldId → FieldDef → Except QueryError α}
    (hnext : ∀ id field, Follows (others field) (next id field)) :
    Follows (fieldRules schema name others)
      (match schema.lookup? name with
      | none => .error (.unknownField name)
      | some (id, field) => next id field) := by
  unfold fieldRules
  cases hlookup : schema.lookup? name with
  | none =>
      rw [Schema.declared_of_lookup?_none hlookup]
      exact follows_broken fun h => h rfl
  | some found =>
      obtain ⟨id, field⟩ := found
      rw [Schema.declared_of_lookup? hlookup, List.flatMap_singleton]
      exact (hnext id field).cons (List.cons_ne_nil field [])

theorem follows_textField (schema : Schema) (name : String) :
    Follows (textRules schema name) (textField schema name) := by
  apply follows_lookup
  intro id field
  apply follows_check (by simp)
  apply follows_check (by simp)
  exact follows_ok id

theorem follows_textFieldsOf (schema : Schema) (names : List String) :
    Follows (names.flatMap (textRules schema)) (textFieldsOf schema names) := by
  induction names with
  | nil => exact follows_ok []
  | cons name rest ih =>
      rw [List.flatMap_cons]
      refine (follows_textField schema name).andThen (fun fault hfault => ?_) fun id hid => ?_
      · rw [textFieldsOf, hfault]
      · rw [textFieldsOf, hid]
        refine ih.lastly (fun fault hfault => ?_) fun ids hids => ?_
        · rw [hfault]
        · rw [hids]
          exact ⟨_, rfl⟩

theorem follows_targets (schema : Schema) (names : List String) :
    Follows (targetRules schema names) (targets schema names) := by
  cases names with
  | cons name rest => exact follows_textFieldsOf schema (name :: rest)
  | nil =>
      have hlength := schema.names_targets.length_eq
      rw [targets, targetRules]
      split
      · rename_i hnone
        rw [hnone] at hlength
        refine follows_broken ?_
        exact fun hsome => hsome (List.length_eq_zero_iff.mp hlength)
      · rename_i hsome
        refine (follows_ok _).cons ?_
        rintro hnone
        rw [hnone] at hlength
        exact hsome (List.length_eq_zero_iff.mp hlength.symm)

/-- The fields that a full-text query looks at are those of the names in order. -/
theorem names_of_targets {names : List String} {ids : List FieldId}
    (htargets : targets schema names = .ok ids) :
    List.Forall₂ schema.Names (targetNames schema names) ids := by
  cases names with
  | cons name rest => exact (areTargets_of_targets htargets).named (List.cons_ne_nil name rest)
  | nil =>
      rw [targets] at htargets
      split at htargets
      · contradiction
      · obtain rfl := Except.ok.inj htargets
        exact schema.names_targets

/-- The first field that is not cut into terms breaks the first rule that is broken. -/
theorem follows_checkCut {names : List String} {ids : List FieldId}
    (hnames : List.Forall₂ schema.Names names ids)
    (hsearchable : ∀ id ∈ ids, schema.Searchable id) :
    Follows (cutRules schema names) (checkCut schema ids) := by
  induction hnames with
  | nil => exact follows_ok ()
  | @cons name id names ids hname _ ih =>
      rw [List.forall_mem_cons] at hsearchable
      obtain ⟨⟨field, hfield, hfit⟩, hrest⟩ := hsearchable
      obtain ⟨another, hanother, rfl⟩ := (hname id).mpr rfl
      obtain rfl := Option.some.inj (hfield.symm.trans hanother)
      have hdeclared := Schema.declared_of_field? hfield
      simp only [checkCut, byHandle_of_field? hfield, isTokenized_iff hfit, cutRules, List.map_cons]
      split
      · rename_i hcut
        refine Follows.cons ?_ (ih hrest)
        simp [hdeclared, hcut]
      · rename_i hraw
        refine follows_broken ?_
        simp [hdeclared, not_not.mp hraw]

theorem follows_ofFuzzy (schema : Schema) (cap : UInt8) (sought : String) (distance : UInt8)
    (names : List String) :
    Follows (clauseRules schema cap (.fuzzy sought distance names))
      (ofFuzzy schema cap sought distance names) := by
  apply follows_check (by simp)
  refine (follows_targets schema names).lastly (fun fault hfault => ?_) fun ids hids => ?_
  · rw [hfault]
  · rw [hids]
    dsimp only
    split <;> exact ⟨_, rfl⟩

theorem follows_ofPhrase (schema : Schema) (cap : UInt8) (sought : String)
    (names : List String) :
    Follows (clauseRules schema cap (.phrase sought names)) (ofPhrase schema sought names) := by
  unfold ofPhrase
  refine (follows_targets schema names).andThen (fun fault hfault => ?_) fun ids hids => ?_
  · rw [hfault]
  · rw [hids]
    have hcut := follows_checkCut (names_of_targets hids) (areTargets_of_targets hids).searchable
    refine hcut.lastly (fun fault hfault => ?_) fun _ hok => ?_
    · simp only [hfault]
    · simp only [hok]
      split <;> exact ⟨_, rfl⟩

theorem follows_ofPrefix (schema : Schema) (cap : UInt8) (start : String)
    (names : List String) :
    Follows (clauseRules schema cap (.startsWith start names)) (ofPrefix schema start names) := by
  apply follows_check (by simp)
  refine (follows_targets schema names).lastly (fun fault hfault => ?_) fun ids hids => ?_
  · rw [hfault]
  · rw [hids]
    simp only [prefixClauses_eq (areTargets_of_targets hids).searchable]
    exact ⟨_, rfl⟩

theorem follows_ofTerm (schema : Schema) (cap : UInt8) (name : String) (value : Json) :
    Follows (clauseRules schema cap (.term name value)) (ofTerm schema name value) := by
  simp only [ofTerm, termValue?_eq_ofJson?]
  apply follows_lookup
  intro id field
  apply follows_check (by simp)
  cases hvalue : FieldValue.ofJson? field.kind value with
  | none =>
      refine follows_broken ?_
      simp [FieldKind.takes_iff, hvalue]
  | some found =>
      exact (follows_ok _).cons (FieldKind.takes_iff.mpr ⟨found, hvalue⟩)

theorem follows_rangeField (schema : Schema) (name : String) (kind : FieldKind) :
    Follows (rangeRules schema name kind) (rangeField schema name kind) := by
  apply follows_lookup
  intro id field
  apply follows_check (by simp)
  apply follows_check (by simp)
  exact follows_ok id

theorem follows_checkIntegers (min max : Option Int64) :
    Follows (boundRules .integersCrossed min max) (checkIntegers min max) := by
  unfold checkIntegers
  split
  · exact follows_check (by simp) (follows_ok ())
  · cases min <;> cases max <;> first | exact follows_ok () | simp_all

theorem follows_checkFloats (min max : Option Float) :
    Follows (boundRules .floatsCrossed min max) (checkFloats min max) := by
  unfold checkFloats
  split
  · exact follows_check (by simp) (follows_ok ())
  · cases min <;> cases max <;> first | exact follows_ok () | simp_all

/-- A query of clauses is planned list by list. -/
theorem ofQuery_bool (schema : Schema) (cap : UInt8) {must should mustNot : List QueryDef}
    (hsome : ¬(must = [] ∧ should = [] ∧ mustNot = [])) :
    ofQuery schema cap (.bool must should mustNot) =
      match ofQueries schema cap must with
      | .error fault => .error fault
      | .ok musts =>
          match ofQueries schema cap should with
          | .error fault => .error fault
          | .ok shoulds =>
              match ofQueries schema cap mustNot with
              | .error fault => .error fault
              | .ok mustNots => .ok (.bool musts shoulds mustNots) := by
  have hclauses (hmust : must = []) (hshould : should = []) (hmustNot : mustNot = []) : False :=
    hsome ⟨hmust, hshould, hmustNot⟩
  rw [ofQuery]
  all_goals first
    | rfl
    | exact hclauses

theorem rules_bool (schema : Schema) (cap : UInt8) (must should mustNot : List QueryDef) :
    rules schema cap (.bool must should mustNot) =
      must.flatMap (rules schema cap) ++
        (should.flatMap (rules schema cap) ++ mustNot.flatMap (rules schema cap)) := by
  simp only [rules, QueryDef.clauses, QueryDef.clausesOfList_eq_flatMap, List.flatMap_cons,
    clauseRules, List.nil_append, List.flatMap_append, List.flatMap_assoc, List.append_assoc]
  rfl

mutual

/-- Planning follows the rules; the induction is on the query, with one case for each type. -/
theorem follows_ofQuery (query : QueryDef) :
    Follows (rules schema cap query) (ofQuery schema cap query) := by
  cases query with
  | text sought names =>
      rw [rules, QueryDef.clauses, List.flatMap_singleton]
      refine (follows_targets schema names).lastly (fun fault hfault => ?_) fun ids hids => ?_
      · rw [ofQuery, hfault]
      · rw [ofQuery, hids]
        exact ⟨_, rfl⟩
  | fuzzy sought distance names =>
      rw [rules, QueryDef.clauses, List.flatMap_singleton]
      exact follows_ofFuzzy schema cap sought distance names
  | phrase sought names =>
      rw [rules, QueryDef.clauses, List.flatMap_singleton]
      exact follows_ofPhrase schema cap sought names
  | startsWith start names =>
      rw [rules, QueryDef.clauses, List.flatMap_singleton]
      exact follows_ofPrefix schema cap start names
  | term name value =>
      rw [rules, QueryDef.clauses, List.flatMap_singleton]
      exact follows_ofTerm schema cap name value
  | rangeI64 name min max =>
      rw [rules, QueryDef.clauses, List.flatMap_singleton, clauseRules]
      refine (follows_rangeField schema name .i64).andThen (fun fault hfault => ?_)
        fun id hid => ?_
      · rw [ofQuery, hfault]
      · rw [ofQuery, hid]
        refine (follows_checkIntegers min max).lastly (fun fault hfault => ?_) fun _ hchecked => ?_
        · rw [hfault]
        · rw [hchecked]
          exact ⟨_, rfl⟩
  | rangeF64 name min max =>
      rw [rules, QueryDef.clauses, List.flatMap_singleton, clauseRules]
      refine (follows_rangeField schema name .f64).andThen (fun fault hfault => ?_)
        fun id hid => ?_
      · rw [ofQuery, hfault]
      · rw [ofQuery, hid]
        refine (follows_checkFloats min max).lastly (fun fault hfault => ?_) fun _ hchecked => ?_
        · rw [hfault]
        · rw [hchecked]
          exact ⟨_, rfl⟩
  | bool must should mustNot =>
      rw [rules_bool]
      by_cases hnone : must = [] ∧ should = [] ∧ mustNot = []
      · obtain ⟨rfl, rfl, rfl⟩ := hnone
        exact follows_ok _
      · have hbool := ofQuery_bool schema cap hnone
        refine (follows_ofQueries must).andThen (fun fault hfault => ?_) fun musts hmusts => ?_
        · rw [hbool, hfault]
        · refine (follows_ofQueries should).andThen (fun fault hfault => ?_)
            fun shoulds hshoulds => ?_
          · rw [hbool, hmusts, hfault]
          · refine (follows_ofQueries mustNot).lastly (fun fault hfault => ?_)
              fun mustNots hmustNots => ?_
            · rw [hbool, hmusts, hshoulds, hfault]
            · rw [hbool, hmusts, hshoulds, hmustNots]
              exact ⟨_, rfl⟩
  | all => exact follows_ok _
  termination_by structural query

theorem follows_ofQueries (queries : List QueryDef) :
    Follows (queries.flatMap (rules schema cap)) (ofQueries schema cap queries) := by
  cases queries with
  | nil => exact follows_ok _
  | cons query rest =>
      rw [List.flatMap_cons]
      refine (follows_ofQuery query).andThen (fun fault hfault => ?_) fun plan hplan => ?_
      · rw [ofQueries, hfault]
      · rw [ofQueries, hplan]
        refine (follows_ofQueries rest).lastly (fun fault hfault => ?_) fun plans hplans => ?_
        · rw [hfault]
        · rw [hplans]
          exact ⟨_, rfl⟩
  termination_by structural queries

end

/-! The cap -/

mutual

/-- What is planned under a cap is planned alike under a greater one. -/
theorem ofQuery_of_le {other : UInt8} (hcap : cap ≤ other) (query : QueryDef) {plan : Plan}
    (hplan : ofQuery schema cap query = .ok plan) : ofQuery schema other query = .ok plan := by
  cases query with
  | text | phrase | startsWith | term | rangeI64 | rangeF64 | all => exact hplan
  | fuzzy sought distance names =>
      rw [ofQuery, ofFuzzy] at hplan ⊢
      split at hplan
      · contradiction
      · rename_i hdistance
        rw [UInt8.not_lt] at hdistance
        rw [if_neg (UInt8.not_lt.mpr (UInt8.le_trans hdistance hcap))]
        exact hplan
  | bool must should mustNot =>
      by_cases hnone : must = [] ∧ should = [] ∧ mustNot = []
      · obtain ⟨rfl, rfl, rfl⟩ := hnone
        exact hplan
      · rw [ofQuery_bool schema cap hnone] at hplan
        rw [ofQuery_bool schema other hnone]
        split at hplan
        · contradiction
        · rename_i musts hmusts
          split at hplan
          · contradiction
          · rename_i shoulds hshoulds
            split at hplan
            · contradiction
            · rename_i mustNots hmustNots
              rw [ofQueries_of_le hcap must hmusts, ofQueries_of_le hcap should hshoulds,
                ofQueries_of_le hcap mustNot hmustNots]
              exact hplan
  termination_by structural query

theorem ofQueries_of_le {other : UInt8} (hcap : cap ≤ other) (queries : List QueryDef)
    {plans : List Plan} (hplans : ofQueries schema cap queries = .ok plans) :
    ofQueries schema other queries = .ok plans := by
  cases queries with
  | nil => exact hplans
  | cons query rest =>
      rw [ofQueries] at hplans ⊢
      split at hplans
      · contradiction
      · rename_i plan hplan
        split at hplans
        · contradiction
        · rename_i others hothers
          rw [ofQuery_of_le hcap query hplan, ofQueries_of_le hcap rest hothers]
          exact hplans
  termination_by structural queries

end

/-- A query has the same plan under all caps under which it has one. -/
theorem plan_unique {other : UInt8} {query : QueryDef} {plan another : Plan}
    (hplan : ofQuery schema cap query = .ok plan)
    (hanother : ofQuery schema other query = .ok another) : plan = another := by
  rcases UInt8.le_total cap other with hle | hle
  · exact Except.ok.inj ((ofQuery_of_le hle query hplan).symm.trans hanother)
  · exact Except.ok.inj (hplan.symm.trans (ofQuery_of_le hle query hanother))

/--
A query compiles if all its clauses keep all their rules, and otherwise the error is that of the
first rule that is broken, the clauses being taken in the order `must`, `should`, `must_not`, from
the left and each with the clauses within it. The cap decides no more than whether a query compiles:
two caps under both of which it does give the same plan.
-/
theorem compile_follows_rules (schema : Schema) (cap : UInt8) (query : QueryDef) :
    ((∃ plan, compile schema cap query = .ok plan) ↔
      ∀ clause ∈ query.clauses, ∀ rule ∈ clauseRules schema (min cap 2) clause, rule.kept) ∧
    (∀ fault, compile schema cap query = .error fault ↔
      FirstBroken (query.clauses.flatMap (clauseRules schema (min cap 2))) fault) ∧
    ∀ other plan another, compile schema cap query = .ok plan →
      compile schema other query = .ok another → plan = another := by
  have hfollows : Follows (rules schema (min cap 2) query) (compile schema cap query) :=
    follows_ofQuery query
  refine ⟨?_, hfollows.error_iff, fun other plan another => plan_unique⟩
  exact hfollows.ok_iff.trans List.forall_mem_flatMap

/-- Of the two clauses that are at fault, the first one is within another. -/
def tangledQuery : QueryDef :=
  .bool [.all] [.phrase "white whale" []]
    [.bool [] [.term "year" (.string "1851")] [], .text "whale" ["author"]]

theorem tangledQuery_refused :
    compile librarySchema 5 tangledQuery =
      .error (.valueMismatch "year" .i64 (.string "1851")) ∧
    compile librarySchema 5 whaleQuery = .ok whalePlan ∧
    compile librarySchema 2 whaleQuery = .ok whalePlan ∧
    ∀ another, compile librarySchema 2 whaleQuery = .ok another → whalePlan = another := by
  have hwhale : compile librarySchema 5 whaleQuery = .ok whalePlan := rfl
  refine ⟨?_, hwhale, rfl, fun another => ?_⟩
  · refine ((compile_follows_rules librarySchema 5 tangledQuery).2.1 _).mpr ?_
    have htitles : librarySchema.defaultNames = ["title"] := rfl
    -- The phrase keeps its rules, and so does the clause on years up to the last of its own.
    refine .later (by simp [htitles]) (.later ?_ (.later ?_ (.later rfl (.here ?_))))
    · simp [librarySchema, Schema.declared, Schema.fields, libraryDefinition,
        FieldDef.effectiveTokenizer]
    · exact List.cons_ne_nil _ _
    · rintro ⟨n, hn, -⟩
      contradiction
  · exact (compile_follows_rules librarySchema 5 whaleQuery).2.2 2 whalePlan another hwhale

end Plan

end DocIndex
