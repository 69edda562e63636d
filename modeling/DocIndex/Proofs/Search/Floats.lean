import DocIndex.Proofs.Decimal.Order
import DocIndex.Proofs.Search.Ranges
import DocIndex.Proofs.Search.Values

/-!
Searching for floats. Ranges and terms go by the places of floats, and so tell the two zeros apart:
a range from `0.0` on leaves `-0.0` out, as a range up to `-0.0` leaves `0.0` out, and a zero finds
the zeros of its own sign. In all else numbers are found as they compare.
-/

namespace DocIndex

open Decimal

/-! Numbers in a range -/

theorem isNaN_infinity : infinity.isNaN = false :=
  isNaN_eq_false_iff.mpr (by rw [floatRank_infinity, floatRank_neg_infinity]; decide)

theorem isNaN_neg_infinity : (-infinity).isNaN = false :=
  isNaN_eq_false_iff.mpr (by rw [floatRank_infinity, floatRank_neg_infinity]; decide)

theorem isNaN_getD {bound : Option Float} {other : Float}
    (hbound : ∀ x ∈ bound, x.isNaN = false) (hother : other.isNaN = false) :
    (bound.getD other).isNaN = false := by
  cases bound with
  | none => exact hother
  | some x => exact hbound x rfl

theorem ValueRange.holds_floats_iff {min max : Option Float} {value : FieldValue}
    (hmin : ∀ least ∈ min, least.isNaN = false)
    (hmax : ∀ greatest ∈ max, greatest.isNaN = false) :
    (floats min max).holds value = true ↔
      ∃ x, value = .f64 x ∧ x.isNaN = false ∧
        (∀ least ∈ min, least ≤ x ∧ ¬(least = 0.0 ∧ x = -0.0)) ∧
        ∀ greatest ∈ max, x ≤ greatest ∧ ¬(x = 0.0 ∧ greatest = -0.0) := by
  cases value with
  | text s => simp [holds, floats, between, FieldValue.atMost]
  | i64 n => simp [holds, floats, between, FieldValue.atMost]
  | f64 x =>
      have hlowest := isNaN_eq_false_iff.mp (isNaN_getD hmin isNaN_neg_infinity)
      have hhighest := isNaN_eq_false_iff.mp (isNaN_getD hmax isNaN_infinity)
      have hplaces : (floats min max).holds (.f64 x) = true ↔
          floatRank (min.getD (-infinity)) ≤ floatRank x ∧
            floatRank x ≤ floatRank (max.getD infinity) := by
        simp [holds, floats, between, FieldValue.atMost]
      have hlow (hx : x.isNaN = false) : floatRank (min.getD (-infinity)) ≤ floatRank x ↔
          ∀ least ∈ min, least ≤ x ∧ ¬(least = 0.0 ∧ x = -0.0) := by
        cases min with
        | none => simpa using (isNaN_eq_false_iff.mp hx).1
        | some least => simpa using floatRank_le_iff (hmin least rfl) hx
      have hhigh (hx : x.isNaN = false) : floatRank x ≤ floatRank (max.getD infinity) ↔
          ∀ greatest ∈ max, x ≤ greatest ∧ ¬(x = 0.0 ∧ greatest = -0.0) := by
        cases max with
        | none => simpa using (isNaN_eq_false_iff.mp hx).2
        | some greatest => simpa using floatRank_le_iff hx (hmax greatest rfl)
      rw [hplaces]
      constructor
      · rintro ⟨hleast, hgreatest⟩
        have hx : x.isNaN = false :=
          isNaN_eq_false_iff.mpr ⟨hlowest.1.trans hleast, hgreatest.trans hhighest.2⟩
        exact ⟨x, rfl, hx, (hlow hx).mp hleast, (hhigh hx).mp hgreatest⟩
      · rintro ⟨_, ⟨rfl⟩, hx, hleast, hgreatest⟩
        exact ⟨(hlow hx).mpr hleast, (hhigh hx).mpr hgreatest⟩

namespace Plan

variable {schema : Schema} {id : FieldId} {field : FieldDef} {cap : UInt8}

theorem checkFloats_of_uncrossed {min max : Option Float}
    (hbounds : ∀ least ∈ min, ∀ greatest ∈ max, ¬greatest < least) :
    checkFloats min max = .ok () := by
  unfold checkFloats
  split
  · rename_i least greatest
    exact if_neg (hbounds least rfl greatest rfl)
  · rfl

theorem compile_rangeF64 (hfield : schema.field? id = some field) (hkind : field.kind = .f64)
    (hfast : field.fast = true) {min max : Option Float}
    (hbounds : ∀ least ∈ min, ∀ greatest ∈ max, ¬greatest < least) :
    compile schema cap (.rangeF64 field.name min max) = .ok (.rangeF64 id min max) := by
  have hrange := rangeField_of_field? hfield hfast
  rw [hkind] at hrange
  simp only [compile, ofQuery, hrange, checkFloats_of_uncrossed hbounds]

end Plan

/-! Equal numbers -/

theorem zero_ne_negZero : (0.0 : Float) ≠ -0.0 := by
  decide +kernel

/-- Equal numbers are the same float, unless they are two different zeros. -/
theorem eq_iff_beq {x y : Float} (hy : y.isNaN = false) :
    x = y ↔ x.isNaN = false ∧ (x == y) = true ∧ ¬(x = 0.0 ∧ y = -0.0) ∧ ¬(x = -0.0 ∧ y = 0.0) := by
  constructor
  · rintro rfl
    refine ⟨hy, (beq_iff hy hy).mpr (.inl rfl), ?_, ?_⟩
    · rintro ⟨hzero, hnegative⟩
      exact zero_ne_negZero (hzero.symm.trans hnegative)
    · rintro ⟨hnegative, hzero⟩
      exact zero_ne_negZero (hzero.symm.trans hnegative)
  · rintro ⟨hx, hequal, hzeros, hothers⟩
    rcases (beq_iff hx hy).mp hequal with hsame | hapart | hapart
    · exact hsame
    · exact absurd hapart hzeros
    · exact absurd hapart hothers

/-- A float is the only one that is neither below nor above itself. -/
theorem eq_iff_le_le {x y : Float} (hy : y.isNaN = false) :
    x = y ↔ x.isNaN = false ∧ (y ≤ x ∧ ¬(y = 0.0 ∧ x = -0.0)) ∧
      x ≤ y ∧ ¬(x = 0.0 ∧ y = -0.0) := by
  constructor
  · rintro rfl
    have hle := (floatRank_le_iff hy hy).mp (Nat.le_refl _)
    exact ⟨hy, hle, hle⟩
  · rintro ⟨hx, hleast, hgreatest⟩
    apply floatRank_injective
    exact Nat.le_antisymm ((floatRank_le_iff hx hy).mpr hgreatest)
      ((floatRank_le_iff hy hx).mpr hleast)

namespace Index

variable {index : Index} {state : OpenIndex} {id : FieldId} {field : FieldDef}

theorem finds_floats [Segmenter] (hopen : index.state = some state)
    (hfield : state.schema.field? id = some field) (hkind : field.kind = .f64)
    (hfast : field.fast = true) {min max : Option Float}
    (hmin : ∀ least ∈ min, least.isNaN = false)
    (hmax : ∀ greatest ∈ max, greatest.isNaN = false)
    (hbounds : ∀ least ∈ min, ∀ greatest ∈ max, ¬greatest < least) :
    (∃ page, index.query (.rangeF64 field.name min max) = .ok page) ∧
    ∀ document, document ∈ index.found (.rangeF64 field.name min max) ↔
      document ∈ state.committed ∧ ∃ x, document.value? id = some (.f64 x) ∧ x.isNaN = false ∧
        (∀ least ∈ min, least ≤ x ∧ ¬(least = 0.0 ∧ x = -0.0)) ∧
        ∀ greatest ∈ max, x ≤ greatest ∧ ¬(x = 0.0 ∧ greatest = -0.0) := by
  have htextless : (QueryDef.rangeF64 field.name min max).IsTextless := by
    simp [QueryDef.IsTextless, QueryDef.clauses]
  obtain ⟨hanswered, hfound⟩ := finds_of_compile hopen htextless
    (Plan.compile_rangeF64 hfield hkind hfast hbounds) rfl
  refine ⟨hanswered, fun document => ?_⟩
  rw [hfound, Criterion.admits_valueRange_iff (ValueRange.holds_floats_iff hmin hmax)]

theorem finds_float [Segmenter] (hopen : index.state = some state)
    (hfield : state.schema.field? id = some field) (hkind : field.kind = .f64)
    (hindexed : field.indexed = true) {sought : Json} {y : Float}
    (hmeans : FieldKind.Means .f64 sought (.f64 y)) :
    (∃ page, index.query (.term field.name sought) = .ok page) ∧
    ∀ document, document ∈ index.found (.term field.name sought) ↔
      document ∈ state.committed ∧ document.value? id = some (.f64 y) := by
  rw [← hkind] at hmeans
  apply finds_value hopen hfield hindexed hmeans
  exact FieldDef.keepsWhole_of_number hindexed (by simp [FieldValue.kind])

/--
Ranges of floats, on a field that is fast, and terms, if it is indexed, find numbers as they
compare, but for the zeros: `-0.0` is below the bound `0.0`, `0.0` is above the bound `-0.0`, and
neither is found by the other. A range from a number to itself finds what the number finds.
-/
theorem found_floats [Segmenter] (hopen : index.state = some state)
    (hfield : state.schema.field? id = some field) (hkind : field.kind = .f64)
    (hfast : field.fast = true) (hindexed : field.indexed = true) :
    (∀ min max : Option Float, (∀ least ∈ min, least.isNaN = false) →
      (∀ greatest ∈ max, greatest.isNaN = false) →
      (∀ least ∈ min, ∀ greatest ∈ max, ¬greatest < least) →
      (∃ page, index.query (.rangeF64 field.name min max) = .ok page) ∧
      ∀ document, document ∈ index.found (.rangeF64 field.name min max) ↔
        document ∈ state.committed ∧ ∃ x, document.value? id = some (.f64 x) ∧ x.isNaN = false ∧
          (∀ least ∈ min, least ≤ x ∧ ¬(least = 0.0 ∧ x = -0.0)) ∧
          ∀ greatest ∈ max, x ≤ greatest ∧ ¬(x = 0.0 ∧ greatest = -0.0)) ∧
    ∀ sought y, FieldKind.Means .f64 sought (.f64 y) → y.isNaN = false →
      (∃ page, index.query (.term field.name sought) = .ok page) ∧
      (∀ document, document ∈ index.found (.term field.name sought) ↔
        document ∈ state.committed ∧ ∃ x, document.value? id = some (.f64 x) ∧ x.isNaN = false ∧
          (x == y) = true ∧ ¬(x = 0.0 ∧ y = -0.0) ∧ ¬(x = -0.0 ∧ y = 0.0)) ∧
      index.found (.rangeF64 field.name (some y) (some y)) =
        index.found (.term field.name sought) := by
  constructor
  · intro min max hmin hmax hbounds
    exact finds_floats hopen hfield hkind hfast hmin hmax hbounds
  · intro sought y hmeans hnumber
    obtain ⟨hanswered, hfound⟩ := finds_float hopen hfield hkind hindexed hmeans
    refine ⟨hanswered, ?_, ?_⟩
    · intro document
      simp only [hfound, ← eq_iff_beq hnumber]
      simp
    · have hself : ∀ x ∈ some y, x.isNaN = false := by simpa using hnumber
      have hbounds : ∀ least ∈ some y, ∀ greatest ∈ some y, ¬greatest < least := by
        rintro _ ⟨rfl⟩ _ ⟨rfl⟩
        simp [lt_iff_steps hnumber hnumber]
      ext document
      rw [(finds_floats hopen hfield hkind hfast hself hself hbounds).2, hfound]
      simp only [Option.mem_some_iff, forall_eq', ← eq_iff_le_le hnumber]
      simp

end Index

/-- The level that a gauge reads. -/
def levelField : FieldDef where
  name := "level"
  kind := .f64
  fast := true

def gaugeDefinition : SchemaDef where
  fields := [levelField]

/-- The schema of a collection of readings. -/
def gaugeSchema : Schema :=
  ⟨gaugeDefinition, by rfl⟩

def reading (level : Float) : Document :=
  ⟨[(0, .f64 level)], []⟩

/-- What a collection holds: a reading of each zero and one between zero and one. -/
def gaugeState : OpenIndex where
  schema := gaugeSchema
  committed := [reading (-0.0), reading 0.0, reading 0.5]
  buffer := none

/-- A collection of readings that is open. -/
def openGauge : Index :=
  ⟨"gauge", {}, some gaugeState⟩

section

attribute [local instance] Segmenter.byRuns

theorem readings_found : openGauge.state = some gaugeState ∧
    gaugeSchema.field? 0 = some levelField ∧ levelField.kind = .f64 ∧ levelField.fast = true ∧
    levelField.indexed = true ∧
    reading 0.5 ∈ openGauge.found (.rangeF64 "level" (some 0.0) (some 1.0)) ∧
    reading 0.5 ∈ openGauge.found (.term "level" (.float 0.5)) := by
  have hopen : openGauge.state = some gaugeState := rfl
  have hfield : gaugeSchema.field? 0 = some levelField := rfl
  obtain ⟨hrange, hterm⟩ := Index.found_floats hopen hfield rfl rfl rfl
  have hzero : ∀ x ∈ some (0.0 : Float), x.isNaN = false := by
    rintro _ ⟨rfl⟩
    decide +kernel
  have hone : ∀ x ∈ some (1.0 : Float), x.isNaN = false := by
    rintro _ ⟨rfl⟩
    decide +kernel
  have hbounds : ∀ least ∈ some (0.0 : Float), ∀ greatest ∈ some (1.0 : Float),
      ¬greatest < least := by
    rintro _ ⟨rfl⟩ _ ⟨rfl⟩
    decide +kernel
  obtain ⟨-, hbetween⟩ := hrange (some 0.0) (some 1.0) hzero hone hbounds
  obtain ⟨-, hequal, -⟩ := hterm (.float 0.5) 0.5 (.f64 _) (by decide +kernel)
  refine ⟨hopen, hfield, rfl, rfl, rfl, (hbetween _).mpr ?_, (hequal _).mpr ?_⟩
  · refine ⟨by decide +kernel, 0.5, rfl, by decide +kernel, ?_, ?_⟩ <;> rintro _ ⟨rfl⟩ <;>
      decide +kernel
  · exact ⟨by decide +kernel, 0.5, rfl, by decide +kernel⟩

/-- Neither a range from `0.0` to `0.0` nor a query for `0.0` finds the reading of `-0.0`. -/
theorem readings_missed : openGauge.state = some gaugeState ∧
    reading (-0.0) ∈ gaugeState.committed ∧ (reading (-0.0)).value? 0 = some (.f64 (-0.0)) ∧
    (0.0 : Float) ≤ -0.0 ∧ (-0.0 : Float) ≤ 0.0 ∧ ((-0.0 : Float) == 0.0) = true ∧
    reading (-0.0) ∉ openGauge.found (.rangeF64 "level" (some 0.0) (some 0.0)) ∧
    reading (-0.0) ∉ openGauge.found (.term "level" (.float 0.0)) := by
  have hopen : openGauge.state = some gaugeState := rfl
  have hrange : Seeks gaugeSchema {} (.rangeF64 "level" (some 0.0) (some 0.0))
      (.valueRange 0 (.floats (some 0.0) (some 0.0))) := ⟨by rfl, rfl⟩
  have hterm : Seeks gaugeSchema {} (.term "level" (.float 0.0)) (.equals 0 (.f64 0.0)) :=
    ⟨rfl, rfl⟩
  rw [Index.mem_found_iff hopen hrange, Index.mem_found_iff hopen hterm]
  exact ⟨hopen, by decide +kernel⟩

end

end DocIndex
