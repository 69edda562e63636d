import DocIndex.Proofs.Lookup
import DocIndex.Schema.Compiled
import Mathlib.Data.List.Nodup

/-!
The tables of some fields. The fields, their places and what the index keeps of them are put
together by one walk, and stay in step: at every place of the walk the tables hold the fields before
it.
-/

namespace DocIndex

theorem admitsName_iff {kept : List (String × FieldStorage)} {name : String} :
    admitsName kept name = true ↔
      name ≠ "" ∧ name.toList.head? ≠ some '-' ∧ name ∉ kept.map (·.1) := by
  have hfresh : kept.lookup name = none ↔ name ∉ kept.map (·.1) := by
    rw [List.lookup_eq_none_iff]
    simp only [List.mem_map]
    grind
  simp only [admitsName, Bool.and_eq_true, decide_eq_true_eq, Option.isNone_iff_eq_none, hfresh,
    and_assoc]

namespace Tables

/-- The tables hold these fields, each by its place: under its name, and under its handle. -/
structure Hold (tables : Tables) (held : List FieldDef) : Prop where
  fields : tables.fields = held.mapIdx fun place field => ⟨place, field⟩
  places : tables.places.reverse = (held.map (·.name)).zipIdx
  storage : tables.storage = held.map fun field => (field.name, field.storage)

theorem hold_empty : Hold {} [] := ⟨rfl, rfl, rfl⟩

theorem add_eq_some_iff {tables next : Tables} {place : Nat} {field : FieldDef} :
    tables.add place field = some next ↔ admitsName tables.storage field.name = true ∧
      next = ⟨tables.fields ++ [⟨tables.storage.length, field⟩],
        (field.name, place) :: tables.places,
        tables.storage ++ [(field.name, field.storage)]⟩ := by
  rw [add, keepField]
  by_cases hname : admitsName tables.storage field.name = true <;> simp [hname, eq_comm]

/-- One more field is held at the place after those that were held before. -/
theorem Hold.add {tables next : Tables} {before : List FieldDef} {field : FieldDef}
    (hold : tables.Hold before) (hadd : tables.add before.length field = some next) :
    next.Hold (before ++ [field]) := by
  obtain ⟨-, rfl⟩ := add_eq_some_iff.mp hadd
  have hlength : tables.storage.length = before.length := by rw [hold.storage, List.length_map]
  constructor
  · rw [hold.fields, hlength, List.mapIdx_concat]
  · rw [List.reverse_cons, hold.places, List.map_append, List.zipIdx_append, List.length_map]
    simp
  · rw [hold.storage, List.map_append]
    rfl

theorem Hold.addAll {tables result : Tables} {before fields : List FieldDef}
    (hold : tables.Hold before) (hadd : tables.addAll before.length fields = some result) :
    result.Hold (before ++ fields) := by
  induction fields generalizing tables before with
  | nil =>
      obtain rfl := Option.some.inj hadd
      rwa [List.append_nil]
  | cons field rest ih =>
      rw [Tables.addAll] at hadd
      split at hadd
      · contradiction
      · rename_i next hnext
        have hlength : before.length + 1 = (before ++ [field]).length := by simp
        rw [hlength] at hadd
        rw [List.append_cons]
        exact ih (hold.add hnext) hadd

/-- Fields can be added if they can be added up to any of them, and its name is then admitted. -/
theorem admitsName_of_addAll {tables result : Tables} {place : Nat} {before after : List FieldDef}
    {field : FieldDef} (hadd : tables.addAll place (before ++ field :: after) = some result) :
    ∃ reached, tables.addAll place before = some reached ∧
      admitsName reached.storage field.name = true := by
  induction before generalizing tables place with
  | nil =>
      rw [List.nil_append, addAll] at hadd
      split at hadd
      · contradiction
      · rename_i next hnext
        exact ⟨tables, rfl, (add_eq_some_iff.mp hnext).1⟩
  | cons first rest ih =>
      rw [List.cons_append, addAll] at hadd
      rw [addAll]
      split at hadd
      · contradiction
      · exact ih hadd

section Lookups

variable {tables : Tables} {fields : List FieldDef} (hold : tables.Hold fields)
include hold

theorem Hold.ofHandle?_eq (id : FieldId) :
    tables.ofHandle? id = fields[id]?.map fun field => ⟨id, field⟩ := by
  rw [ofHandle?, hold.fields, List.getElem?_mapIdx]

theorem Hold.nodup_places (hnodup : (fields.map (·.name)).Nodup) :
    (tables.places.map (·.1)).Nodup := by
  rw [← List.nodup_reverse, ← List.map_reverse, hold.places, List.zipIdx_map_fst]
  exact hnodup

/-- A name leads to the field that has it, and to its place as the handle. -/
theorem Hold.ofName?_eq_some_iff (hnodup : (fields.map (·.name)).Nodup) {name : String}
    {compiled : CompiledField} :
    tables.ofName? name = some compiled ↔
      fields[compiled.id]? = some compiled.definition ∧ compiled.definition.name = name := by
  obtain ⟨id, field⟩ := compiled
  have hplace (place : Nat) : tables.places.lookup name = some place ↔
      ∃ other, fields[place]? = some other ∧ other.name = name := by
    rw [lookup_eq_some_iff_mem (hold.nodup_places hnodup), ← List.mem_reverse, hold.places,
      List.mem_zipIdx_iff_getElem?, List.getElem?_map, Option.map_eq_some_iff]
  have hget (place : Nat) :
      tables.fields[place]? = fields[place]?.map fun field => ⟨place, field⟩ :=
    hold.ofHandle?_eq place
  rw [ofName?, Option.bind_eq_some_iff]
  constructor
  · rintro ⟨place, hlookup, hfound⟩
    obtain ⟨other, hother, hname⟩ := (hplace place).mp hlookup
    rw [hget, hother, Option.map_some, Option.some.injEq, CompiledField.mk.injEq] at hfound
    obtain ⟨rfl, rfl⟩ := hfound
    exact ⟨hother, hname⟩
  · rintro ⟨hfield, hname⟩
    exact ⟨id, (hplace id).mpr ⟨field, hfield, hname⟩, by rw [hget, hfield, Option.map_some]⟩

end Lookups

end Tables

end DocIndex
