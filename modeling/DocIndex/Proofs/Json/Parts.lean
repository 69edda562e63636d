import DocIndex.Json.Reader
import DocIndex.Proofs.Json.Literal

/-!
What a value is made of. A value that a text can hold without loss has no float, as not every float
comes back from its decimal form, and no integer beyond 64 bits.
-/

namespace DocIndex.Json

mutual

/-- The value and all values within it. -/
def parts : Json → List Json
  | .array items => .array items :: partsOfItems items
  | .object members => .object members :: partsOfMembers members
  | .null => [.null]
  | .bool b => [.bool b]
  | .integer n => [.integer n]
  | .float x => [.float x]
  | .string s => [.string s]

def partsOfItems : List Json → List Json
  | [] => []
  | item :: rest => item.parts ++ partsOfItems rest

def partsOfMembers : List (String × Json) → List Json
  | [] => []
  | member :: rest => partsOfMember member ++ partsOfMembers rest

def partsOfMember : String × Json → List Json
  | (_, value) => value.parts

end

mutual

/-- The number of containers that are open at once while a value is read. -/
def nesting : Json → Nat
  | .array items => nestingOfItems items + 1
  | .object members => nestingOfMembers members + 1
  | .null => 0
  | .bool _ => 0
  | .integer _ => 0
  | .float _ => 0
  | .string _ => 0

def nestingOfItems : List Json → Nat
  | [] => 0
  | item :: rest => max item.nesting (nestingOfItems rest)

def nestingOfMembers : List (String × Json) → Nat
  | [] => 0
  | member :: rest => max (nestingOfMember member) (nestingOfMembers rest)

def nestingOfMember : String × Json → Nat
  | (_, value) => value.nesting

end

mutual

/-- The value with every float within it replaced. -/
def mapFloats (f : Float → Float) : Json → Json
  | .array items => .array (mapFloatsOfItems f items)
  | .object members => .object (mapFloatsOfMembers f members)
  | .null => .null
  | .bool b => .bool b
  | .integer n => .integer n
  | .float x => .float (f x)
  | .string s => .string s

def mapFloatsOfItems (f : Float → Float) : List Json → List Json
  | [] => []
  | item :: rest => item.mapFloats f :: mapFloatsOfItems f rest

/-- `mapFloats` on every member's value. -/
def mapFloatsOfMembers (f : Float → Float) : List (String × Json) → List (String × Json)
  | [] => []
  | member :: rest => mapFloatsOfMember f member :: mapFloatsOfMembers f rest

/-- `mapFloats` on a member's value. -/
def mapFloatsOfMember (f : Float → Float) : String × Json → String × Json
  | (key, value) => (key, value.mapFloats f)

end

theorem partsOfItems_eq_flatMap (items : List Json) : partsOfItems items = items.flatMap parts := by
  induction items with
  | nil => rfl
  | cons item rest ih => rw [partsOfItems, ih, List.flatMap_cons]

theorem partsOfMembers_eq_flatMap (members : List (String × Json)) :
    partsOfMembers members = members.flatMap fun member => member.2.parts := by
  induction members with
  | nil => rfl
  | cons member rest ih => rw [partsOfMembers, ih, List.flatMap_cons, partsOfMember]

theorem nestingOfMembers_append (before after : List (String × Json)) :
    nestingOfMembers (before ++ after) =
      max (nestingOfMembers before) (nestingOfMembers after) := by
  induction before with
  | nil => exact (Nat.zero_max _).symm
  | cons member rest ih =>
      rw [List.cons_append, nestingOfMembers, nestingOfMembers, ih, Nat.max_assoc]

theorem nestingOfMembers_eq_zero {members : List (String × Json)}
    (hmembers : ∀ member ∈ members, member.2.nesting = 0) : nestingOfMembers members = 0 := by
  induction members with
  | nil => rfl
  | cons member rest ih =>
      obtain ⟨hfirst, hrest⟩ := List.forall_mem_cons.mp hmembers
      rw [nestingOfMembers, nestingOfMember, hfirst, ih hrest]
      rfl

theorem nesting_lt_of_mem_items {items : List Json} {item : Json} (hitem : item ∈ items) :
    item.nesting < (array items).nesting := by
  induction items with
  | nil => contradiction
  | cons first rest ih =>
      rw [nesting, nestingOfItems]
      rcases List.mem_cons.mp hitem with rfl | hitem
      · omega
      · have hrest := ih hitem
        rw [nesting] at hrest
        omega

theorem nesting_lt_of_mem_members {members : List (String × Json)} {key : String} {value : Json}
    (hmember : (key, value) ∈ members) : value.nesting < (object members).nesting := by
  induction members with
  | nil => contradiction
  | cons first rest ih =>
      rw [nesting, nestingOfMembers]
      rcases List.mem_cons.mp hmember with rfl | hmember
      · rw [nestingOfMember]
        omega
      · have hrest := ih hmember
        rw [nesting] at hrest
        omega

theorem forall_parts_array_iff {items : List Json} {holds : Json → Prop} :
    (∀ part ∈ (array items).parts, holds part) ↔
      holds (array items) ∧ ∀ item ∈ items, ∀ part ∈ item.parts, holds part := by
  rw [parts, partsOfItems_eq_flatMap, List.forall_mem_cons, List.forall_mem_flatMap]

theorem forall_parts_object_iff {members : List (String × Json)} {holds : Json → Prop} :
    (∀ part ∈ (object members).parts, holds part) ↔
      holds (object members) ∧ ∀ member ∈ members, ∀ part ∈ member.2.parts, holds part := by
  rw [parts, partsOfMembers_eq_flatMap, List.forall_mem_cons, List.forall_mem_flatMap]

theorem parts_of_mem_items {items : List Json} {item : Json} (hitem : item ∈ items) :
    ∀ part ∈ item.parts, part ∈ (array items).parts :=
  (forall_parts_array_iff.mp fun _ hpart => hpart).2 item hitem

theorem parts_of_mem_members {members : List (String × Json)} {member : String × Json}
    (hmember : member ∈ members) : ∀ part ∈ member.2.parts, part ∈ (object members).parts :=
  (forall_parts_object_iff.mp fun _ hpart => hpart).2 member hmember

def floats (value : Json) : List Float :=
  value.parts.filterMap fun
    | .float x => some x
    | _ => none

/-- Every integer within the value is one of 64 bits. -/
def HoldsWords (value : Json) : Prop :=
  ∀ n, .integer n ∈ value.parts → IsWord n

/-- The value comes back from its text. -/
structure Legible (value : Json) : Prop where
  floats : value.floats = []
  words : value.HoldsWords

theorem legible_iff {value : Json} :
    value.Legible ↔
      ∀ part ∈ value.parts, (∀ x, part ≠ float x) ∧ ∀ n, part = integer n → IsWord n := by
  constructor
  · intro hvalue part hpart
    have hnone := hvalue.floats
    rw [Json.floats, List.filterMap_eq_nil_iff] at hnone
    constructor
    · rintro x rfl
      exact absurd (hnone _ hpart) (Option.some_ne_none x)
    · rintro n rfl
      exact hvalue.words n hpart
  · intro hparts
    constructor
    · rw [Json.floats, List.filterMap_eq_nil_iff]
      intro part hpart
      have hfloat := (hparts part hpart).1
      cases part with
      | float x => exact absurd rfl (hfloat x)
      | null | bool | integer | string | array | object => rfl
    · exact fun n hn => (hparts _ hn).2 n rfl

theorem Legible.of_parts {small large : Json} (hparts : ∀ part ∈ small.parts, part ∈ large.parts)
    (hlarge : large.Legible) : small.Legible :=
  legible_iff.mpr fun part hpart => legible_iff.mp hlarge part (hparts part hpart)

theorem Legible.member {members : List (String × Json)} (hobject : (object members).Legible) :
    ∀ member ∈ members, member.2.Legible :=
  fun _ hmember => hobject.of_parts (parts_of_mem_members hmember)

theorem legible_null : null.Legible := by simp [legible_iff, parts]

theorem legible_string (s : String) : (string s).Legible := by simp [legible_iff, parts]

theorem legible_integer {n : Int} (hn : IsWord n) : (integer n).Legible := by
  simpa [legible_iff, parts] using hn

theorem legible_array {items : List Json} (hitems : ∀ item ∈ items, item.Legible) :
    (array items).Legible := by
  rw [legible_iff, forall_parts_array_iff]
  exact ⟨by simp, fun item hitem => legible_iff.mp (hitems item hitem)⟩

theorem legible_object {members : List (String × Json)}
    (hmembers : ∀ member ∈ members, member.2.Legible) : (object members).Legible := by
  rw [legible_iff, forall_parts_object_iff]
  exact ⟨by simp, fun member hmember => legible_iff.mp (hmembers member hmember)⟩

/-! Floats replaced -/

theorem mapFloatsOfMember_eq (f : Float → Float) (member : String × Json) :
    mapFloatsOfMember f member = (member.1, member.2.mapFloats f) := by
  obtain ⟨key, value⟩ := member
  rw [mapFloatsOfMember]

mutual

theorem mapFloats_id (value : Json) : value.mapFloats id = value := by
  cases value with
  | array items => rw [mapFloats, mapFloatsOfItems_id items]
  | object members => rw [mapFloats, mapFloatsOfMembers_id members]
  | null | bool | integer | float | string => rfl
  termination_by structural value

theorem mapFloatsOfItems_id (items : List Json) : mapFloatsOfItems id items = items := by
  cases items with
  | nil => rfl
  | cons item rest => rw [mapFloatsOfItems, mapFloats_id item, mapFloatsOfItems_id rest]
  termination_by structural items

theorem mapFloatsOfMembers_id (members : List (String × Json)) :
    mapFloatsOfMembers id members = members := by
  cases members with
  | nil => rfl
  | cons member rest =>
      rw [mapFloatsOfMembers, mapFloatsOfMember_id member, mapFloatsOfMembers_id rest]
  termination_by structural members

theorem mapFloatsOfMember_id (member : String × Json) : mapFloatsOfMember id member = member := by
  obtain ⟨key, value⟩ := member
  rw [mapFloatsOfMember, mapFloats_id value]
  termination_by structural member

end

end DocIndex.Json
