import DocIndex.Proofs.Json.Floats
import DocIndex.Proofs.Json.Members
import DocIndex.Proofs.Json.Proper
import DocIndex.Proofs.Json.Reading

/-!
Values that a reader gives, read once more. Their floats are finite, so each is written as a number
that is read as a float, if not as the same one; all else comes back as it was.
-/

namespace DocIndex.Json

/-! A float -/

/-- The sign of a float is read before its digits. -/
theorem readsAs_of_spellsFloat {x y : Float} (hx : x.isFinite = true)
    (htext : SpellsFloat (decide (signWeight ≤ x.toBits.toNat))
      ((Decimal.shortest x).render floatLayout) y) : ReadsAs x y := by
  intro c tail fuel depth htail hrest
  rw [floatText_of_isFinite hx] at hrest
  split at hrest
  · rename_i hsign
    rw [decide_eq_false (Nat.not_le.mpr hsign)] at htext
    have hnumber := htext htail hrest
    obtain ⟨ch, more, hcons, hdigit⟩ := startsDigit_render floatLayout (Decimal.shortest x)
    rw [hcons, List.cons_append] at hrest
    rwa [readValue_of_isDigit hdigit hrest]
  · rename_i hsign
    rw [decide_eq_true (Nat.not_lt.mp hsign)] at htext
    rw [List.cons_append] at hrest
    simp only [readValue, hrest]
    exact htext htail (Cursor.rest_next_of_cons hrest)

/-- Every finite float is read as some float. -/
theorem exists_readsAs {x : Float} (hx : x.isFinite = true) : ∃ y, ReadsAs x y := by
  obtain ⟨y, hy⟩ := isFloatText_shortest (decide (signWeight ≤ x.toBits.toNat)) hx
  exact ⟨y, readsAs_of_spellsFloat hx hy⟩

/-- The float that a reader makes of the text of a float. -/
def reread (x : Float) : Float :=
  match read (float x).compact with
  | .ok (.float y) => y
  | _ => x

theorem ReadsAs.reread_eq {x y : Float} (hy : ReadsAs x y) : reread x = y := by
  have hreads : (float x).ReadsUpTo fun _ => y := by
    refine ⟨fun z hz => ?_, fun n hn => ?_⟩
    · obtain rfl : z = x := by simpa [Json.floats, parts] using hz
      exact hy
    · simp [parts] at hn
  have hread : read (float x).compact = .ok (.float y) :=
    read_of_written Spacing.isBlank_none hreads (Nat.zero_le _)
  rw [reread, hread]

theorem readsAs_reread {x : Float} (hx : x.isFinite = true) : ReadsAs x (reread x) := by
  obtain ⟨y, hy⟩ := exists_readsAs hx
  rwa [hy.reread_eq]

/-! Floats replaced -/

theorem mapFloatsOfMembers_eq_map (f : Float → Float) (members : List (String × Json)) :
    mapFloatsOfMembers f members =
      members.map fun member => (member.1, member.2.mapFloats f) := by
  induction members with
  | nil => rfl
  | cons member rest ih => rw [mapFloatsOfMembers, ih, List.map_cons, mapFloatsOfMember_eq]

theorem lookup_mapFloatsOfMembers (f : Float → Float) (key : String)
    (members : List (String × Json)) :
    lookup key (mapFloatsOfMembers f members) = (lookup key members).map (mapFloats f) := by
  induction members with
  | nil => rfl
  | cons member rest ih =>
      obtain ⟨k, v⟩ := member
      rw [mapFloatsOfMembers, mapFloatsOfMember, lookup, lookup, ih]
      split <;> rfl

mutual

/-- Floats may be replaced before or after members are sorted. -/
theorem canonical_mapFloats (f : Float → Float) (value : Json) :
    (value.mapFloats f).canonical = value.canonical.mapFloats f := by
  cases value with
  | array items =>
      rw [mapFloats, canonical, canonical, mapFloats, canonicalItems_mapFloats f items]
  | object members =>
      rw [mapFloats, canonical, canonical, mapFloats, canonicalMembers_mapFloats f members,
        mapFloatsOfMembers_eq_map, mapFloatsOfMembers_eq_map, sortMembers_map]
  | null | bool | integer | float | string => rfl
  termination_by structural value

theorem canonicalItems_mapFloats (f : Float → Float) (items : List Json) :
    canonicalItems (mapFloatsOfItems f items) = mapFloatsOfItems f (canonicalItems items) := by
  cases items with
  | nil => rfl
  | cons item rest =>
      rw [mapFloatsOfItems, canonicalItems, canonicalItems, mapFloatsOfItems,
        canonical_mapFloats f item, canonicalItems_mapFloats f rest]
  termination_by structural items

theorem canonicalMembers_mapFloats (f : Float → Float) (members : List (String × Json)) :
    canonicalMembers (mapFloatsOfMembers f members) =
      mapFloatsOfMembers f (canonicalMembers members) := by
  cases members with
  | nil => rfl
  | cons member rest =>
      rw [mapFloatsOfMembers, canonicalMembers, canonicalMembers, mapFloatsOfMembers,
        canonicalMember_mapFloats f member, canonicalMembers_mapFloats f rest]
  termination_by structural members

theorem canonicalMember_mapFloats (f : Float → Float) (member : String × Json) :
    canonicalMember (mapFloatsOfMember f member) =
      mapFloatsOfMember f (canonicalMember member) := by
  obtain ⟨key, value⟩ := member
  rw [mapFloatsOfMember, canonicalMember, canonicalMember, mapFloatsOfMember,
    canonical_mapFloats f value]
  termination_by structural member

end

/-! A value -/

theorem Proper.isFinite {value : Json} (hvalue : value.Proper) {x : Float}
    (hx : x ∈ value.floats) : x.isFinite = true := by
  obtain ⟨part, hpart, hfloat⟩ := List.mem_filterMap.mp hx
  have hreadable := hvalue part hpart
  cases part with
  | float y => exact Option.some.inj hfloat ▸ hreadable
  | null | bool | integer | string | array | object => contradiction

/-- A value that a reader gives is read again from its text, up to its floats. -/
theorem read_compact_of_proper {value : Json} (hvalue : value.Proper)
    (hnesting : value.nesting ≤ maxDepth) : read value.compact = .ok (value.mapFloats reread) := by
  have hreads : value.ReadsUpTo reread :=
    ⟨fun x hx => readsAs_reread (hvalue.isFinite hx), fun n hn => hvalue (.integer n) hn⟩
  exact read_of_written Spacing.isBlank_none hreads hnesting

theorem parse_compact_of_proper {value : Json} (hvalue : value.Proper)
    (hnesting : value.nesting ≤ maxDepth) :
    parse value.compact = .ok (value.canonical.mapFloats reread) := by
  rw [parse, read_compact_of_proper hvalue hnesting, ← canonical_mapFloats]
  rfl

end DocIndex.Json
