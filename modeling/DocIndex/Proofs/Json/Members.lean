import DocIndex.Json.Value

/-!
Members in ascending order of their keys. Such a list says no more than what its lookups find, so
two of them with the same lookups are equal; sorting makes one with the lookups of the list read
from its end, where the last of equal keys comes first.
-/

namespace DocIndex.Json

variable {key : String} {value : Json} {members others : List (String × Json)}

/-- The keys ascend, so none is repeated. -/
def Ascending (members : List (String × Json)) : Prop :=
  members.Pairwise fun a b => a.1 < b.1

/-! Lookups -/

theorem lookup_append (key : String) (before after : List (String × Json)) :
    lookup key (before ++ after) = (lookup key before).or (lookup key after) := by
  induction before with
  | nil => rfl
  | cons member rest ih =>
      obtain ⟨k, v⟩ := member
      rw [List.cons_append, lookup, lookup]
      split
      · rfl
      · exact ih

theorem mem_of_lookup (hfound : lookup key members = some value) : (key, value) ∈ members := by
  induction members with
  | nil => cases hfound
  | cons member rest ih =>
      obtain ⟨k, v⟩ := member
      rw [lookup] at hfound
      split at hfound
      · rename_i hkey
        subst hkey
        obtain rfl := Option.some.inj hfound
        exact List.mem_cons_self
      · exact List.mem_cons_of_mem _ (ih hfound)

theorem lookup_eq_none (hnot : ∀ member ∈ members, member.1 ≠ key) : lookup key members = none := by
  cases hfound : lookup key members with
  | none => rfl
  | some value => exact absurd rfl (hnot _ (mem_of_lookup hfound))

theorem lookup_filter (holds : String → Bool) (key : String) (members : List (String × Json)) :
    lookup key (members.filter fun member => holds member.1) =
      if holds key then lookup key members else none := by
  induction members with
  | nil => simp [lookup]
  | cons member rest ih =>
      obtain ⟨k, v⟩ := member
      by_cases hkey : k = key
      · subst hkey
        by_cases hholds : holds k
        · simp [hholds, lookup]
        · simp [hholds, ih]
      · by_cases hholds : holds k
        · simp [hholds, lookup, hkey, ih]
        · simp [hholds, lookup, hkey, ih]

/-- A lookup finds the first member with the key. -/
theorem lookup_eq_some_iff : lookup key members = some value ↔
    ∃ before after, members = before ++ (key, value) :: after ∧
      ∀ member ∈ before, member.1 ≠ key := by
  constructor
  · intro hfound
    induction members with
    | nil => cases hfound
    | cons member rest ih =>
        obtain ⟨k, v⟩ := member
        rw [lookup] at hfound
        split at hfound
        · rename_i hkey
          subst hkey
          obtain rfl := Option.some.inj hfound
          exact ⟨[], rest, rfl, fun member hmem => nomatch hmem⟩
        · rename_i hkey
          obtain ⟨before, after, rfl, hbefore⟩ := ih hfound
          exact ⟨(k, v) :: before, after, rfl, List.forall_mem_cons.mpr ⟨hkey, hbefore⟩⟩
  · rintro ⟨before, after, rfl, hbefore⟩
    rw [lookup_append, lookup_eq_none hbefore, Option.none_or, lookup, if_pos rfl]

/-- If no key is repeated, a lookup finds whatever stands under its key. -/
theorem lookup_eq_some_iff_mem (hnodup : (members.map (·.1)).Nodup) :
    lookup key members = some value ↔ (key, value) ∈ members := by
  refine ⟨mem_of_lookup, fun hmem => ?_⟩
  obtain ⟨before, after, rfl⟩ := List.append_of_mem hmem
  refine lookup_eq_some_iff.mpr ⟨before, after, rfl, fun member hmember heq => ?_⟩
  rw [List.map_append, List.map_cons] at hnodup
  have hapart := (List.nodup_append.mp hnodup).2.2
  exact hapart _ (List.mem_map_of_mem hmember) _ List.mem_cons_self heq

theorem Ascending.nodup_keys (hmembers : Ascending members) : (members.map (·.1)).Nodup := by
  refine List.pairwise_map.mpr (hmembers.imp ?_)
  intro a b hlt heq
  exact String.lt_irrefl _ (heq ▸ hlt)

theorem Ascending.nodup (hmembers : Ascending members) : members.Nodup :=
  List.Pairwise.of_map _ (fun _ _ => mt (congrArg _)) hmembers.nodup_keys

theorem lookup_of_mem (hmembers : Ascending members) (hmem : (key, value) ∈ members) :
    lookup key members = some value :=
  (lookup_eq_some_iff_mem hmembers.nodup_keys).mpr hmem

/-- Of a list in ascending order there is no more to know than what its lookups find. -/
theorem Ascending.ext (hmembers : Ascending members) (hothers : Ascending others)
    (hlookup : ∀ key, lookup key members = lookup key others) : members = others := by
  have hperm : members.Perm others := by
    rw [List.perm_ext_iff_of_nodup hmembers.nodup hothers.nodup]
    rintro ⟨key, value⟩
    constructor
    · intro hmem
      exact mem_of_lookup ((hlookup key).symm.trans (lookup_of_mem hmembers hmem))
    · intro hmem
      exact mem_of_lookup ((hlookup key).trans (lookup_of_mem hothers hmem))
  refine List.Perm.eq_of_pairwise ?_ hmembers hothers hperm
  intro a b _ _ hab hba
  exact absurd (String.lt_trans hab hba) (String.lt_irrefl _)

/-! Canonical members -/

theorem canonicalMembers_eq_map (members : List (String × Json)) :
    canonicalMembers members = members.map fun member => (member.1, member.2.canonical) := by
  induction members with
  | nil => rfl
  | cons member rest ih => rw [canonicalMembers, ih, List.map_cons, canonicalMember]

theorem lookup_canonicalMembers (key : String) (members : List (String × Json)) :
    lookup key (canonicalMembers members) = (lookup key members).map canonical := by
  induction members with
  | nil => rfl
  | cons member rest ih =>
      obtain ⟨k, v⟩ := member
      rw [canonicalMembers, canonicalMember, lookup, lookup, ih]
      split <;> rfl

/-! Sorting -/

theorem lookup_insertMember (key k : String) (v : Json) (members : List (String × Json)) :
    lookup key (insertMember k v members) = if k = key then some v else lookup key members := by
  induction members with
  | nil => rfl
  | cons member rest ih =>
      obtain ⟨other, w⟩ := member
      rw [insertMember]
      by_cases hlt : k < other
      · rw [if_pos hlt, lookup]
      · by_cases heq : k = other
        · subst heq
          rw [if_neg hlt, if_pos rfl, lookup, lookup]
          split <;> rfl
        · rw [if_neg hlt, if_neg heq, lookup, lookup, ih]
          by_cases hkey : other = key
          · subst hkey
            rw [if_pos rfl, if_neg heq, if_pos rfl]
          · rw [if_neg hkey, if_neg hkey]

theorem insertMember_nil (key : String) (value : Json) :
    insertMember key value [] = [(key, value)] := rfl

theorem insertMember_of_lt {k : String} (hlt : key < k) (value w : Json)
    (rest : List (String × Json)) :
    insertMember key value ((k, w) :: rest) = (key, value) :: (k, w) :: rest := by
  rw [insertMember, if_pos hlt]

theorem insertMember_of_gt {k : String} (hgt : k < key) (value w : Json)
    (rest : List (String × Json)) :
    insertMember key value ((k, w) :: rest) = (k, w) :: insertMember key value rest := by
  have hne : key ≠ k := by
    rintro rfl
    exact String.lt_irrefl _ hgt
  have hnot : ¬ key < k := fun hlt => String.lt_irrefl _ (String.lt_trans hlt hgt)
  rw [insertMember, if_neg hnot, if_neg hne]

theorem mem_insertMember {member : String × Json} {k : String} {v : Json}
    (hmem : member ∈ insertMember k v members) : member = (k, v) ∨ member ∈ members := by
  induction members with
  | nil => exact .inl (List.mem_singleton.mp hmem)
  | cons head rest ih =>
      obtain ⟨other, w⟩ := head
      rw [insertMember] at hmem
      split at hmem
      · exact List.mem_cons.mp hmem
      · split at hmem
        · rcases List.mem_cons.mp hmem with rfl | hmem
          · exact .inl rfl
          · exact .inr (List.mem_cons_of_mem _ hmem)
        · rcases List.mem_cons.mp hmem with rfl | hmem
          · exact .inr List.mem_cons_self
          · exact (ih hmem).imp id (List.mem_cons_of_mem _)

theorem ascending_insertMember (hmembers : Ascending members) (k : String) (v : Json) :
    Ascending (insertMember k v members) := by
  induction members with
  | nil => exact List.pairwise_singleton _ _
  | cons head rest ih =>
      obtain ⟨other, w⟩ := head
      obtain ⟨hfirst, hrest⟩ := List.pairwise_cons.mp hmembers
      rw [insertMember]
      by_cases hlt : k < other
      · rw [if_pos hlt]
        refine List.pairwise_cons.mpr ⟨?_, hmembers⟩
        intro member hmem
        rcases List.mem_cons.mp hmem with rfl | hmem
        · exact hlt
        · exact String.lt_trans hlt (hfirst member hmem)
      · by_cases heq : k = other
        · subst heq
          rw [if_neg hlt, if_pos rfl]
          exact List.pairwise_cons.mpr ⟨hfirst, hrest⟩
        · rw [if_neg hlt, if_neg heq]
          refine List.pairwise_cons.mpr ⟨?_, ih hrest⟩
          intro member hmem
          rcases mem_insertMember hmem with rfl | hmem
          · have hle : other ≤ k := String.not_lt.mp hlt
            exact String.not_le.mp fun hge => heq (String.le_antisymm hge hle)
          · exact hfirst member hmem

theorem ascending_sortMembers (members : List (String × Json)) :
    Ascending (sortMembers members) := by
  have hfold : ∀ sorted, Ascending sorted →
      Ascending (members.foldl (fun sorted m => insertMember m.1 m.2 sorted) sorted) := by
    induction members with
    | nil => exact fun sorted hsorted => hsorted
    | cons member rest ih =>
        intro sorted hsorted
        exact ih _ (ascending_insertMember hsorted member.1 member.2)
  exact hfold [] List.Pairwise.nil

/-- Of members with one key the last counts. -/
theorem lookup_sortMembers (key : String) (members : List (String × Json)) :
    lookup key (sortMembers members) = lookup key members.reverse := by
  have hfold : ∀ sorted,
      lookup key (members.foldl (fun sorted m => insertMember m.1 m.2 sorted) sorted) =
        (lookup key members.reverse).or (lookup key sorted) := by
    induction members with
    | nil => exact fun sorted => rfl
    | cons member rest ih =>
        intro sorted
        obtain ⟨k, v⟩ := member
        rw [List.foldl_cons, ih, List.reverse_cons, lookup_append, lookup_insertMember,
          Option.or_assoc, lookup]
        split <;> rfl
  rw [sortMembers, hfold, lookup, Option.or_none]

/-- If no key is repeated, members are found from either end. -/
theorem lookup_reverse (hnodup : (members.map (·.1)).Nodup) (key : String) :
    lookup key members.reverse = lookup key members := by
  have hreverse : (members.reverse.map (·.1)).Nodup := by
    rw [List.map_reverse]
    exact List.pairwise_reverse.mpr (hnodup.imp Ne.symm)
  ext value
  rw [lookup_eq_some_iff_mem hreverse, lookup_eq_some_iff_mem hnodup, List.mem_reverse]

theorem lookup_sortMembers_eq_some_iff (hnodup : (members.map (·.1)).Nodup) :
    lookup key (sortMembers members) = some value ↔ (key, value) ∈ members := by
  rw [lookup_sortMembers, lookup_reverse hnodup, lookup_eq_some_iff_mem hnodup]

theorem lookup_sortMembers_canonicalMembers (key : String) (members : List (String × Json)) :
    lookup key (sortMembers (canonicalMembers members)) =
      (lookup key members.reverse).map canonical := by
  rw [lookup_sortMembers, canonicalMembers_eq_map, ← List.map_reverse, ← canonicalMembers_eq_map,
    lookup_canonicalMembers]

/-- Sorting finds the one list in ascending order that has the same lookups. -/
theorem sortMembers_eq (hothers : Ascending others)
    (hlookup : ∀ key, lookup key others = lookup key members.reverse) :
    sortMembers members = others := by
  apply (ascending_sortMembers members).ext hothers
  intro key
  rw [lookup_sortMembers, hlookup]

/-- Members of which no key is repeated are only put into another order. -/
theorem sortMembers_perm (hnodup : (members.map (·.1)).Nodup) :
    (sortMembers members).Perm members := by
  have hmembers : members.Nodup := List.Pairwise.of_map _ (fun _ _ => mt (congrArg _)) hnodup
  rw [List.perm_ext_iff_of_nodup (ascending_sortMembers members).nodup hmembers]
  rintro ⟨key, value⟩
  rw [← lookup_sortMembers_eq_some_iff hnodup]
  exact ⟨lookup_of_mem (ascending_sortMembers members), mem_of_lookup⟩

/-- Sorting leaves the keys as they are just when they ascend. -/
theorem keys_sortMembers_eq_iff :
    (sortMembers members).map (·.1) = members.map (·.1) ↔ Ascending members := by
  constructor
  · intro hkeys
    have hsorted := List.pairwise_map.mpr (ascending_sortMembers members)
    rw [hkeys] at hsorted
    exact List.pairwise_map.mp hsorted
  · intro hascending
    rw [sortMembers_eq hascending fun key => (lookup_reverse hascending.nodup_keys key).symm]

theorem insertMember_map (f : Json → Json) (key : String) (value : Json)
    (members : List (String × Json)) :
    insertMember key (f value) (members.map fun member => (member.1, f member.2)) =
      (insertMember key value members).map fun member => (member.1, f member.2) := by
  induction members with
  | nil => rfl
  | cons member rest ih =>
      rw [List.map_cons, insertMember, insertMember, ih]
      split
      · rfl
      · split <;> rfl

/-- Values may be changed before or after sorting. -/
theorem sortMembers_map (f : Json → Json) (members : List (String × Json)) :
    sortMembers (members.map fun member => (member.1, f member.2)) =
      (sortMembers members).map fun member => (member.1, f member.2) := by
  have hfold : ∀ sorted : List (String × Json),
      (members.map fun member => (member.1, f member.2)).foldl
          (fun sorted m => insertMember m.1 m.2 sorted)
          (sorted.map fun member => (member.1, f member.2)) =
        (members.foldl (fun sorted m => insertMember m.1 m.2 sorted) sorted).map
          fun member => (member.1, f member.2) := by
    induction members with
    | nil => exact fun sorted => rfl
    | cons member rest ih =>
        intro sorted
        rw [List.map_cons, List.foldl_cons, insertMember_map, ih, List.foldl_cons]
  exact hfold []

/-- Members may be left out by their keys before or after sorting. -/
theorem filter_sortMembers (holds : String → Bool) (members : List (String × Json)) :
    (sortMembers members).filter (fun member => holds member.1) =
      sortMembers (members.filter fun member => holds member.1) := by
  refine (sortMembers_eq ((ascending_sortMembers members).filter _) ?_).symm
  intro key
  rw [lookup_filter, lookup_sortMembers, ← List.filter_reverse, lookup_filter]

/-! Canonical values -/

theorem ascending_of_canonical (hcanonical : (object members).canonical = object members) :
    Ascending members := by
  have hsorted : sortMembers (canonicalMembers members) = members :=
    Json.object.inj hcanonical
  exact hsorted ▸ ascending_sortMembers _

theorem canonical_of_mem_members (hcanonical : (object members).canonical = object members)
    (hmem : (key, value) ∈ members) : value.canonical = value := by
  have hsorted : sortMembers (canonicalMembers members) = members :=
    Json.object.inj hcanonical
  have hascending := ascending_of_canonical hcanonical
  have hkeys : (canonicalMembers members).map (·.1) = members.map (·.1) := by
    rw [canonicalMembers_eq_map, List.map_map]
    rfl
  have hlookup : lookup key (sortMembers (canonicalMembers members)) = some value.canonical := by
    rw [lookup_sortMembers_eq_some_iff (hkeys ▸ hascending.nodup_keys), canonicalMembers_eq_map]
    exact List.mem_map_of_mem hmem
  rw [hsorted, lookup_of_mem hascending hmem] at hlookup
  exact (Option.some.inj hlookup).symm

theorem canonical_of_mem_items {items : List Json}
    (hcanonical : (array items).canonical = array items) :
    ∀ item ∈ items, item.canonical = item := by
  have hitems : canonicalItems items = items := Json.array.inj hcanonical
  clear hcanonical
  induction items with
  | nil => simp
  | cons item rest ih =>
      obtain ⟨hfirst, hrest⟩ := List.cons.inj hitems
      exact List.forall_mem_cons.mpr ⟨hfirst, ih hrest⟩

end DocIndex.Json
