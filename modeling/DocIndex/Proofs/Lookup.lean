/-!
Looking up keys in lists of pairs from which entries were taken away by their keys, or in which
values were exchanged.
-/

namespace DocIndex

variable {α β : Type} [BEq α] [LawfulBEq α]

theorem lookup_filter_key (holds : α → Bool) (entries : List (α × β)) (key : α) :
    (entries.filter fun entry => holds entry.1).lookup key =
      if holds key then entries.lookup key else none := by
  induction entries with
  | nil => simp
  | cons entry rest ih =>
      obtain ⟨first, value⟩ := entry
      by_cases hkey : key = first
      · subst hkey
        cases hholds : holds key <;> simp [hholds, ih]
      · have hne : (key == first) = false := beq_eq_false_iff_ne.mpr hkey
        cases hholds : holds first <;> simp [List.lookup_cons, hholds, hne, ih]

theorem lookup_filter_ne [DecidableEq α] (entries : List (α × β)) (key other : α) :
    (entries.filter fun entry => entry.1 ≠ key).lookup other =
      if other = key then none else entries.lookup other := by
  rw [lookup_filter_key (fun first => decide (first ≠ key))]
  by_cases hother : other = key <;> simp [hother]

/-- Among different keys every entry is found under its key. -/
theorem lookup_eq_some_iff_mem {entries : List (α × β)} (hnodup : (entries.map (·.1)).Nodup)
    {key : α} {value : β} : entries.lookup key = some value ↔ (key, value) ∈ entries := by
  induction entries with
  | nil => simp
  | cons entry rest ih =>
      obtain ⟨first, old⟩ := entry
      rw [List.map_cons, List.nodup_cons] at hnodup
      rw [List.lookup_cons, List.mem_cons, Prod.mk.injEq]
      by_cases hkey : key = first
      · subst hkey
        have hrest : (key, value) ∉ rest := fun hmem =>
          hnodup.1 (List.mem_map.mpr ⟨_, hmem, rfl⟩)
        simp [hrest, eq_comm]
      · rw [beq_eq_false_iff_ne.mpr hkey]
        simp [hkey, ih hnodup.2]

/-- Exchanging the value of a key changes what is found under that key only. -/
theorem lookup_map_replace [DecidableEq α] (entries : List (α × β)) (key : α) (value : β)
    (other : α) :
    (entries.map fun entry => if entry.1 = key then (key, value) else entry).lookup other =
      if other = key then (entries.lookup key).map fun _ => value else entries.lookup other := by
  induction entries with
  | nil => simp
  | cons entry rest ih =>
      obtain ⟨first, old⟩ := entry
      rw [List.map_cons]
      by_cases hfirst : first = key
      · subst hfirst
        rw [if_pos rfl, List.lookup_cons, List.lookup_cons_self, List.lookup_cons, ih]
        by_cases hother : other = first
        · simp [hother]
        · rw [beq_eq_false_iff_ne.mpr hother, if_neg hother, if_neg hother]
      · rw [if_neg hfirst, List.lookup_cons, List.lookup_cons, List.lookup_cons, ih,
          beq_eq_false_iff_ne.mpr (Ne.symm hfirst)]
        by_cases hother : other = key
        · rw [if_pos hother, if_pos hother, hother, beq_eq_false_iff_ne.mpr (Ne.symm hfirst)]
        · rw [if_neg hother, if_neg hother]

end DocIndex
