import DocIndex.Proofs.Lookup
import DocIndex.Registry
import Mathlib.Data.List.Nodup

/-!
What a registry tells over any sequence of uses. The specification looks at nothing but the history
of uses and outcomes: a handle stands for what was inserted under it until it is removed. That every
insertion gives a new handle rests on the invariant that all handles given out lie above zero and
below the next one, as long as the counter does not run over.
-/

namespace DocIndex.Registry

variable {α : Type}

/-! Operations -/

theorem get?_insert (registry : Registry α) (value : α) (handle : UInt64) :
    (registry.insert value).1.get? handle =
      (registry.get? handle).or (if handle = registry.next then some value else none) := by
  rw [get?, get?, insert, List.lookup_append]
  by_cases hhandle : handle = registry.next
  · rw [if_pos hhandle, hhandle, List.lookup_cons_self]
  · rw [if_neg hhandle, List.lookup_cons, beq_eq_false_iff_ne.mpr hhandle, List.lookup_nil]

theorem get?_remove (registry : Registry α) (handle other : UInt64) :
    (registry.remove handle).1.get? other =
      if other = handle then none else registry.get? other :=
  lookup_filter_ne registry.entries handle other

/-- Removing a handle that stands for nothing changes nothing. -/
theorem remove_eq_self {registry : Registry α} {handle : UInt64}
    (hnone : registry.get? handle = none) : (registry.remove handle).1 = registry := by
  have hothers : registry.entries.filter (fun entry => entry.1 ≠ handle) = registry.entries := by
    rw [List.filter_eq_self]
    intro entry hentry
    have hkey := bne_iff_ne.mp (List.lookup_eq_none_iff.mp hnone entry hentry)
    exact decide_eq_true hkey.symm
  rw [remove, hothers]

theorem get?_replace (registry : Registry α) (handle : UInt64) (value : α) (other : UInt64) :
    (registry.replace handle value).get? other =
      if other = handle then (registry.get? handle).map fun _ => value
      else registry.get? other :=
  lookup_map_replace registry.entries handle value other

/-- The handles that stand for something. -/
def handles (registry : Registry α) : List UInt64 :=
  registry.entries.map (·.1)

theorem contains_iff {registry : Registry α} {handle : UInt64} :
    registry.contains handle = true ↔ handle ∈ registry.handles := by
  rw [contains, get?, List.lookup_isSome_iff, handles, List.mem_map]
  simp only [beq_iff_eq, eq_comm (a := handle)]

theorem handles_insert (registry : Registry α) (value : α) :
    (registry.insert value).1.handles = registry.handles ++ [registry.next] := by
  rw [handles, handles, insert, List.map_append, List.map_singleton]

theorem handles_remove (registry : Registry α) (handle : UInt64) :
    (registry.remove handle).1.handles = registry.handles.filter (· ≠ handle) := by
  rw [handles, handles, remove, List.filter_map]
  rfl

theorem size_eq (registry : Registry α) : registry.size = registry.handles.length := by
  rw [size, handles, List.length_map]

/-- Removing takes away one entry if the handle stands for something, and none otherwise. -/
theorem size_remove {registry : Registry α} (hnodup : registry.handles.Nodup) (handle : UInt64) :
    (registry.remove handle).1.size + (if registry.contains handle then 1 else 0) =
      registry.size := by
  have hcount : registry.handles.count handle = if registry.contains handle then 1 else 0 := by
    simp only [hnodup.count, contains_iff]
  have hothers : (fun key => decide ¬decide (key ≠ handle) = true) = (· == handle) := by
    funext key
    by_cases hkey : key = handle <;> simp [hkey]
  rw [size_eq, size_eq, handles_remove, ← hcount, ← List.countP_eq_length_filter, List.count,
    List.length_eq_countP_add_countP (fun key => decide (key ≠ handle)), hothers]

/-! Histories -/

/-- A use of a registry. -/
inductive Use (α : Type) where
  | insert (value : α)
  | get (handle : UInt64)
  | remove (handle : UInt64)
  | contains (handle : UInt64)
  | size

/-- What a use gives. -/
inductive Outcome (α : Type) where
  | handle (handle : UInt64)
  | value (value : Option α)
  | flag (flag : Bool)
  | count (n : Nat)

/-- A use, and what it gave. -/
abbrev Event (α : Type) := Use α × Outcome α

def Use.isInsert : Use α → Bool
  | .insert _ => true
  | _ => false

def perform (registry : Registry α) : Use α → Registry α × Outcome α
  | .insert value => ((registry.insert value).1, .handle (registry.insert value).2)
  | .get handle => (registry, .value (registry.get? handle))
  | .remove handle => ((registry.remove handle).1, .value (registry.remove handle).2)
  | .contains handle => (registry, .flag (registry.contains handle))
  | .size => (registry, .count registry.size)

def history (registry : Registry α) : List (Use α) → List (Event α)
  | [] => []
  | use :: rest => (use, (registry.perform use).2) :: (registry.perform use).1.history rest

/-- The handles that were given out. -/
def issued (events : List (Event α)) : List UInt64 :=
  events.filterMap fun
    | (.insert _, .handle handle) => some handle
    | _ => none

/-- The handles that were removed while they stood for something. -/
def released (events : List (Event α)) : List UInt64 :=
  events.filterMap fun
    | (.remove handle, .value (some _)) => some handle
    | _ => none

/-- A value was inserted under a handle, which has not been removed since. -/
def Stands (events : List (Event α)) (handle : UInt64) (value : α) : Prop :=
  ∃ before after, events = before ++ (.insert value, .handle handle) :: after ∧
    ∀ event ∈ after, event.1 ≠ .remove handle

/-- A handle was given out, and there was an attempt to remove it later. -/
def Ended (events : List (Event α)) (handle : UInt64) : Prop :=
  ∃ before value middle outcome after,
    events = before ++ (.insert value, .handle handle) :: middle ++
      (.remove handle, outcome) :: after

/-- What a use has to give after some events. -/
def Answers (before : List (Event α)) : Use α → Outcome α → Prop
  | .insert _, .handle handle => handle ≠ 0 ∧ handle ∉ issued before
  | .get handle, .value found => ∀ value, found = some value ↔ Stands before handle value
  | .remove handle, .value found => ∀ value, found = some value ↔ Stands before handle value
  | .contains handle, .flag flag => flag = true ↔ ∃ value, Stands before handle value
  | .size, .count n => n + (released before).length = (issued before).length
  | _, _ => False

theorem stands_concat {events : List (Event α)} {event : Event α} {handle : UInt64} {value : α} :
    Stands (events ++ [event]) handle value ↔
      event = (.insert value, .handle handle) ∨
        Stands events handle value ∧ event.1 ≠ .remove handle := by
  constructor
  · rintro ⟨before, after, hevents, hafter⟩
    rcases List.eq_nil_or_concat after with rfl | ⟨others, last, rfl⟩
    · obtain ⟨-, hevent⟩ := List.append_inj' hevents rfl
      exact .inl (List.cons.inj hevent).1
    · rw [List.concat_eq_append, ← List.cons_append, ← List.append_assoc] at hevents
      obtain ⟨rfl, hevent⟩ := List.append_inj' hevents rfl
      obtain rfl := (List.cons.inj hevent).1
      rw [List.concat_eq_append, List.forall_mem_append] at hafter
      exact .inr ⟨⟨before, others, rfl, hafter.1⟩, hafter.2 event (List.mem_singleton_self event)⟩
  · rintro (rfl | ⟨⟨before, after, rfl, hafter⟩, hevent⟩)
    · exact ⟨events, [], rfl, by simp⟩
    · refine ⟨before, after ++ [event], by simp, ?_⟩
      rw [List.forall_mem_append]
      exact ⟨hafter, by simpa using hevent⟩

theorem mem_issued_iff {events : List (Event α)} {handle : UInt64} :
    handle ∈ issued events ↔ ∃ value, (.insert value, .handle handle) ∈ events := by
  rw [issued, List.mem_filterMap]
  constructor
  · rintro ⟨event, hevent, hhandle⟩
    split at hhandle
    · obtain rfl := Option.some.inj hhandle
      exact ⟨_, hevent⟩
    · contradiction
  · rintro ⟨value, hevent⟩
    exact ⟨_, hevent, rfl⟩

theorem Stands.mem_issued {events : List (Event α)} {handle : UInt64} {value : α}
    (hstands : Stands events handle value) : handle ∈ issued events := by
  obtain ⟨before, after, rfl, -⟩ := hstands
  exact mem_issued_iff.mpr ⟨value, by simp⟩

theorem Ended.mem_issued {events : List (Event α)} {handle : UInt64}
    (hended : Ended events handle) : handle ∈ issued events := by
  obtain ⟨before, value, middle, outcome, after, rfl⟩ := hended
  exact mem_issued_iff.mpr ⟨value, by simp⟩

theorem ended_concat {events : List (Event α)} {event : Event α} {handle : UInt64} :
    Ended (events ++ [event]) handle ↔
      Ended events handle ∨ handle ∈ issued events ∧ event.1 = .remove handle := by
  constructor
  · rintro ⟨before, value, middle, outcome, after, hevents⟩
    rcases List.eq_nil_or_concat after with rfl | ⟨others, last, rfl⟩
    · obtain ⟨rfl, hevent⟩ := List.append_inj' hevents rfl
      obtain rfl := (List.cons.inj hevent).1
      exact .inr ⟨mem_issued_iff.mpr ⟨value, by simp⟩, rfl⟩
    · rw [List.concat_eq_append, ← List.cons_append, ← List.append_assoc] at hevents
      obtain ⟨rfl, -⟩ := List.append_inj' hevents rfl
      exact .inl ⟨before, value, middle, outcome, others, rfl⟩
  · rintro (⟨before, value, middle, outcome, after, rfl⟩ | ⟨hissued, hevent⟩)
    · exact ⟨before, value, middle, outcome, after ++ [event], by simp⟩
    · obtain ⟨value, hmem⟩ := mem_issued_iff.mp hissued
      obtain ⟨before, middle, rfl⟩ := List.append_of_mem hmem
      exact ⟨before, value, middle, event.2, [], by rw [← hevent]⟩

/-- What was given out still stands, unless its end was attempted. -/
theorem stands_or_ended {events : List (Event α)} {handle : UInt64}
    (hissued : handle ∈ issued events) :
    (∃ value, Stands events handle value) ∨ Ended events handle := by
  obtain ⟨value, hmem⟩ := mem_issued_iff.mp hissued
  obtain ⟨before, after, rfl⟩ := List.append_of_mem hmem
  by_cases hremoved : ∃ event ∈ after, event.1 = .remove handle
  · obtain ⟨event, hevent, hremove⟩ := hremoved
    obtain ⟨middle, others, rfl⟩ := List.append_of_mem hevent
    exact .inr ⟨before, value, middle, event.2, others, by simp [← hremove]⟩
  · refine .inl ⟨value, before, after, rfl, ?_⟩
    intro event hevent hremove
    exact hremoved ⟨event, hevent, hremove⟩

/-- What a history says about the registry that it leads to. -/
structure Tracks (events : List (Event α)) (registry : Registry α) : Prop where
  found : ∀ handle value, registry.get? handle = some value ↔ Stands events handle value
  next : registry.next.toNat = (issued events).length + 1
  below : ∀ handle ∈ issued events, handle ≠ 0 ∧ handle.toNat < registry.next.toNat
  nodup : registry.handles.Nodup
  size : registry.size + (released events).length = (issued events).length
  released_nodup : (released events).Nodup
  released_iff : ∀ handle, handle ∈ released events ↔ Ended events handle
  released_gone : ∀ handle ∈ released events, registry.get? handle = none

theorem tracks_empty : Tracks [] ({} : Registry α) where
  found handle value := by simp [get?, Stands]
  next := rfl
  below := by simp [issued]
  nodup := List.nodup_nil
  size := rfl
  released_nodup := List.nodup_nil
  released_iff handle := by simp [released, Ended]
  released_gone := by simp [released]

theorem issued_concat (events : List (Event α)) (event : Event α) :
    issued (events ++ [event]) = issued events ++ issued [event] :=
  List.filterMap_append

theorem released_concat (events : List (Event α)) (event : Event α) :
    released (events ++ [event]) = released events ++ released [event] :=
  List.filterMap_append

section

variable {events : List (Event α)} {registry : Registry α}

theorem Tracks.contains_iff (htracks : Tracks events registry) {handle : UInt64} :
    registry.contains handle = true ↔ ∃ value, Stands events handle value := by
  rw [contains, Option.isSome_iff_exists]
  simp only [htracks.found]

theorem Tracks.get?_next (htracks : Tracks events registry) :
    registry.get? registry.next = none := by
  rw [Option.eq_none_iff_forall_not_mem]
  intro value hvalue
  have hstands := (htracks.found _ _).mp hvalue
  exact absurd (htracks.below _ hstands.mem_issued).2 (Nat.lt_irrefl _)

/-- An insertion gives a new handle while there is room for one more. -/
theorem Tracks.insert (htracks : Tracks events registry) (value : α)
    (hroom : registry.next.toNat + 1 < UInt64.size) :
    Answers events (.insert value) (.handle registry.next) ∧
      Tracks (events ++ [(.insert value, .handle registry.next)]) (registry.insert value).1 := by
  have hfresh : registry.next ∉ issued events := fun hissued =>
    absurd (htracks.below _ hissued).2 (Nat.lt_irrefl _)
  have hpositive : registry.next ≠ 0 := by
    intro hzero
    have hnext := htracks.next
    simp [hzero] at hnext
  have hnext : (registry.insert value).1.next.toNat = registry.next.toNat + 1 := by
    rw [Registry.insert, UInt64.toNat_add]
    exact Nat.mod_eq_of_lt hroom
  have hissued : issued (events ++ [(.insert value, .handle registry.next)]) =
      issued events ++ [registry.next] := issued_concat _ _
  have hreleased : released (events ++ [(.insert value, .handle registry.next)]) =
      released events := by
    rw [released_concat]
    exact List.append_nil _
  refine ⟨⟨hpositive, hfresh⟩, ?_, ?_, ?_, ?_, ?_, ?_, ?_, ?_⟩
  · intro handle other
    rw [get?_insert, stands_concat, ← htracks.found]
    by_cases hhandle : handle = registry.next
    · simp [hhandle, htracks.get?_next]
    · simp [hhandle, Ne.symm hhandle]
  · rw [hnext, htracks.next, hissued, List.length_append, List.length_singleton]
  · intro handle hhandle
    rw [hissued, List.mem_append, List.mem_singleton] at hhandle
    rw [hnext]
    rcases hhandle with hold | rfl
    · exact ⟨(htracks.below handle hold).1, Nat.lt_succ_of_lt (htracks.below handle hold).2⟩
    · exact ⟨hpositive, Nat.lt_succ_self _⟩
  · rw [handles_insert]
    refine List.nodup_append.mpr ⟨htracks.nodup, List.nodup_singleton _, ?_⟩
    rintro handle hhandle other hother rfl
    obtain rfl := List.mem_singleton.mp hother
    obtain ⟨old, hstands⟩ := htracks.contains_iff.mp (Registry.contains_iff.mpr hhandle)
    exact hfresh hstands.mem_issued
  · rw [size_eq, handles_insert, hreleased, hissued, List.length_append, List.length_append,
      ← size_eq, ← htracks.size, List.length_singleton]
    omega
  · rw [hreleased]
    exact htracks.released_nodup
  · intro handle
    rw [hreleased, htracks.released_iff, ended_concat]
    simp
  · intro handle hhandle
    rw [hreleased] at hhandle
    have hold : handle ≠ registry.next := by
      rintro rfl
      exact hfresh ((htracks.released_iff _).mp hhandle).mem_issued
    rw [get?_insert, htracks.released_gone handle hhandle, if_neg hold, Option.none_or]

/-- A removal gives what stood under the handle, and ends it. -/
theorem Tracks.remove (htracks : Tracks events registry) (handle : UInt64) :
    Answers events (.remove handle) (.value (registry.get? handle)) ∧
      Tracks (events ++ [(.remove handle, .value (registry.get? handle))])
        (registry.remove handle).1 := by
  have hissued : issued (events ++ [(.remove handle, .value (registry.get? handle))]) =
      issued events := by
    rw [issued_concat]
    exact List.append_nil _
  have hreleased : released (events ++ [(.remove handle, .value (registry.get? handle))]) =
      released events ++ if registry.contains handle then [handle] else [] := by
    rw [released_concat, contains]
    cases registry.get? handle <;> rfl
  refine ⟨htracks.found handle, ?_, ?_, ?_, ?_, ?_, ?_, ?_, ?_⟩
  · intro other value
    rw [get?_remove, stands_concat, ← htracks.found]
    by_cases hother : other = handle
    · simp [hother]
    · simp [hother, Ne.symm hother]
  · rw [hissued]
    exact htracks.next
  · rw [hissued]
    exact htracks.below
  · rw [handles_remove]
    exact htracks.nodup.filter _
  · rw [hissued, hreleased, ← htracks.size, ← size_remove htracks.nodup handle, List.length_append]
    split
    · rw [List.length_singleton]
      omega
    · rfl
  · rw [hreleased]
    split
    · rename_i hcontains
      refine List.nodup_append.mpr ⟨htracks.released_nodup, List.nodup_singleton _, ?_⟩
      rintro other hother same hsame rfl
      obtain rfl := List.mem_singleton.mp hsame
      simp [contains, htracks.released_gone _ hother] at hcontains
    · rw [List.append_nil]
      exact htracks.released_nodup
  · intro other
    rw [hreleased, ended_concat, List.mem_append, htracks.released_iff]
    constructor
    · rintro (hended | hmem)
      · exact .inl hended
      · split at hmem
        · rename_i hcontains
          obtain rfl := List.mem_singleton.mp hmem
          obtain ⟨value, hstands⟩ := htracks.contains_iff.mp hcontains
          exact .inr ⟨hstands.mem_issued, rfl⟩
        · simp at hmem
    · rintro (hended | ⟨hissued, hremove⟩)
      · exact .inl hended
      · obtain rfl := Use.remove.inj hremove
        rcases stands_or_ended hissued with hstands | hended
        · rw [if_pos (htracks.contains_iff.mpr hstands)]
          exact .inr (List.mem_singleton_self handle)
        · exact .inl hended
  · intro other hother
    rw [get?_remove]
    split
    · rfl
    · rename_i hne
      rw [hreleased, List.mem_append] at hother
      rcases hother with hold | hnew
      · exact htracks.released_gone other hold
      · split at hnew
        · exact absurd (List.mem_singleton.mp hnew) hne
        · simp at hnew

def Use.isLook : Use α → Bool
  | .get _ | .contains _ | .size => true
  | .insert _ | .remove _ => false

/-- What only looks at the registry changes nothing about its history. -/
theorem Tracks.look (htracks : Tracks events registry) {event : Event α}
    (hlook : event.1.isLook = true) : Tracks (events ++ [event]) registry := by
  obtain ⟨use, outcome⟩ := event
  have hissued : issued (events ++ [(use, outcome)]) = issued events := by
    rw [issued_concat]
    cases use with
    | insert | remove => contradiction
    | get | contains | size => exact List.append_nil _
  have hreleased : released (events ++ [(use, outcome)]) = released events := by
    rw [released_concat]
    cases use with
    | insert | remove => contradiction
    | get | contains | size => exact List.append_nil _
  have hstands (handle : UInt64) (value : α) :
      Stands (events ++ [(use, outcome)]) handle value ↔ Stands events handle value := by
    rw [stands_concat]
    cases use with
    | insert | remove => contradiction
    | get | contains | size => simp
  have hended (handle : UInt64) :
      Ended (events ++ [(use, outcome)]) handle ↔ Ended events handle := by
    rw [ended_concat]
    cases use with
    | insert | remove => contradiction
    | get | contains | size => simp
  constructor
  · simpa only [hstands] using htracks.found
  · simpa only [hissued] using htracks.next
  · simpa only [hissued] using htracks.below
  · exact htracks.nodup
  · simpa only [hissued, hreleased] using htracks.size
  · simpa only [hreleased] using htracks.released_nodup
  · simpa only [hreleased, hended] using htracks.released_iff
  · simpa only [hreleased] using htracks.released_gone

/-- One use gives what its history asks for, and goes into the history. -/
theorem Tracks.perform (htracks : Tracks events registry) (use : Use α)
    (hroom : use.isInsert = true → registry.next.toNat + 1 < UInt64.size) :
    Answers events use (registry.perform use).2 ∧
      Tracks (events ++ [(use, (registry.perform use).2)]) (registry.perform use).1 := by
  cases use with
  | insert value => exact htracks.insert value (hroom rfl)
  | get handle => exact ⟨htracks.found handle, htracks.look rfl⟩
  | remove handle => exact htracks.remove handle
  | contains handle => exact ⟨htracks.contains_iff, htracks.look rfl⟩
  | size => exact ⟨htracks.size, htracks.look rfl⟩

theorem length_issued_perform (registry : Registry α) (use : Use α) :
    (issued [(use, (registry.perform use).2)]).length = if use.isInsert then 1 else 0 := by
  cases use <;> rfl

/-- Every use of a run gives what the history so far asks for. -/
theorem Tracks.run (htracks : Tracks events registry) (uses : List (Use α))
    (hroom : registry.next.toNat + uses.countP Use.isInsert < UInt64.size) :
    (∃ last, Tracks (events ++ registry.history uses) last) ∧
      ∀ before use outcome after, registry.history uses = before ++ (use, outcome) :: after →
        Answers (events ++ before) use outcome := by
  induction uses generalizing events registry with
  | nil =>
      rw [history, List.append_nil]
      refine ⟨⟨registry, htracks⟩, ?_⟩
      intro before use outcome after hevents
      simp at hevents
  | cons first rest ih =>
      have hfirst : first.isInsert = true → registry.next.toNat + 1 < UInt64.size := by
        intro hinsert
        rw [List.countP_cons_of_pos hinsert] at hroom
        omega
      obtain ⟨hanswers, hnext⟩ := htracks.perform first hfirst
      -- An insertion takes one of the places left, so that the others are left for the rest.
      have hrest : (registry.perform first).1.next.toNat + rest.countP Use.isInsert <
          UInt64.size := by
        rw [List.countP_cons, htracks.next] at hroom
        rw [hnext.next, issued_concat, List.length_append, length_issued_perform]
        omega
      obtain ⟨⟨last, hlast⟩, hothers⟩ := ih hnext hrest
      rw [List.append_assoc, List.singleton_append] at hlast
      refine ⟨⟨last, hlast⟩, ?_⟩
      intro before use outcome after hevents
      cases before with
      | nil =>
          obtain ⟨hevent, -⟩ := List.cons.inj hevents
          obtain ⟨rfl, rfl⟩ := Prod.mk.inj hevent
          rw [List.append_nil]
          exact hanswers
      | cons event before =>
          obtain ⟨rfl, hrestEvents⟩ := List.cons.inj hevents
          have hlater := hothers before use outcome after hrestEvents
          rwa [List.append_assoc, List.singleton_append] at hlater

end

theorem map_fst_history (registry : Registry α) (uses : List (Use α)) :
    (registry.history uses).map (·.1) = uses := by
  induction uses generalizing registry with
  | nil => rfl
  | cons use rest ih => rw [history, List.map_cons, ih]

/--
Every use of a new registry gives what the history before it asks for, as long as fewer things are
inserted than there are handles: a handle that was given out never comes again, and stands for what
was inserted under it until it is removed. Removing succeeds once for each handle.
-/
theorem history_answers (uses : List (Use α))
    (hroom : uses.countP Use.isInsert < UInt64.size - 1) :
    let events := ({} : Registry α).history uses
    events.map (·.1) = uses ∧
    (∀ before use outcome after, events = before ++ (use, outcome) :: after →
      Answers before use outcome) ∧
    (released events).Nodup ∧ ∀ handle, handle ∈ released events ↔ Ended events handle := by
  intro events
  have hfirst : ({} : Registry α).next.toNat + uses.countP Use.isInsert < UInt64.size := by
    rw [tracks_empty.next]
    simp only [issued, List.filterMap_nil, List.length_nil]
    omega
  obtain ⟨⟨last, hlast⟩, hanswers⟩ := tracks_empty.run uses hfirst
  exact ⟨map_fst_history _ uses, hanswers, hlast.released_nodup, hlast.released_iff⟩

/-- Three novels come and one of them goes; it is asked for again, and so is one that never was. -/
def novelUses : List (Use String) :=
  [.insert "emma", .insert "dracula", .remove 1, .remove 1, .insert "dune", .get 1, .get 77,
    .get 3, .contains 2, .size]

theorem novels_answered :
    novelUses.countP Use.isInsert < UInt64.size - 1 ∧
      ∃ before : List (Event String),
        ({} : Registry String).history novelUses =
          before ++ [(.insert "dune", .handle 3), (.get 1, .value none), (.get 77, .value none),
            (.get 3, .value (some "dune")), (.contains 2, .flag true), (.size, .count 2)] ∧
        3 ∉ issued before ∧ released before = [1] := by
  have hroom : novelUses.countP Use.isInsert < UInt64.size - 1 := by decide
  obtain ⟨-, hanswers, -⟩ := history_answers novelUses hroom
  refine ⟨hroom, ({} : Registry String).history (novelUses.take 4), rfl, ?_, rfl⟩
  exact (hanswers _ (.insert "dune") (.handle 3) _ rfl).2

end DocIndex.Registry
