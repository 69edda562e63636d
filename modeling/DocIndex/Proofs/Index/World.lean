import DocIndex.Proofs.Index.Session

/-!
Any number of handles on one disk. A world keeps all handles that there have been, in the order in
which they were got, and a move is what is done with one of them or to get another one.
-/

namespace DocIndex

open Storage

namespace Index

/-- How an index is got: on a new schema, or as it is on disk. -/
inductive Opening where
  | ofText (text : String)
  | ofDefinition (definition : SchemaDef)
  | existing

def Opening.perform (disk : Disk) (options : IndexOptions) :
    Opening → Disk × Except IndexError Index
  | .ofText text => createFromText disk options text
  | .ofDefinition definition => createFromDefinition disk options definition
  | .existing =>
      match openExisting disk options with
      | .ok (after, index) => (after, .ok index)
      | .error fault => (disk, .error fault)

end Index

/-- The disk, and all handles that there have been; nothing stands for one that was given up. -/
structure World where
  disk : Disk
  handles : List (Option Index)

namespace World

/-- What is done in a world. A handle is named by its position. -/
inductive Move where
  | get (opening : Index.Opening) (options : IndexOptions)
  | call (position : Nat) (call : Call)
  | drop (position : Nat)

/-- What comes of a move. -/
inductive Outcome where
  /-- There is no handle at the position. -/
  | absent
  | failed (fault : IndexError)
  | done (reply : Reply)

def index? (world : World) (position : Nat) : Option Index :=
  (world.handles[position]?).join

def replace (world : World) (disk : Disk) (position : Nat) (handle : Option Index) : World :=
  ⟨disk, world.handles.set position handle⟩

/-- The world after a move, and what comes of the move. -/
def perform [Segmenter] (world : World) : Move → World × Outcome
  | .get opening options =>
      match opening.perform world.disk options with
      | (disk, .ok index) => (⟨disk, world.handles ++ [some index]⟩, .done .done)
      | (disk, .error fault) => (⟨disk, world.handles⟩, .failed fault)
  | .call position call =>
      match world.index? position with
      | none => (world, .absent)
      | some index =>
          match Session.perform ⟨world.disk, index⟩ call with
          | .ok (next, reply) =>
              (world.replace next.disk position (some next.index), .done reply)
          | .error fault => (world, .failed fault)
  | .drop position =>
      match world.index? position with
      | none => (world, .absent)
      | some index => (world.replace (index.drop world.disk) position none, .done .done)

def run [Segmenter] (world : World) (moves : List Move) : World :=
  moves.foldl (fun world move => (world.perform move).1) world

/-- The world before the first handle. -/
def start (files : Files) : World :=
  ⟨⟨files, []⟩, []⟩

section

variable {world : World} {position : Nat} {index : Index}

theorem index?_eq_some_iff :
    world.index? position = some index ↔ world.handles[position]? = some (some index) :=
  Option.join_eq_some_iff

theorem lt_length_of_index? (hindex : world.index? position = some index) :
    position < world.handles.length :=
  (List.getElem?_eq_some_iff.mp (index?_eq_some_iff.mp hindex)).1

theorem index?_append (disk : Disk) (handle : Option Index) (other : Nat) :
    (World.mk disk (world.handles ++ [handle])).index? other =
      if other = world.handles.length then handle else world.index? other := by
  rw [index?, index?]
  rcases Nat.lt_trichotomy other world.handles.length with hlt | rfl | hgt
  · rw [List.getElem?_append_left hlt, if_neg (Nat.ne_of_lt hlt)]
  · rw [List.getElem?_concat_length, if_pos rfl, Option.join_some]
  · rw [if_neg (Nat.ne_of_gt hgt), List.getElem?_eq_none, List.getElem?_eq_none]
    · exact Nat.le_of_lt hgt
    · rw [List.length_append, List.length_singleton]
      exact hgt

theorem index?_replace (hindex : world.index? position = some index) (disk : Disk)
    (handle : Option Index) (other : Nat) :
    (world.replace disk position handle).index? other =
      if other = position then handle else world.index? other := by
  rw [index?, replace, List.getElem?_set, index?]
  by_cases hother : other = position
  · rw [if_pos hother.symm, if_pos hother, if_pos (lt_length_of_index? hindex), Option.join_some]
  · rw [if_neg (Ne.symm hother), if_neg hother]

/-! What a move comes to -/

theorem perform_get_of_ok [Segmenter] {opening : Index.Opening} {options : IndexOptions}
    {disk : Disk} (hget : opening.perform world.disk options = (disk, .ok index)) :
    world.perform (.get opening options) =
      (⟨disk, world.handles ++ [some index]⟩, .done .done) := by
  simp only [perform, hget]

theorem perform_get_of_error [Segmenter] {opening : Index.Opening} {options : IndexOptions}
    {disk : Disk} {fault : IndexError}
    (hget : opening.perform world.disk options = (disk, .error fault)) :
    world.perform (.get opening options) = (⟨disk, world.handles⟩, .failed fault) := by
  simp only [perform, hget]

theorem perform_call_of_absent [Segmenter] (habsent : world.index? position = none) (call : Call) :
    world.perform (.call position call) = (world, .absent) := by
  simp only [perform, habsent]

theorem perform_call_of_ok [Segmenter] (hindex : world.index? position = some index) {call : Call}
    {next : Session} {reply : Reply}
    (hcall : Session.perform ⟨world.disk, index⟩ call = .ok (next, reply)) :
    world.perform (.call position call) =
      (world.replace next.disk position (some next.index), .done reply) := by
  simp only [perform, hindex, hcall]

theorem perform_call_of_error [Segmenter] (hindex : world.index? position = some index)
    {call : Call} {fault : IndexError}
    (hcall : Session.perform ⟨world.disk, index⟩ call = .error fault) :
    world.perform (.call position call) = (world, .failed fault) := by
  simp only [perform, hindex, hcall]

theorem perform_drop_of_absent [Segmenter] (habsent : world.index? position = none) :
    world.perform (.drop position) = (world, .absent) := by
  simp only [perform, habsent]

theorem perform_drop [Segmenter] (hindex : world.index? position = some index) :
    world.perform (.drop position) =
      (world.replace (index.drop world.disk) position none, .done .done) := by
  simp only [perform, hindex]

/-- A move adds a handle at the end, or changes one that there is, or leaves all as they are. -/
theorem perform_cases [Segmenter] (world : World) (move : Move) :
    (world.perform move).1.handles = world.handles ∨
      (∃ disk index, (world.perform move).1 = ⟨disk, world.handles ++ [some index]⟩) ∨
      ∃ position index disk handle, world.index? position = some index ∧
        (world.perform move).1 = world.replace disk position handle := by
  cases move with
  | get opening options =>
      unfold perform
      dsimp only
      split
      · exact .inr (.inl ⟨_, _, rfl⟩)
      · exact .inl rfl
  | call position call =>
      unfold perform
      dsimp only
      split
      · exact .inl rfl
      · rename_i index hindex
        split
        · exact .inr (.inr ⟨_, _, _, _, hindex, rfl⟩)
        · exact .inl rfl
  | drop position =>
      unfold perform
      dsimp only
      split
      · exact .inl rfl
      · rename_i index hindex
        exact .inr (.inr ⟨_, _, _, _, hindex, rfl⟩)

theorem length_le_perform [Segmenter] (world : World) (move : Move) :
    world.handles.length ≤ (world.perform move).1.handles.length := by
  rcases world.perform_cases move with hsame | ⟨disk, index, happend⟩ |
    ⟨position, index, disk, handle, -, hreplace⟩
  · rw [hsame]
  · rw [happend, List.length_append]
    exact Nat.le_add_right _ _
  · rw [hreplace, replace, List.length_set]

/-- A handle that was given up never stands for anything again. -/
theorem index?_perform_of_none [Segmenter] (hnone : world.index? position = none)
    (hlength : position < world.handles.length) (move : Move) :
    (world.perform move).1.index? position = none := by
  rcases world.perform_cases move with hsame | ⟨disk, index, happend⟩ |
    ⟨other, index, disk, handle, hindex, hreplace⟩
  · rw [index?, hsame]
    exact hnone
  · rw [happend, index?_append, if_neg (Nat.ne_of_lt hlength)]
    exact hnone
  · have hother : position ≠ other := by
      rintro rfl
      rw [hnone] at hindex
      contradiction
    rw [hreplace, index?_replace hindex, if_neg hother]
    exact hnone

end

end World

end DocIndex
