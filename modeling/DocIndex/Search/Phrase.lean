import DocIndex.Search.Entry

/-!
Phrases in a field. The terms of a phrase keep the distances that they have in the phrase; with some
slop a term may be off by as many positions, all terms together. To compare positions, those of each
term are shifted so that terms which stand as in the phrase come to the same number.
-/

namespace DocIndex.Phrase

def lastPosition (phrase : List Occurrence) : Nat :=
  (phrase.map (·.position)).foldl max 0

/-- The positions of a term of a phrase, shifted by its distance from `last`. -/
def shifted (entry : Entry) (id : FieldId) (last : Nat) (part : Occurrence) : List Nat :=
  (entry.positions id part.term).map (· + (last - part.position))

/-- The places where all terms stand as in the phrase. -/
def places (entry : Entry) (id : FieldId) (last : Nat) : List Occurrence → List Nat
  | [] => []
  | [part] => shifted entry id last part
  | part :: rest =>
      let others := places entry id last rest
      (shifted entry id last part).filter others.contains

/-- A place up to which a phrase is matched, and the slop used so far. -/
structure Place where
  position : Nat
  used : Nat
deriving Repr, DecidableEq

/-- The distance of two positions. -/
def distance (a b : Nat) : Nat :=
  (a - b) + (b - a)

/-- Drops places that are followed by another one which is not past a position. -/
def closest (position : Nat) (place : Place) : List Place → Place × List Place
  | [] => (place, [])
  | next :: rest =>
      if next.position ≤ position then closest position next rest else (place, next :: rest)

/-- No place is added by looking for a closer one. -/
theorem length_closest (position : Nat) (place : Place) (rest : List Place) :
    (closest position place rest).2.length ≤ rest.length := by
  induction rest generalizing place with
  | nil => simp [closest]
  | cons next rest ih =>
      unfold closest
      split
      · exact Nat.le_succ_of_le (ih next)
      · simp

/-- Joins the places of the terms so far with the positions of the next term. -/
def joinWithin (slop : Nat) : List Place → List Nat → List Place
  | [], _ => []
  | _, [] => []
  | place :: places, position :: positions =>
      if place.used + distance place.position position ≤ slop then
        let best := (closest position place places).1
        ⟨position, best.used + distance best.position position⟩
          :: joinWithin slop (closest position place places).2 positions
      else if place.position < position then joinWithin slop places (position :: positions)
      else joinWithin slop (place :: places) positions
termination_by places positions => places.length + positions.length
decreasing_by
  · have := length_closest position place places
    simp only [List.length_cons]
    omega
  all_goals simp only [List.length_cons]; omega

/-- The places where the terms stand as in the phrase up to some slop. -/
def placesWithin (slop : Nat) (entry : Entry) (id : FieldId) (phrase : List Occurrence) :
    List Place :=
  let last := lastPosition phrase
  match phrase with
  | [] => []
  | first :: rest =>
      rest.foldl (fun places part => joinWithin slop places (shifted entry id last part))
        ((shifted entry id last first).map (⟨·, 0⟩))

def count (slop : Nat) (entry : Entry) (id : FieldId) (phrase : List Occurrence) : Nat :=
  match slop with
  | 0 => (places entry id (lastPosition phrase) phrase).length
  | slop => (placesWithin slop entry id phrase).length

/-- Tells whether a phrase occurs in a field with a term of some beginning after it. -/
def leadsTo (entry : Entry) (id : FieldId) (phrase : List Occurrence) (start : String)
    (position : Nat) : Bool :=
  let last := max position (lastPosition phrase)
  let found := places entry id last phrase
  (entry.occurrences id).any fun next =>
    match next.term with
    | .text s =>
        start.toList.isPrefixOf s.toList && found.contains (next.position + (last - position))
    | _ => false

end DocIndex.Phrase
