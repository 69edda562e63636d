import DocIndex.Json.Mismatch
import DocIndex.Json.Reader

/-!
Decoding while reading. A text is decoded from left to right without building its value first, so of
two faults the one that stands earlier in the text is reported, whether it is a fault of the text or
of its shape. Values that nobody asks for are passed over without being checked in full.
-/

namespace DocIndex.Json.Stream

open Json

/-- A step of decoding: the decoded part and the place after it. -/
abbrev Step (α : Type) := Cursor → Except DecodeFault (α × Cursor)

/-- A fault of the text. -/
def unreadable {α : Type} (fault : Fault) : Except DecodeFault α :=
  .error (.unreadable fault)

/-- A fault of shape. -/
def misshapen {α : Type} (mismatch : Mismatch) : Except DecodeFault α :=
  .error (.misshapen mismatch)

/-- The containers around a place that is passed over: for each, whether it is a list. -/
abbrev Frames := List Bool

/-- Passes over a scalar, or opens a container and gives whether it is a list. -/
def skipScalar (c : Cursor) : Except Fault (Option Bool × Cursor) :=
  match c.rest with
  | [] => .error (c.faultHere .endInValue)
  | 'n' :: _ => (c.next.expectWord ['u', 'l', 'l']).map (none, ·)
  | 't' :: _ => (c.next.expectWord ['r', 'u', 'e']).map (none, ·)
  | 'f' :: _ => (c.next.expectWord ['a', 'l', 's', 'e']).map (none, ·)
  | '-' :: _ => (skipNumber c.next).map (none, ·)
  | '"' :: _ => (skipString c.next).map (none, ·)
  | '[' :: _ => .ok (some true, c.next)
  | '{' :: _ => .ok (some false, c.next)
  | ch :: _ =>
      if ch.isDigit then (skipNumber c).map (none, ·) else .error (c.faultAtNext .expectedValue)

/-- Passes over a key and its colon. -/
def skipKey (c : Cursor) : Except Fault Cursor :=
  match c.rest with
  | [] => .error (c.faultHere .endInObject)
  | '"' :: _ =>
      match skipString c.next with
      | .ok c => c.expectColon
      | .error fault => .error fault
  | _ :: _ => .error (c.faultAtNext .keyMustBeString)

/--
Closes containers as long as closing brackets follow, up to the place of the next item or key.
`first` tells that the innermost container is still empty. The result has no frame left when the
outermost container was closed.
-/
def closeFrames : Bool → Frames → Cursor → Except Fault (Frames × Cursor)
  | _, [], c => .ok ([], c)
  | first, isList :: outer, c =>
      let c := c.skipBlanks
      match c.rest with
      | [] => .error (c.faultHere (if isList then .endInList else .endInObject))
      | ch :: _ =>
          if ch = ',' ∧ !first then .ok (isList :: outer, c.next)
          else if (ch = ']' ∧ isList) ∨ (ch = '}' ∧ !isList) then closeFrames false outer c.next
          else if first then .ok (isList :: outer, c)
          else
            .error (c.faultAtNext
              (if isList then .expectedListCommaOrEnd else .expectedObjectCommaOrEnd))

/-- Passes over a value within the given containers, and over the rest of these. -/
def skipWithin : Nat → Frames → Cursor → Except Fault Cursor
  | 0, _, c => .error (c.faultHere .endInValue)
  | fuel + 1, frames, c =>
      match skipScalar c.skipBlanks with
      | .error fault => .error fault
      | .ok (opened, c) =>
          let closed :=
            match opened with
            | some isList => closeFrames true (isList :: frames) c
            | none => closeFrames false frames c
          match closed with
          | .error fault => .error fault
          | .ok ([], c) => .ok c
          | .ok (true :: outer, c) => skipWithin fuel (true :: outer) c
          | .ok (false :: outer, c) =>
              match skipKey c.skipBlanks with
              | .error fault => .error fault
              | .ok c => skipWithin fuel (false :: outer) c

/-- Passes over one value. -/
def skipValue : Step Unit := fun c =>
  match skipWithin c.fuel [] c with
  | .ok c => .ok ((), c)
  | .error fault => unreadable fault

/-- Refuses the value that stands here; a scalar is read to its end before it is refused. -/
def refuse {α : Type} (expected : String) (c : Cursor) : Except DecodeFault α :=
  match c.rest with
  | '[' :: _ => misshapen (.wrongType (.array []) expected)
  | '{' :: _ => misshapen (.wrongType (.object []) expected)
  | _ =>
      match readFrom c with
      | .ok (value, _) => misshapen (.wrongType value expected)
      | .error fault => unreadable fault

/-- The place of the next value, which must exist. -/
def valueStart (c : Cursor) : Except DecodeFault Cursor :=
  let c := c.skipBlanks
  match c.rest with
  | [] => unreadable (c.faultHere .endInValue)
  | _ :: _ => .ok c

def string (expected : String) : Step String := fun c => do
  let c ← valueStart c
  match c.rest with
  | '"' :: _ => orUnreadable (readString c.next)
  | _ => refuse expected c

def boolean : Step Bool := fun c => do
  let c ← valueStart c
  match c.rest with
  | 't' :: _ => return (true, ← orUnreadable (c.next.expectWord ['r', 'u', 'e']))
  | 'f' :: _ => return (false, ← orUnreadable (c.next.expectWord ['a', 'l', 's', 'e']))
  | _ => refuse "a boolean" c

/-- Decodes `null`. -/
def unit : Step Unit := fun c => do
  let c ← valueStart c
  match c.rest with
  | 'n' :: _ => return ((), ← orUnreadable (c.next.expectWord ['u', 'l', 'l']))
  | _ => refuse "unit" c

/-- Decodes a count of 64 bits. -/
def count : Step Nat := fun c => do
  let c ← valueStart c
  match c.rest with
  | ch :: _ =>
      if ch = '-' ∨ ch.isDigit then
        let (value, c) ← orUnreadable (readFrom c)
        match value with
        | .integer (.ofNat n) => return (n, c)
        | .integer n => misshapen (.wrongValue (.integer n) "usize")
        | value => misshapen (.wrongType value "usize")
      else refuse "usize" c
  | [] => refuse "usize" c

/-- Decodes a value as it is; `outer` is the number of containers around it. -/
def value (outer : Nat) : Step Json := fun c => do
  let (json, c) ← orUnreadable (readValue c.fuel (maxDepth - outer) c)
  return (json.canonical, c)

/-- Decodes a value or `null`. -/
def optional {α : Type} (step : Step α) : Step (Option α) := fun c => do
  let blankless := c.skipBlanks
  match blankless.rest with
  | 'n' :: _ => return (none, ← orUnreadable (blankless.next.expectWord ['u', 'l', 'l']))
  | _ =>
      let (a, c) ← step c
      return (some a, c)

/-- Decodes the items of a list whose bracket has been read. -/
def itemsFrom {α : Type} (step : Step α) : Nat → List α → Step (List α)
  | 0, _, c => unreadable (c.faultHere .endInList)
  | fuel + 1, read, c =>
      match c.nextItem read.isEmpty with
      | .error fault => unreadable fault
      | .ok none => .ok (read.reverse, c.skipBlanks.next)
      | .ok (some c) =>
          match step c with
          | .error fault => .error fault
          | .ok (a, c) => itemsFrom step fuel (a :: read) c

def sequence {α : Type} (step : Step α) : Step (List α) := fun c => do
  let c ← valueStart c
  match c.rest with
  | '[' :: _ => itemsFrom step c.fuel [] c.next
  | _ => refuse "a sequence" c

/-- The word of a list of words, with what it stands for. -/
def variantOf {α : Type} (words : List (String × α)) (word : String) : Except Mismatch α :=
  match words.find? (·.1 == word) with
  | some (_, a) => .ok a
  | none => .error (.unknownVariant word (words.map (·.1)))

/--
Decodes one of a list of words, given as a string or as the only key of an object under `null`.
-/
def variant {α : Type} (words : List (String × α)) : Step α := fun c => do
  let c ← valueStart c
  match c.rest with
  | '"' :: _ =>
      let (word, c) ← orUnreadable (readString c.next)
      return (← orMisshapen (variantOf words word), c)
  | '{' :: _ =>
      let (word, c) ← string "variant identifier" c.next
      let a ← orMisshapen (variantOf words word)
      let c ← orUnreadable c.expectColon
      let (_, c) ← unit c
      let c := c.skipBlanks
      match c.rest with
      | [] => unreadable (c.faultHere .endInObject)
      | '}' :: _ => return (a, c.next)
      | _ :: _ => unreadable (c.faultAtNext .expectedValue)
  | _ => unreadable (c.faultAtNext .expectedValue)

/--
Decodes the members of an object whose brace has been read. `member` takes each key with what was
decoded before and the place of its value.
-/
def membersFrom {α : Type} (member : String → α → Step α) : Nat → Bool → α → Step α
  | 0, _, _, c => unreadable (c.faultHere .endInObject)
  | fuel + 1, first, a, c =>
      match c.nextKey first with
      | .error fault => unreadable fault
      | .ok none => .ok (a, c)
      | .ok (some c) => do
          let (key, c) ← orUnreadable (readString c)
          let c ← orUnreadable c.expectColon
          let (a, c) ← member key a c
          membersFrom member fuel false a c

/-- Decodes the next item of a list that gives a record by position, if the list has one more. -/
def positionalItem {α : Type} (first : Bool) (step : Step α) : Step (Option α) := fun c => do
  match ← orUnreadable (c.nextItem first) with
  | none => return (none, c)
  | some c =>
      let (a, c) ← step c
      return (some a, c)

/-- Decodes a key's value, unless the key came before. -/
def once {α : Type} (name : String) (before : Option α) (step : Step α) : Step (Option α) :=
    fun c => do
  match before with
  | some _ => misshapen (.duplicateField name)
  | none =>
      let (a, c) ← step c
      return (some a, c)

/-- The decoded value of a key that must be there. -/
def required {α : Type} (name : String) : Option α → Except DecodeFault α
  | some a => .ok a
  | none => misshapen (.missingField name)

/--
Decodes a record, given as an object or by position as a list. Both start after the opening bracket;
`ofMembers` ends before the closing brace, `ofItems` before the closing bracket.
-/
def record {α : Type} (expected : String) (ofMembers ofItems : Step α) : Step α := fun c => do
  let c ← valueStart c
  match c.rest with
  | '{' :: _ =>
      let (a, c) ← ofMembers c.next
      return (a, c.skipBlanks.next)
  | '[' :: _ =>
      let (a, c) ← ofItems c.next
      return (a, ← orUnreadable c.closeList)
  | _ => refuse expected c

/-- Decodes a whole text. -/
def decode {α : Type} (step : Step α) (text : String) : Except DecodeFault α := do
  let (a, c) ← step (Cursor.ofString text)
  orUnreadable c.expectEnd
  return a

end DocIndex.Json.Stream
