import DocIndex.Json.Literal

/-!
Reading JSON text into values. `Json.read` keeps the members of objects as they stand in the text;
`Json.parse` gives the canonical value. At most 127 containers may be nested. The functions recurse
on a bound that starts above the number of steps a text can need, so it never runs out.
-/

namespace DocIndex.Json

/-- The greatest number of containers that may be open at once. -/
def maxDepth : Nat := 127

mutual

/-- Reads a value; `depth` is the number of containers that may still be opened. -/
def readValue : Nat → Nat → Cursor → Except Fault (Json × Cursor)
  | 0, _, c => .error (c.faultHere .endInValue)
  | fuel + 1, depth, c =>
      let c := c.skipBlanks
      match c.rest with
      | [] => .error (c.faultHere .endInValue)
      | 'n' :: _ => (c.next.expectWord ['u', 'l', 'l']).map (.null, ·)
      | 't' :: _ => (c.next.expectWord ['r', 'u', 'e']).map (.bool true, ·)
      | 'f' :: _ => (c.next.expectWord ['a', 'l', 's', 'e']).map (.bool false, ·)
      | '-' :: _ => readNumber true c.next
      | '"' :: _ => (readString c.next).map (fun (s, c) => (.string s, c))
      | '[' :: _ =>
          match depth with
          | 0 => .error (c.faultAtNext .depthExceeded)
          | depth + 1 => readItems fuel depth [] c.next
      | '{' :: _ =>
          match depth with
          | 0 => .error (c.faultAtNext .depthExceeded)
          | depth + 1 => readMembers fuel depth [] c.next
      | ch :: _ =>
          if ch.isDigit then readNumber false c else .error (c.faultAtNext .expectedValue)

/-- Reads the items of a list whose bracket has been read; `read` holds those so far, last first. -/
def readItems : Nat → Nat → List Json → Cursor → Except Fault (Json × Cursor)
  | 0, _, _, c => .error (c.faultHere .endInList)
  | fuel + 1, depth, read, c =>
      match c.nextItem read.isEmpty with
      | .error fault => .error fault
      | .ok none => .ok (.array read.reverse, c.skipBlanks.next)
      | .ok (some c) =>
          match readValue fuel depth c with
          | .error fault => .error fault
          | .ok (item, c) => readItems fuel depth (item :: read) c

/-- Reads the members of an object whose brace has been read. -/
def readMembers : Nat → Nat → List (String × Json) → Cursor → Except Fault (Json × Cursor)
  | 0, _, _, c => .error (c.faultHere .endInObject)
  | fuel + 1, depth, read, c =>
      match c.nextKey read.isEmpty with
      | .error fault => .error fault
      | .ok none => .ok (.object read.reverse, c.skipBlanks.next)
      | .ok (some c) =>
          match readString c with
          | .error fault => .error fault
          | .ok (key, c) =>
              match c.expectColon with
              | .error fault => .error fault
              | .ok c =>
                  match readValue fuel depth c with
                  | .error fault => .error fault
                  | .ok (value, c) => readMembers fuel depth ((key, value) :: read) c

end

/-- A bound for the steps of reading what follows a place. -/
def Cursor.fuel (c : Cursor) : Nat :=
  2 * c.rest.length + 2

/-- Reads one value and tells where it ends. -/
def readFrom (c : Cursor) : Except Fault (Json × Cursor) :=
  readValue c.fuel maxDepth c

/-- Reads a text that holds one value; members stay in text order with their repetitions. -/
def read (text : String) : Except Fault Json := do
  let (value, c) ← readFrom (Cursor.ofString text)
  c.expectEnd
  .ok value

/-- Reads a text that holds one value; members are sorted and the last of equal keys stays. -/
def parse (text : String) : Except Fault Json :=
  (read text).map canonical

end DocIndex.Json
