import DocIndex.Json.Fault

/-!
A place in a text: the characters still to be read, and the line and column reached. All reading of
JSON goes through these few steps, so that every fault can say where it happened.
-/

namespace DocIndex.Json

/-- The unread characters with the line and the byte column of the place before them. -/
structure Cursor where
  rest : List Char
  line : Nat
  column : Nat
deriving Repr, DecidableEq

namespace Cursor

def ofString (text : String) : Cursor :=
  ⟨text.toList, 1, 0⟩

/-- The place after one more character. -/
def next : Cursor → Cursor
  | ⟨[], line, column⟩ => ⟨[], line, column⟩
  | ⟨ch :: rest, line, column⟩ =>
      if ch = '\n' then ⟨rest, line + 1, 0⟩ else ⟨rest, line, column + ch.utf8Size⟩

/-- The place after `n` more characters. -/
def skip : Nat → Cursor → Cursor
  | 0, c => c
  | n + 1, c => skip n c.next

/-- The place at the end of the text. -/
def toEnd (c : Cursor) : Cursor :=
  c.skip c.rest.length

/-- A fault at the place reached. -/
def faultHere (c : Cursor) (kind : FaultKind) : Fault :=
  ⟨kind, c.line, c.column⟩

/--
A fault that counts the first `n` unread bytes as read. A character may be cut in two by this count;
it then contributes the bytes before the cut.
-/
def faultAfterBytes (kind : FaultKind) : Nat → List Char → Nat → Nat → Fault
  | 0, _, line, column => ⟨kind, line, column⟩
  | _, [], line, column => ⟨kind, line, column⟩
  | n + 1, ch :: rest, line, column =>
      if ch = '\n' then faultAfterBytes kind n rest (line + 1) 0
      else if ch.utf8Size ≤ n + 1 then
        faultAfterBytes kind (n + 1 - ch.utf8Size) rest line (column + ch.utf8Size)
      else ⟨kind, line, column + (n + 1)⟩

/-- A fault that counts the first unread byte, if any, as read. -/
def faultAtNext (c : Cursor) (kind : FaultKind) : Fault :=
  faultAfterBytes kind 1 c.rest c.line c.column

/-- The four characters that may stand between tokens. -/
def isBlank (ch : Char) : Bool :=
  ch = ' ' || ch = '\t' || ch = '\n' || ch = '\r'

/-- The place of the next character that is not blank. -/
def skipBlanks (c : Cursor) : Cursor :=
  c.skip (c.rest.takeWhile isBlank).length

/-- Reads the given characters, the remainder of a word such as `null`. -/
def expectWord : List Char → Cursor → Except Fault Cursor
  | [], c => .ok c
  | expected :: more, c =>
      match c.rest with
      | [] => .error (c.faultHere .endInValue)
      | ch :: _ =>
          if ch = expected then expectWord more c.next
          else .error (c.faultAtNext .expectedIdent)

/-- Reads the colon between a key and its value. -/
def expectColon (c : Cursor) : Except Fault Cursor :=
  let c := c.skipBlanks
  match c.rest with
  | [] => .error (c.faultHere .endInObject)
  | ':' :: _ => .ok c.next
  | _ :: _ => .error (c.faultAtNext .expectedColon)

/-- Accepts only blanks up to the end of the text. -/
def expectEnd (c : Cursor) : Except Fault Unit :=
  let c := c.skipBlanks
  match c.rest with
  | [] => .ok ()
  | _ :: _ => .error (c.faultAtNext .trailingCharacters)

/--
Steps to the next item of a list: `none` at the closing bracket, which is not read, else the place
of the item. `first` tells that no item came before.
-/
def nextItem (first : Bool) (c : Cursor) : Except Fault (Option Cursor) :=
  let c := c.skipBlanks
  match c.rest with
  | [] => .error (c.faultHere .endInList)
  | ']' :: _ => .ok none
  | ch :: _ =>
      if first then .ok (some c)
      else if ch = ',' then
        let c := c.next.skipBlanks
        match c.rest with
        | [] => .error (c.faultHere .endInValue)
        | ']' :: _ => .error (c.faultAtNext .trailingComma)
        | _ :: _ => .ok (some c)
      else .error (c.faultAtNext .expectedListCommaOrEnd)

/--
Steps to the next key of an object: `none` at the closing brace, which is not read, else the place
after the key's opening quote. `first` tells that no member came before.
-/
def nextKey (first : Bool) (c : Cursor) : Except Fault (Option Cursor) :=
  let c := c.skipBlanks
  match c.rest with
  | [] => .error (c.faultHere .endInObject)
  | '}' :: _ => .ok none
  | ch :: _ =>
      if first then
        if ch = '"' then .ok (some c.next) else .error (c.faultAtNext .keyMustBeString)
      else if ch = ',' then
        let c := c.next.skipBlanks
        match c.rest with
        | [] => .error (c.faultHere .endInValue)
        | '"' :: _ => .ok (some c.next)
        | '}' :: _ => .error (c.faultAtNext .trailingComma)
        | _ :: _ => .error (c.faultAtNext .keyMustBeString)
      else .error (c.faultAtNext .expectedObjectCommaOrEnd)

/-- Reads the bracket that must close a list at this place. -/
def closeList (c : Cursor) : Except Fault Cursor :=
  let c := c.skipBlanks
  match c.rest with
  | [] => .error (c.faultHere .endInList)
  | ']' :: _ => .ok c.next
  | ',' :: _ =>
      let c := c.next.skipBlanks
      match c.rest with
      | ']' :: _ => .error (c.faultAtNext .trailingComma)
      | _ => .error (c.faultAtNext .trailingCharacters)
  | _ :: _ => .error (c.faultAtNext .trailingCharacters)

end Cursor

end DocIndex.Json
