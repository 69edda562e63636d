import DocIndex.Word

/-!
JSON values. An integer literal that fits a signed or unsigned 64-bit word is an `integer`; every
other number is a `float`. An object is a list of members: in text order, with repetitions, as the
reader finds them, or in ascending key order without repetitions once the value is `canonical`.
Keys are compared by code point, which is the order of their UTF-8 bytes.
-/

namespace DocIndex

/-- A JSON value. -/
inductive Json where
  | null
  | bool (value : Bool)
  | integer (value : Int)
  | float (value : Float)
  | string (value : String)
  | array (items : List Json)
  | object (members : List (String × Json))
deriving Repr, Inhabited

namespace Json

/-- A float as JSON; one that is not finite has no number. -/
def ofFloat (x : Float) : Json :=
  if x.isFinite then .float x else .null

/-- Put a member into a list in ascending key order; an equal key gives way to the new one. -/
def insertMember (key : String) (value : Json) :
    List (String × Json) → List (String × Json)
  | [] => [(key, value)]
  | (k, v) :: rest =>
      if key < k then (key, value) :: (k, v) :: rest
      else if key = k then (key, value) :: rest
      else (k, v) :: insertMember key value rest

/-- Members in ascending key order; of members with one key the last stays. -/
def sortMembers (members : List (String × Json)) : List (String × Json) :=
  members.foldl (fun sorted m => insertMember m.1 m.2 sorted) []

mutual

/-- The same value with the members of every object sorted and without repeated keys. -/
def canonical : Json → Json
  | .array items => .array (canonicalItems items)
  | .object members => .object (sortMembers (canonicalMembers members))
  | .null => .null
  | .bool b => .bool b
  | .integer n => .integer n
  | .float x => .float x
  | .string s => .string s

def canonicalItems : List Json → List Json
  | [] => []
  | item :: rest => item.canonical :: canonicalItems rest

def canonicalMembers : List (String × Json) → List (String × Json)
  | [] => []
  | member :: rest => canonicalMember member :: canonicalMembers rest

def canonicalMember : String × Json → String × Json
  | (key, value) => (key, value.canonical)

end

mutual

/--
Tells whether two values are equal; floats are compared as numbers, so zeros of both signs agree.
-/
def same : Json → Json → Bool
  | .null, .null => true
  | .bool a, .bool b => a == b
  | .integer a, .integer b => a == b
  | .float a, .float b => a == b
  | .string a, .string b => a == b
  | .array a, .array b => sameItems a b
  | .object a, .object b => sameMembers a b
  | _, _ => false

def sameItems : List Json → List Json → Bool
  | [], [] => true
  | a :: as, b :: bs => same a b && sameItems as bs
  | _, _ => false

def sameMembers : List (String × Json) → List (String × Json) → Bool
  | [], [] => true
  | a :: as, b :: bs => sameMember a b && sameMembers as bs
  | _, _ => false

def sameMember : String × Json → String × Json → Bool
  | (k, a), (l, b) => k == l && same a b

end

/-- The value of the first member with this key. -/
def lookup (key : String) : List (String × Json) → Option Json
  | [] => none
  | (k, v) :: rest => if k = key then some v else lookup key rest

/-- The value under a key, if the value is an object that has it. -/
def get? (key : String) : Json → Option Json
  | .object members => lookup key members
  | _ => none

/--
The kind of a value, as messages name it; an integer above the signed range has a name of its own.
-/
def kindName : Json → String
  | .null => "null"
  | .bool _ => "bool"
  | .integer n => if n < (signWeight : Int) then "integer" else "unsigned integer"
  | .float _ => "float"
  | .string _ => "string"
  | .array _ => "array"
  | .object _ => "object"

end Json

end DocIndex
