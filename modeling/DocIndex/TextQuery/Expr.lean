/-!
Expressions of the text query language: words and phrases, ranges, lists of words, combined by
operators, signs, parentheses and boosts.
-/

namespace DocIndex.TextQuery

/-- What a clause is to the documents that are sought. -/
inductive Occur where
  | must
  | should
  | mustNot
deriving Repr, DecidableEq

/-- One end of a range as written. -/
inductive Edge where
  | unbounded
  | included (text : String)
  | excluded (text : String)
deriving Repr, DecidableEq

/-- What stands for itself in a query. -/
inductive Leaf where
  /-- Words, to be cut into terms by the field; several terms are a phrase. -/
  | words (field : Option String) (text : String) (slop : Nat) (openEnded : Bool)
  | all
  | range (field : Option String) (lower upper : Edge)
  | anyOf (field : Option String) (words : List String)
  /-- Any value of a field. -/
  | present (field : String)
deriving Repr, DecidableEq

/-- Gives a leaf the field that stands before it. -/
def Leaf.withField (field : Option String) : Leaf → Leaf
  | .words _ text slop openEnded => .words field text slop openEnded
  | .all => .all
  | .range _ lower upper => .range field lower upper
  | .anyOf _ texts => .anyOf field texts
  | .present name => .present (field.getD name)

/-- Gives a leaf a field unless it has one. -/
def Leaf.within (field : String) : Leaf → Leaf
  | .words none text slop openEnded => .words (some field) text slop openEnded
  | .all => .present field
  | .range none lower upper => .range (some field) lower upper
  | .anyOf none texts => .anyOf (some field) texts
  | other => other

/-- An expression. -/
inductive Expr where
  | leaf (leaf : Leaf)
  | clauses (parts : List (Option Occur × Expr))
  | boost (factor : Float) (expr : Expr)
deriving Repr, Inhabited

/-- A clause with the sign before it. -/
abbrev Part := Option Occur × Expr

namespace Expr

/-- An expression that is not to hold. -/
def exclude (expr : Expr) : Expr :=
  .clauses [(some .mustNot, expr)]

mutual

/-- Gives the leaves of an expression a field unless they have one. -/
def within (field : String) : Expr → Expr
  | .leaf item => .leaf (item.within field)
  | .clauses parts => .clauses (partsWithin field parts)
  | .boost factor expr => .boost factor (within field expr)

/-- Gives the leaves of clauses a field unless they have one. -/
def partsWithin (field : String) : List (Option Occur × Expr) → List (Option Occur × Expr)
  | [] => []
  | part :: rest => partWithin field part :: partsWithin field rest

/-- Gives the leaves of a clause a field unless they have one. -/
def partWithin (field : String) : Option Occur × Expr → Option Occur × Expr
  | (occur, expr) => (occur, within field expr)

end

/-- Makes a clause that consists of one clause stand for it. -/
def unwrapPart : Part → Part
  | (none, .clauses [part]) => part
  | part => part

/-- Unwraps the clauses of an expression, but not those within them. -/
def unwrap : Expr → Expr
  | .clauses parts => .clauses (parts.map unwrapPart)
  | expr => expr

end Expr

/-- An operator between two clauses. -/
inductive Operator where
  | and
  | or
deriving Repr, DecidableEq

/-- A clause with the operator and the sign before it. -/
structure Operand where
  operator : Option Operator
  occur : Option Occur
  expr : Expr

/-- The clause of an operand that is followed by some operator. -/
def Operand.part (operand : Operand) (next : Option Operator) : Part :=
  if operand.operator = some .and ∨ next = some .and then
    (some (operand.occur.getD .must), operand.expr)
  else if operand.operator = none ∧ next = none then (operand.occur, operand.expr)
  else
    match operand.occur with
    | some .mustNot => (some .should, operand.expr.exclude)
    | occur => (some (occur.getD .should), operand.expr)

/-- The groups of clauses that `AND` joins. -/
def groups : List Operand → List (List Part)
  | [] => []
  | [operand] => [[operand.part none]]
  | operand :: next :: rest =>
      match next.operator, groups (next :: rest) with
      | some .and, group :: others => (operand.part next.operator :: group) :: others
      | _, others => [operand.part next.operator] :: others

/-- A group as a clause of its own. -/
def groupPart : List Part → Part
  | [part] => part
  | group => (some .should, .clauses group)

/-- The expression of several operands; `AND` binds tighter than `OR`. -/
def Expr.ofOperands (operands : List Operand) : Expr :=
  match groups operands with
  | [group] => .clauses group
  | groups => .clauses (groups.map groupPart)

end DocIndex.TextQuery
