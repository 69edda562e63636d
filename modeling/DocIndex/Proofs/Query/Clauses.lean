import DocIndex.Proofs.Json.Parts
import DocIndex.Query.Definition

/-!
What a query is made of: the clauses within it, at any depth, and the values and bounds that these
hold.
-/

namespace DocIndex.QueryDef

mutual

def clauses : QueryDef → List QueryDef
  | .bool must should mustNot =>
      .bool must should mustNot ::
        (clausesOfList must ++ clausesOfList should ++ clausesOfList mustNot)
  | .text query fields => [.text query fields]
  | .fuzzy sought distance fields => [.fuzzy sought distance fields]
  | .phrase sought fields => [.phrase sought fields]
  | .startsWith start fields => [.startsWith start fields]
  | .term field value => [.term field value]
  | .rangeI64 field min max => [.rangeI64 field min max]
  | .rangeF64 field min max => [.rangeF64 field min max]
  | .all => [.all]

def clausesOfList : List QueryDef → List QueryDef
  | [] => []
  | query :: rest => query.clauses ++ clausesOfList rest

end

def values (query : QueryDef) : List Json :=
  query.clauses.filterMap fun
    | .term _ value => some value
    | _ => none

def floatBounds (query : QueryDef) : List Float :=
  query.clauses.flatMap fun
    | .rangeF64 _ min max => min.toList ++ max.toList
    | _ => []

/-- The floats of a query: bounds, and those within the values sought. -/
def floats (query : QueryDef) : List Float :=
  query.floatBounds ++ query.values.flatMap Json.floats

/--
The values sought are such as a reader of JSON gives: the members of objects are in ascending order,
and integers have 64 bits.
-/
structure Settled (query : QueryDef) : Prop where
  canonical : ∀ value ∈ query.values, value.canonical = value
  words : ∀ value ∈ query.values, value.HoldsWords

theorem clausesOfList_eq_flatMap (queries : List QueryDef) :
    clausesOfList queries = queries.flatMap clauses := by
  induction queries with
  | nil => rfl
  | cons query rest ih => rw [clausesOfList, ih, List.flatMap_cons]

variable {must should mustNot : List QueryDef} {clause : QueryDef}

theorem clauses_subset (hclause : clause ∈ must ++ should ++ mustNot) :
    clause.clauses ⊆ (bool must should mustNot).clauses := by
  intro part hpart
  rw [clauses, clausesOfList_eq_flatMap, clausesOfList_eq_flatMap, clausesOfList_eq_flatMap,
    ← List.flatMap_append, ← List.flatMap_append]
  exact List.mem_cons_of_mem _ (List.mem_flatMap.mpr ⟨clause, hclause, hpart⟩)

theorem values_subset (hclause : clause ∈ must ++ should ++ mustNot) :
    clause.values ⊆ (bool must should mustNot).values :=
  List.filterMap_subset _ (clauses_subset hclause)

theorem floatBounds_subset (hclause : clause ∈ must ++ should ++ mustNot) :
    clause.floatBounds ⊆ (bool must should mustNot).floatBounds := by
  intro x hx
  obtain ⟨part, hpart, hmem⟩ := List.mem_flatMap.mp hx
  exact List.mem_flatMap.mpr ⟨part, clauses_subset hclause hpart, hmem⟩

end DocIndex.QueryDef
