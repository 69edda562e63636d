import DocIndex.Proofs.Json.NumberLiteral
import DocIndex.Proofs.Query.Requests
import DocIndex.Proofs.Search.Ranges
import DocIndex.Proofs.Search.Values

/-!
Literals of numbers given to a field of integers: by a document, as the value that a query looks
for, and as a bound of a range.
-/

namespace DocIndex

open Json (NumberLiteral SpellsMembers keyedText objectText quotedText)
open Query

/-- The lower or the upper end of a range. -/
inductive RangeEnd where
  | least
  | greatest
deriving DecidableEq

namespace RangeEnd

def key : RangeEnd → String
  | least => "min"
  | greatest => "max"

def query (name : String) (n : Int64) : RangeEnd → QueryDef
  | least => .rangeI64 name (some n) none
  | greatest => .rangeI64 name none (some n)

def plan (id : FieldId) (n : Int64) : RangeEnd → Plan
  | least => .rangeI64 id (some n) none
  | greatest => .rangeI64 id none (some n)

end RangeEnd

/-! Ranges with one bound -/

def rangeMembers (name : String) (side : RangeEnd) (bound : Json) : List (String × Json) :=
  [("type", .string "range_i64"), ("field", .string name), (side.key, bound)]

/-- The same members in the order of their keys. -/
def orderedRange (name : String) (side : RangeEnd) (bound : Json) : List (String × Json) :=
  [("field", .string name), (side.key, bound), ("type", .string "range_i64")]

theorem canonical_rangeMembers (name : String) (side : RangeEnd) {bound : Json}
    (hbound : bound.canonical = bound) :
    (Json.object (rangeMembers name side bound)).canonical =
      .object (orderedRange name side bound) := by
  cases side <;>
    simp (disch := decide) only [rangeMembers, orderedRange, RangeEnd.key, Json.canonical,
      Json.canonicalMembers, Json.canonicalMember, hbound, Json.sortMembers, List.foldl,
      Json.insertMember_nil, Json.insertMember_of_lt, Json.insertMember_of_gt]

/-- Where a bound may be absent, any other value than null is decoded as a bound. -/
theorem optionalOf_of_ne_null {α : Type} (decode : Json → Except Json.Mismatch α) {json : Json}
    (hnull : json ≠ .null) : optionalOf decode json = (decode json).map some := by
  unfold optionalOf
  split
  · contradiction
  · rfl

theorem ofJson_orderedRange (name : String) (side : RangeEnd) {bound : Json}
    (hnull : bound ≠ .null) :
    Query.ofJson (.object (orderedRange name side bound)) =
      (int64Of bound).map fun n => side.query name n := by
  have htype : typeOfMembers none (orderedRange name side bound) = .ok .rangeI64 := by
    cases side <;> rfl
  have hbound := optionalOf_of_ne_null int64Of hnull
  simp only [Query.ofJson, htype, Query.ofMembers]
  cases hdecode : int64Of bound with
  | error mismatch =>
      rw [hdecode] at hbound
      cases side <;>
        simp [orderedRange, Parts.addMembers, partsOf, mainName, Parts.addMain, unlessGiven,
          stringOf, Except.map, Parts.addMinI64, Parts.addMaxI64, hbound, RangeEnd.key, bind,
          Except.bind]
  | ok n =>
      rw [hdecode] at hbound
      cases side <;>
        simp [orderedRange, Parts.addMembers, partsOf, mainName, Parts.addMain, unlessGiven,
          stringOf, Except.map, Parts.addMinI64, Parts.addMaxI64, hbound, RangeEnd.key,
          RangeEnd.query, bind, Except.bind, Parts.finish, required]

/-- A range is asked for as its bound is decoded. -/
theorem ofText_rangeMembers {name text : String} {side : RangeEnd} {bound : Json}
    (hread : Json.read text = .ok (.object (rangeMembers name side bound)))
    (hbound : bound.canonical = bound) (hnull : bound ≠ .null) :
    Request.ofText text =
      match int64Of bound with
      | .ok n => .ok ⟨side.query name n, none, 0⟩
      | .error mismatch => .error (.malformed (.misshapen mismatch)) := by
  have htypes : checkTypes (.object (orderedRange name side bound)) = .ok () := by
    cases side <;>
      exact QueryDef.checkTypes_of_no_clauses rfl (by decide)
        (by simp [orderedRange, RangeEnd.key, clauseKeys])
  have hlimit : memberOf "limit" (optionalOf countOf) (orderedRange name side bound) =
      .ok none := by
    cases side <;> rfl
  have hoffset : memberOf "offset" countOf (orderedRange name side bound) = .ok none := by
    cases side <;> rfl
  have hparts : (orderedRange name side bound).filter
      (fun m => m.1 ≠ "limit" ∧ m.1 ≠ "offset") = orderedRange name side bound := by
    cases side <;> rfl
  rw [Request.ofText, Json.parse, hread]
  simp only [Except.map, canonical_rangeMembers name side hbound, Request.ofJson, htypes,
    Request.ofMembers, hlimit, hoffset, hparts, ofJson_orderedRange name side hnull, bind,
    Except.bind]
  cases int64Of bound <;> rfl

/-! The three texts -/

/-- The text of a document that gives a number to a field. -/
def literalDocument (name : String) (literal : NumberLiteral) : String :=
  objectText [(name, literal.text)]

/-- The text of a query that looks for a number in a field. -/
def literalTerm (name : String) (literal : NumberLiteral) : String :=
  objectText [("type", quotedText "term_match"), ("field", quotedText name),
    ("value", literal.text)]

/-- The text of a query for a range that a number bounds. -/
def literalRange (name : String) (side : RangeEnd) (literal : NumberLiteral) : String :=
  objectText [("type", quotedText "range_i64"), ("field", quotedText name),
    (side.key, literal.text)]

def Plan.ofText (schema : Schema) (cap : UInt8) (text : String) : Except QueryError Plan := do
  let request ← Request.ofText text
  compile schema cap request.query

/-- The literal is accepted in all three places, where it carries this integer. -/
structure Json.NumberLiteral.Carries (literal : NumberLiteral) (schema : Schema) (id : FieldId)
    (name : String) (n : Int64) : Prop where
  document : ∀ strict,
    Document.ofText schema (literalDocument name literal) strict = .ok ⟨[(id, .i64 n)], []⟩
  term : ∀ cap, Plan.ofText schema cap (literalTerm name literal) = .ok (.term id (.i64 n))
  range : ∀ cap side,
    Plan.ofText schema cap (literalRange name side literal) = .ok (side.plan id n)

/-- The literal is refused in all three places. -/
structure Json.NumberLiteral.IsRefused (literal : NumberLiteral) (schema : Schema)
    (name : String) : Prop where
  document : ∀ strict document,
    Document.ofText schema (literalDocument name literal) strict ≠ .ok document
  term : ∀ cap plan, Plan.ofText schema cap (literalTerm name literal) ≠ .ok plan
  range : ∀ cap side plan, Plan.ofText schema cap (literalRange name side literal) ≠ .ok plan

/-! What is accepted -/

section

variable {schema : Schema} {id : FieldId} {field : FieldDef} {cap : UInt8} {text name : String}
  {literal : NumberLiteral}

/-- A document that gives a value to one field, and nothing else, has that value. -/
theorem Document.ofText_of_only (hfield : schema.field? id = some field) {given : Json}
    (hread : Json.read text = .ok (.object [(field.name, given)])) (hnull : given ≠ .null)
    {value : FieldValue} (hmeans : field.kind.Means given value) (strict : Bool) :
    ofText schema text strict = .ok ⟨[(id, value)], []⟩ := by
  have hmem : field ∈ schema.fields := List.mem_of_getElem? hfield
  obtain ⟨members, hsame, hgiven, hothers, hdeclared⟩ :=
    Schema.offers_of_read hmem hread hnull true
  have htranslation := (ofText_isTranslation schema text).1 members hsame
  have htakes : ∀ other ∈ schema.fields, other.TakesFrom members := by
    intro other hother
    by_cases hfields : other = field
    · rw [hfields, FieldDef.takesFrom_of_given hgiven, FieldKind.takes_iff]
      exact ⟨value, FieldKind.means_iff.mp hmeans⟩
    · exact hothers other hother hfields
  have hlenient : ofText schema text false = .ok ⟨[(id, value)], []⟩ := by
    refine (htranslation.translates _).mpr ⟨htakes, List.pairwise_singleton _ _, ?_, .nil, ?_⟩
    · intro other found
      rw [List.mem_singleton, Prod.mk.injEq]
      constructor
      · rintro ⟨rfl, rfl⟩
        exact ⟨field, given, hfield, hgiven, hmeans⟩
      · rintro ⟨another, offered, hanother, ⟨before, after, hmembers, -⟩, hfound⟩
        obtain rfl := Json.object.inj (Except.ok.inj (hread.symm.trans hsame))
        have honly : (another.name, offered) ∈ [(field.name, given)] := by simp [hmembers]
        obtain ⟨hname, rfl⟩ := Prod.mk.inj (List.mem_singleton.mp honly)
        obtain rfl := Schema.field?_unique hanother hfield hname
        obtain rfl := Option.some.inj (hanother.symm.trans hfield)
        exact ⟨rfl, hfound.unique hmeans⟩
    · intro key
      simpa using fun hkey => hdeclared rfl ⟨key, hkey⟩
  cases strict with
  | false => exact hlenient
  | true => exact (htranslation.strict _).mpr ⟨hlenient, rfl⟩

theorem spellsMembers_query (word name : String) :
    SpellsMembers [("type", quotedText word), ("field", quotedText name)]
      [("type", .string word), ("field", .string name)] :=
  (Json.spellsMembers_nil.cons (Json.spells_quotedText name) _).cons
    (Json.spells_quotedText word) _

theorem Plan.ofText_of_term {value : Json}
    (hread : Json.read text = .ok (QueryDef.term name value).toJson)
    (hvalue : value.canonical = value) :
    Plan.ofText schema cap text = compile schema cap (.term name value) := by
  have hrequest : Request.ofText text = .ok ⟨.term name value, none, 0⟩ := by
    refine QueryDef.ofText_of_read hread ?_ ?_
    · simpa [QueryDef.values, QueryDef.clauses] using hvalue
    · simp [QueryDef.floatBounds, QueryDef.clauses]
  rw [Plan.ofText, hrequest]
  rfl

theorem RangeEnd.compile_query (side : RangeEnd) (cap : UInt8)
    (hfield : schema.field? id = some field) (hkind : field.kind = .i64)
    (hfast : field.fast = true) (n : Int64) :
    Plan.compile schema cap (side.query field.name n) = .ok (side.plan id n) := by
  cases side <;> exact Plan.compile_rangeI64 hfield hkind hfast (by simp)

/-- An integer of 64 bits is accepted wherever its literal stands. -/
theorem Json.NumberLiteral.Denotes.carries {n : Int64} (hdenotes : literal.Denotes n.toInt)
    (hfield : schema.field? id = some field) (hkind : field.kind = .i64)
    (hindexed : field.indexed = true) (hfast : field.fast = true) :
    literal.Carries schema id field.name n where
  document strict := by
    have hread := Json.read_objectText (Json.spellsMembers_nil.cons hdenotes.spells field.name)
    exact Document.ofText_of_only hfield hread (by simp) (hkind ▸ .i64 n) strict
  term cap := by
    have hread := Json.read_objectText (List.rel_append
      (spellsMembers_query "term_match" field.name)
      (Json.spellsMembers_nil.cons hdenotes.spells "value"))
    refine (Plan.ofText_of_term hread rfl).trans ?_
    exact (Plan.compile_term_eq_ok_iff hfield hindexed).mpr ⟨.i64 n, hkind ▸ .i64 n, rfl⟩
  range cap side := by
    have hread := Json.read_objectText (List.rel_append (spellsMembers_query "range_i64" field.name)
      (Json.spellsMembers_nil.cons hdenotes.spells side.key))
    have hrequest := ofText_rangeMembers hread rfl (by simp)
    rw [QueryDef.int64Of_toInt] at hrequest
    have hplan := side.compile_query cap hfield hkind hfast n
    exact bind_eq_ok_iff.mpr ⟨_, hrequest, hplan⟩

/-! What is refused -/

/-- What is decoded as a bound could be given to a field. -/
theorem takes_of_int64Of {bound : Json} {n : Int64} (hdecode : int64Of bound = .ok n) :
    FieldKind.i64.Takes bound := by
  obtain ⟨m, hinteger, -⟩ := map_eq_ok_iff.mp hdecode
  unfold integerOf at hinteger
  split at hinteger
  · rename_i found
    split at hinteger
    · rename_i hrange
      exact ⟨found, rfl, hrange.1, Int.le_of_lt_add_one hrange.2⟩
    · contradiction
  · contradiction

/-- What a document was made of could be taken. -/
theorem takes_of_document {sought : Json} {outcome : Except QueryError Plan}
    {translated : Except DocumentError Document} {document : Document}
    (hsame : SameOutcome id field sought outcome translated)
    (hdocument : translated = .ok document) : field.kind.Takes sought := by
  cases hsame with
  | taken hmeans => exact FieldKind.takes_iff.mpr ⟨_, FieldKind.means_iff.mp hmeans⟩
  | refused => contradiction

theorem Request.ofText_of_fault {fault : Json.Fault} (hfault : Json.read text = .error fault) :
    Request.ofText text = .error (.malformed (.unreadable fault)) := by
  rw [Request.ofText, Json.parse, hfault]
  rfl

/-- A value that no field of integers takes is refused in all three places. -/
theorem isRefused_of_spellsOnly (hfield : schema.field? id = some field)
    (hkind : field.kind = .i64) (hindexed : field.indexed = true)
    (honly : Json.SpellsOnly literal.text fun value =>
      ¬FieldKind.i64.Takes value ∧ value.canonical = value ∧ value ≠ .null) :
    literal.IsRefused schema field.name where
  document strict document hdocument := by
    have hmem : field ∈ schema.fields := List.mem_of_getElem? hfield
    rcases Json.read_objectText_of_last Json.spellsMembers_nil field.name honly with
      ⟨value, ⟨htakes, -, hnull⟩, hread⟩ | ⟨fault, hfault⟩
    · have hsame : SameOutcome id field value (Plan.compile schema 0 _) _ :=
        (Schema.offers_of_read hmem hread hnull strict).sameOutcome hfield hindexed
      exact htakes (hkind ▸ takes_of_document hsame hdocument)
    · have htext := hdocument.symm.trans
        ((Document.ofText_isTranslation schema _).2.2.1 fault hfault strict)
      simp at htext
  term cap plan hplan := by
    rcases Json.read_objectText_of_last (spellsMembers_query "term_match" field.name) "value"
      honly with ⟨value, ⟨htakes, hvalue, -⟩, hread⟩ | ⟨fault, hfault⟩
    · have hterm := hplan.symm.trans (Plan.ofText_of_term hread hvalue)
      rw [Plan.compile_term_of_refused hfield hindexed (hkind ▸ htakes)] at hterm
      simp at hterm
    · obtain ⟨request, hrequest, -⟩ := bind_eq_ok_iff.mp hplan
      have htext := hrequest.symm.trans (Request.ofText_of_fault hfault)
      simp at htext
  range cap side plan hplan := by
    obtain ⟨request, hrequest, -⟩ := bind_eq_ok_iff.mp hplan
    rcases Json.read_objectText_of_last (spellsMembers_query "range_i64" field.name) side.key
      honly with ⟨value, ⟨htakes, hvalue, hnull⟩, hread⟩ | ⟨fault, hfault⟩
    · have htext := hrequest.symm.trans (ofText_rangeMembers hread hvalue hnull)
      cases hdecode : int64Of value with
      | ok n => exact htakes (takes_of_int64Of hdecode)
      | error mismatch => simp [hdecode] at htext
    · have htext := hrequest.symm.trans (Request.ofText_of_fault hfault)
      simp at htext

/-- A literal that denotes no integer of 64 bits is refused wherever it stands. -/
theorem isRefused_of_not_denotes (literal : NumberLiteral) (hfield : schema.field? id = some field)
    (hkind : field.kind = .i64) (hindexed : field.indexed = true)
    (hnone : ∀ n, literal.Denotes n → ¬(-2 ^ 63 ≤ n ∧ n ≤ 2 ^ 63 - 1)) :
    literal.IsRefused schema field.name := by
  apply isRefused_of_spellsOnly hfield hkind hindexed
  by_cases hdenotes : ∃ n, literal.Denotes n
  · obtain ⟨n, hn⟩ := hdenotes
    refine hn.spells.only ⟨?_, rfl, by simp⟩
    rintro ⟨m, hm, hrange⟩
    obtain rfl := Json.integer.inj hm
    exact hnone n hn hrange
  · refine (Json.NumberLiteral.spellsOnly_float (not_exists.mp hdenotes)).mono ?_
    rintro _ ⟨x, rfl⟩
    exact ⟨by simp [FieldKind.Takes], rfl, by simp⟩

/--
Let a field of integers be indexed and fast, and let the literal of a number stand for its value in
a document, for the value that a query looks for in it, or for a bound of a range. A literal that is
all digits, after a minus sign or not, and denotes an integer of 64 bits is accepted in all of these
places and carries just this integer. Every other literal is refused in all of them, be it an
integer out of this range or one with a fraction or an exponent; and so is a zero with a minus sign.
-/
theorem Schema.integers_carried_or_refused (hfield : schema.field? id = some field)
    (hkind : field.kind = .i64) (hindexed : field.indexed = true) (hfast : field.fast = true)
    (literal : NumberLiteral) :
    (∀ n : Int64, literal.IsInteger → literal.integer = n.toInt → literal.text ≠ ['-', '0'] →
      literal.Carries schema id field.name n) ∧
    (literal.IsInteger → ¬(-2 ^ 63 ≤ literal.integer ∧ literal.integer ≤ 2 ^ 63 - 1) →
      literal.IsRefused schema field.name) ∧
    (¬literal.IsInteger → literal.IsRefused schema field.name) ∧
    (literal.text = ['-', '0'] → literal.IsRefused schema field.name) := by
  have hrefused := isRefused_of_not_denotes literal hfield hkind hindexed
  refine ⟨?_, ?_, ?_, ?_⟩
  · intro n hinteger hn htext
    have hdenotes : literal.Denotes n.toInt :=
      Json.NumberLiteral.denotes_iff.mpr ⟨hinteger, htext, hn, Json.isWord_toInt n⟩
    exact hdenotes.carries hfield hkind hindexed hfast
  · intro _ hrange
    apply hrefused
    intro n hdenotes
    obtain ⟨-, -, rfl, -⟩ := Json.NumberLiteral.denotes_iff.mp hdenotes
    exact hrange
  · intro hinteger
    exact hrefused fun n hdenotes => absurd hdenotes.1 hinteger
  · intro htext
    exact hrefused fun n hdenotes =>
      absurd htext (Json.NumberLiteral.denotes_iff.mp hdenotes).2.1

end

/-- The digits of a number, after a minus sign or not. -/
def Json.NumberLiteral.ofNat (isNegative : Bool) (n : Nat) : NumberLiteral where
  isNegative := isNegative
  whole := Decimal.digitChars n
  fraction := []
  exponent := none
  isWhole := isWhole_digitChars n
  isFraction := by simp

/-- The digits of the least integer of 64 bits are accepted after its sign, but not without it. -/
theorem leastYear_carried :
    (Json.NumberLiteral.ofNat true (2 ^ 63)).Carries librarySchema 1 "year" Int64.minValue ∧
    (Json.NumberLiteral.ofNat false (2 ^ 63)).IsRefused librarySchema "year" := by
  have hfield : librarySchema.field? 1 = some { name := "year", kind := .i64, fast := true } := rfl
  obtain ⟨hcarried, -⟩ := Schema.integers_carried_or_refused hfield rfl rfl rfl
    (.ofNat true (2 ^ 63))
  obtain ⟨-, hrefused, -⟩ := Schema.integers_carried_or_refused hfield rfl rfl rfl
    (.ofNat false (2 ^ 63))
  refine ⟨hcarried Int64.minValue ⟨rfl, rfl⟩ ?_ (by decide), hrefused ⟨rfl, rfl⟩ ?_⟩
  · simp only [Json.NumberLiteral.integer, Json.NumberLiteral.ofNat, Json.ofDigits_valuesOf]
    rfl
  · simp only [Json.NumberLiteral.integer, Json.NumberLiteral.ofNat, Json.ofDigits_valuesOf]
    decide

/-- A zero with a minus sign is all digits and denotes zero, but it is refused. -/
theorem minusZero_refused :
    (Json.NumberLiteral.ofNat true 0).IsInteger ∧ (Json.NumberLiteral.ofNat true 0).integer = 0 ∧
    literalDocument "year" (.ofNat true 0) = "\x7b\"year\":-0\x7d" ∧
    ¬(Json.NumberLiteral.ofNat true 0).Carries librarySchema 1 "year" 0 ∧
    (Json.NumberLiteral.ofNat true 0).IsRefused librarySchema "year" := by
  have hfield : librarySchema.field? 1 = some { name := "year", kind := .i64, fast := true } := rfl
  have hnone (n : Int) (hdenotes : (Json.NumberLiteral.ofNat true 0).Denotes n) : False :=
    (Json.NumberLiteral.denotes_iff.mp hdenotes).2.1 rfl
  have hrefused := isRefused_of_not_denotes (.ofNat true 0) hfield rfl rfl
    fun n hn => (hnone n hn).elim
  exact ⟨⟨rfl, rfl⟩, rfl, rfl,
    fun hcarries => hrefused.document false _ (hcarries.document false), hrefused⟩

end DocIndex
