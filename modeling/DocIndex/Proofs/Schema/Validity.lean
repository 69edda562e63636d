import DocIndex.Schema.Compiled
import Mathlib.Data.List.Nodup
import Mathlib.Data.Prod.Lex

/-!
Which definitions are schemas, and why the others are not. A definition can have flaws at any of its
fields and at any of the search fields that it names. A definition without flaws becomes a schema;
otherwise the error is that of the first flaw, where all fields come before the search fields, and
at one field its name before its tokenizer.
-/

namespace DocIndex

/-- A way in which a definition can be wrong, at a position among its fields or search fields. -/
inductive Flaw where
  | emptyName (position : Nat)
  | reservedName (position : Nat)
  | duplicateName (position : Nat)
  | tokenizerOnNonText (position : Nat)
  | unknownSearchField (position : Nat)
  | unsearchable (position : Nat)

/-- The place of a check: among the fields or after them, at a position, and in turn there. -/
def placeOf (part position turn : Nat) : Nat ×ₗ Nat ×ₗ Nat :=
  toLex (part, toLex (position, turn))

def Flaw.place : Flaw → Nat ×ₗ Nat ×ₗ Nat
  | .emptyName position => placeOf 0 position 0
  | .reservedName position => placeOf 0 position 1
  | .duplicateName position => placeOf 0 position 2
  | .tokenizerOnNonText position => placeOf 0 position 3
  | .unknownSearchField position => placeOf 1 position 0
  | .unsearchable position => placeOf 1 position 1

/-- A name that begins with a character that no name of a field may begin with. -/
def BeginsReserved (name : String) : Prop :=
  ['_'] <+: name.toList ∨ ['-'] <+: name.toList

namespace SchemaDef

/-- The definition has a flaw, which is reported by an error. -/
inductive HasFlaw (definition : SchemaDef) : Flaw → SchemaError → Prop where
  | emptyName {position : Nat} {field : FieldDef}
      (hfield : definition.fields[position]? = some field) (hempty : field.name = "") :
      HasFlaw definition (.emptyName position) (.emptyName position)
  | reservedName {position : Nat} {field : FieldDef}
      (hfield : definition.fields[position]? = some field) (hreserved : BeginsReserved field.name) :
      HasFlaw definition (.reservedName position) (.invalidName field.name)
  | duplicateName {earlier position : Nat} {another field : FieldDef}
      (hanother : definition.fields[earlier]? = some another) (hearlier : earlier < position)
      (hfield : definition.fields[position]? = some field) (hname : another.name = field.name) :
      HasFlaw definition (.duplicateName position) (.duplicateName field.name)
  | tokenizerOnNonText {position : Nat} {field : FieldDef}
      (hfield : definition.fields[position]? = some field) (hgiven : field.tokenizer.isSome = true)
      (hkind : field.kind ≠ .text) :
      HasFlaw definition (.tokenizerOnNonText position) (.tokenizerOnNonText field.name)
  | unknownSearchField {position : Nat} {name : String}
      (hname : definition.searchFields[position]? = some name)
      (hnone : ∀ field ∈ definition.fields, field.name ≠ name) :
      HasFlaw definition (.unknownSearchField position) (.unknownSearchField name)
  | unsearchable {position : Nat} {name : String} {field : FieldDef}
      (hname : definition.searchFields[position]? = some name) (hfield : field ∈ definition.fields)
      (hsame : field.name = name) (hunfit : ¬(field.kind = .text ∧ field.indexed = true)) :
      HasFlaw definition (.unsearchable position) (.invalidSearchField name)

/-- What a definition has to be to become a schema. -/
structure IsValid (definition : SchemaDef) : Prop where
  named : ∀ field ∈ definition.fields, field.name ≠ ""
  unreserved : ∀ field ∈ definition.fields, ¬BeginsReserved field.name
  distinct : (definition.fields.map (·.name)).Nodup
  tokenizers : ∀ field ∈ definition.fields, field.tokenizer.isSome = true → field.kind = .text
  searchable : ∀ name ∈ definition.searchFields,
    ∃ field ∈ definition.fields, field.name = name ∧ field.kind = .text ∧ field.indexed = true

/-- No flaw stands before a place. -/
def ClearTo (definition : SchemaDef) (place : Nat ×ₗ Nat ×ₗ Nat) : Prop :=
  ∀ flaw fault, definition.HasFlaw flaw fault → place ≤ flaw.place

/-- A check finds the first flaw, or comes to a place without having met one. -/
def Reaches (definition : SchemaDef) (place : Nat ×ₗ Nat ×ₗ Nat) : Except SchemaError Unit → Prop
  | .ok () => definition.ClearTo place
  | .error fault => ∃ flaw, definition.HasFlaw flaw fault ∧ definition.ClearTo flaw.place

variable {definition : SchemaDef}

theorem placeOf_le_placeOf {part position turn part' position' turn' : Nat} :
    placeOf part position turn ≤ placeOf part' position' turn' ↔
      part < part' ∨
        part = part' ∧ (position < position' ∨ position = position' ∧ turn ≤ turn') := by
  simp only [placeOf, Prod.Lex.toLex_le_toLex]

theorem place_injective : Function.Injective Flaw.place := by
  intro flaw other hplace
  cases flaw <;> cases other <;> simp_all [Flaw.place, placeOf]

/-- A flaw is reported by one error only. -/
theorem HasFlaw.unique {flaw : Flaw} {fault another : SchemaError}
    (hfault : definition.HasFlaw flaw fault) (hanother : definition.HasFlaw flaw another) :
    fault = another := by
  cases hfault <;> cases hanother <;> simp_all

/-- A definition is checked in four turns at each field and in two at each search field. -/
def HasTurn (definition : SchemaDef) (part position turn : Nat) : Prop :=
  part = 0 ∧ position < definition.fields.length ∧ turn < 4 ∨
    part = 1 ∧ position < definition.searchFields.length ∧ turn < 2

theorem HasFlaw.exists_turn {flaw : Flaw} {fault : SchemaError}
    (hflaw : definition.HasFlaw flaw fault) : ∃ part position turn,
    flaw.place = placeOf part position turn ∧ definition.HasTurn part position turn := by
  have hlength {α : Type} {items : List α} {position : Nat} {item : α}
      (hitem : items[position]? = some item) : position < items.length :=
    (List.getElem?_eq_some_iff.mp hitem).1
  cases hflaw with
  | emptyName hfield | reservedName hfield | duplicateName _ _ hfield | tokenizerOnNonText hfield =>
      exact ⟨0, _, _, rfl, .inl ⟨rfl, hlength hfield, by decide⟩⟩
  | unknownSearchField hname | unsearchable hname =>
      exact ⟨1, _, _, rfl, .inr ⟨rfl, hlength hname, by decide⟩⟩

/-- The next place is reached when nothing is found at one. -/
theorem ClearTo.next {part position turn : Nat}
    (hclear : definition.ClearTo (placeOf part position turn))
    (hnone : ∀ flaw fault, definition.HasFlaw flaw fault →
      flaw.place ≠ placeOf part position turn) :
    definition.ClearTo (placeOf part position (turn + 1)) := by
  intro flaw fault hflaw
  have hle := hclear flaw fault hflaw
  have hne := hnone flaw fault hflaw
  obtain ⟨part', position', turn', hplace, -⟩ := hflaw.exists_turn
  rw [hplace] at hle hne ⊢
  rw [placeOf_le_placeOf] at hle ⊢
  by_contra hnot
  obtain ⟨rfl, rfl, rfl⟩ : part = part' ∧ position = position' ∧ turn = turn' := by omega
  exact hne rfl

/-- Places at which there is no turn are passed over. -/
theorem ClearTo.skip {part position turn part' position' turn' : Nat}
    (hclear : definition.ClearTo (placeOf part position turn))
    (hskip : ∀ p q t, definition.HasTurn p q t →
      part < p ∨ part = p ∧ (position < q ∨ position = q ∧ turn ≤ t) →
      part' < p ∨ part' = p ∧ (position' < q ∨ position' = q ∧ turn' ≤ t)) :
    definition.ClearTo (placeOf part' position' turn') := by
  intro flaw fault hflaw
  have hle := hclear flaw fault hflaw
  obtain ⟨p, q, t, hplace, hturn⟩ := hflaw.exists_turn
  rw [hplace, placeOf_le_placeOf] at hle ⊢
  exact hskip p q t hturn hle

/-- One check, at the place of a flaw, which is had if the check fails. -/
theorem reaches_check (flaw : Flaw) {fault : SchemaError} {part position turn : Nat}
    (hplace : flaw.place = placeOf part position turn) {broken : Prop} [Decidable broken]
    {place : Nat ×ₗ Nat ×ₗ Nat} {result : Except SchemaError Unit}
    (hclear : definition.ClearTo (placeOf part position turn))
    (hflaw : broken → definition.HasFlaw flaw fault)
    (honly : ∀ another, definition.HasFlaw flaw another → broken)
    (hresult : definition.ClearTo (placeOf part position (turn + 1)) →
      definition.Reaches place result) :
    definition.Reaches place (if broken then .error fault else result) := by
  split
  · rename_i hbroken
    exact ⟨flaw, hflaw hbroken, hplace ▸ hclear⟩
  · rename_i hbroken
    refine hresult (hclear.next fun other another hother hsame => hbroken ?_)
    rw [← hplace] at hsame
    exact honly another (place_injective hsame ▸ hother)

end SchemaDef

theorem FieldDef.isSearchable_iff {field : FieldDef} :
    field.isSearchable = true ↔ field.kind = .text ∧ field.indexed = true := by
  simp [isSearchable]

theorem isReservedName_iff {name : String} : isReservedName name = true ↔ BeginsReserved name := by
  rw [isReservedName, BeginsReserved]
  cases name.toList with
  | nil => simp
  | cons ch rest =>
      simp only [List.cons_prefix_cons, List.nil_prefix, and_true]
      split <;> simp_all [eq_comm]

namespace SchemaDef

variable {definition : SchemaDef}

/-- The checks of a field that comes after some others. -/
theorem reaches_field {before after : List FieldDef} {field : FieldDef}
    (hfields : definition.fields = before ++ field :: after)
    (hclear : definition.ClearTo (placeOf 0 before.length 0)) :
    definition.Reaches (placeOf 0 (before.length + 1) 0)
      (field.check before.length (before.map (·.name)).reverse) := by
  have hfield : definition.fields[before.length]? = some field := by simp [hfields]
  have hsame {other : FieldDef} (hother : definition.fields[before.length]? = some other) :
      other = field := Option.some.inj (hother.symm.trans hfield)
  rw [FieldDef.check]
  refine reaches_check (.emptyName _) rfl hclear (.emptyName hfield) ?_ fun hclear => ?_
  · rintro _ ⟨hother, hempty⟩
    exact hsame hother ▸ hempty
  refine reaches_check (.reservedName _) rfl hclear
    (fun h => .reservedName hfield (isReservedName_iff.mp h)) ?_ fun hclear => ?_
  · intro _ hflaw
    cases hflaw with
    | reservedName hother hreserved => exact isReservedName_iff.mpr (hsame hother ▸ hreserved)
  refine reaches_check (.duplicateName _) rfl hclear (fun hearlier => ?_) ?_ fun hclear => ?_
  · rw [List.mem_reverse, List.mem_map] at hearlier
    obtain ⟨another, hanother, hname⟩ := hearlier
    obtain ⟨earlier, hearlier, rfl⟩ := List.mem_iff_getElem.mp hanother
    have hanother : definition.fields[earlier]? = some before[earlier] := by
      rw [hfields, List.getElem?_append_left hearlier, List.getElem?_eq_getElem hearlier]
    exact .duplicateName hanother hearlier hfield hname
  · intro _ hflaw
    cases hflaw with
    | duplicateName hanother hearlier hother hname =>
        rw [hfields, List.getElem?_append_left hearlier] at hanother
        rw [List.mem_reverse, List.mem_map]
        exact ⟨_, List.mem_of_getElem? hanother, hsame hother ▸ hname⟩
  refine reaches_check (.tokenizerOnNonText _) rfl hclear
    (fun h => .tokenizerOnNonText hfield h.1 h.2) ?_ fun hclear => ?_
  · intro _ hflaw
    cases hflaw with
    | tokenizerOnNonText hother hgiven hkind => exact hsame hother ▸ ⟨hgiven, hkind⟩
  refine hclear.skip fun part position turn hturn hle => ?_
  simp only [HasTurn] at hturn
  omega

/-- The checks of the fields that come after some others. -/
theorem reaches_fields {before rest : List FieldDef} (hfields : definition.fields = before ++ rest)
    (hclear : definition.ClearTo (placeOf 0 before.length 0)) :
    definition.Reaches (placeOf 1 0 0)
      (checkFields before.length (before.map (·.name)).reverse rest) := by
  induction rest generalizing before with
  | nil =>
      refine hclear.skip fun part position turn hturn hle => ?_
      rw [List.append_nil] at hfields
      simp only [HasTurn, hfields] at hturn
      omega
  | cons field after ih =>
      have hfield := reaches_field hfields hclear
      rw [checkFields]
      split
      · rename_i fault hfault
        rwa [hfault] at hfield
      · rename_i hok
        rw [hok] at hfield
        have hlength : (before ++ [field]).length = before.length + 1 := List.length_append
        have hnext : definition.ClearTo (placeOf 0 (before ++ [field]).length 0) := hlength ▸ hfield
        have hrest := ih (by simp [hfields]) hnext
        simpa using hrest

/-- Before the search fields are looked at it is known that the names of the fields are distinct. -/
theorem ClearTo.nodup_names {part position turn : Nat}
    (hclear : definition.ClearTo (placeOf part position turn)) (hpart : 1 ≤ part) :
    (definition.fields.map (·.name)).Nodup := by
  rw [List.nodup_iff_getElem?_ne_getElem?]
  intro earlier position hearlier hposition hname
  rw [List.length_map] at hposition
  rw [List.getElem?_map, List.getElem?_map, List.getElem?_eq_getElem (hearlier.trans hposition),
    List.getElem?_eq_getElem hposition] at hname
  have hle := hclear _ _ (.duplicateName (List.getElem?_eq_getElem (hearlier.trans hposition))
    hearlier (List.getElem?_eq_getElem hposition) (Option.some.inj hname))
  rw [Flaw.place, placeOf_le_placeOf] at hle
  omega

/-- The checks of the search fields that come after some others. -/
theorem reaches_searchFields {before rest : List String}
    (hnames : definition.searchFields = before ++ rest)
    (hclear : definition.ClearTo (placeOf 1 before.length 0)) :
    definition.Reaches (placeOf 2 0 0) (checkSearchFields definition.fields rest) := by
  induction rest generalizing before with
  | nil =>
      refine hclear.skip fun part position turn hturn hle => ?_
      rw [List.append_nil] at hnames
      simp only [HasTurn, hnames] at hturn
      omega
  | cons name after ih =>
      have hname : definition.searchFields[before.length]? = some name := by simp [hnames]
      have hsame {other : String} (hother : definition.searchFields[before.length]? = some other) :
          other = name := Option.some.inj (hother.symm.trans hname)
      rw [checkSearchFields]
      split
      · rename_i hfound
        refine ⟨_, .unknownSearchField hname fun field hfield => ?_, hclear⟩
        simpa using List.find?_eq_none.mp hfound field hfield
      · rename_i field hfound
        have hfield : field ∈ definition.fields := List.mem_of_find?_eq_some hfound
        have hfieldName : field.name = name := by simpa using List.find?_some hfound
        have hknown : definition.ClearTo (placeOf 1 before.length 1) := by
          refine hclear.next fun flaw fault hflaw hplace => ?_
          obtain rfl : flaw = .unknownSearchField before.length := place_injective hplace
          cases hflaw with
          | unknownSearchField hother hnone => exact hnone field hfield (hsame hother ▸ hfieldName)
        rw [← ite_not]
        refine reaches_check (.unsearchable _) rfl hknown (fun hunfit => ?_) ?_ fun hclear => ?_
        · exact .unsearchable hname hfield hfieldName
            fun hfit => hunfit (FieldDef.isSearchable_iff.mpr hfit)
        · intro _ hflaw
          cases hflaw with
          | @unsearchable _ _ other hother hmem hotherName hunfit =>
              have hdistinct := hknown.nodup_names (le_refl 1)
              obtain rfl : other = field := List.inj_on_of_nodup_map hdistinct hmem hfield
                (by rw [hotherName, hfieldName, hsame hother])
              exact fun hfit => hunfit (FieldDef.isSearchable_iff.mp hfit)
        · have hlength : (before ++ [name]).length = before.length + 1 := List.length_append
          have hnext : definition.ClearTo (placeOf 1 (before ++ [name]).length 0) := by
            rw [hlength]
            refine hclear.skip fun part position turn hturn hle => ?_
            simp only [HasTurn] at hturn
            omega
          exact ih (by simp [hnames]) hnext

/-- The checks of a definition find its first flaw, if there is one. -/
theorem reaches_end (definition : SchemaDef) :
    definition.Reaches (placeOf 2 0 0) definition.check := by
  have hfields : definition.Reaches (placeOf 1 0 0) (checkFields 0 [] definition.fields) :=
    @reaches_fields definition [] _ rfl fun flaw fault hflaw => by
      obtain ⟨part, position, turn, hplace, -⟩ := hflaw.exists_turn
      rw [hplace, placeOf_le_placeOf, List.length_nil]
      omega
  rw [check]
  split
  · rename_i fault hfault
    rwa [hfault] at hfields
  · rename_i hok
    rw [hok] at hfields
    exact @reaches_searchFields definition [] _ rfl hfields

theorem clearTo_end_iff :
    definition.ClearTo (placeOf 2 0 0) ↔ ∀ flaw fault, ¬definition.HasFlaw flaw fault := by
  constructor
  · intro hclear flaw fault hflaw
    have hle := hclear flaw fault hflaw
    obtain ⟨part, position, turn, hplace, hturn⟩ := hflaw.exists_turn
    rw [hplace, placeOf_le_placeOf] at hle
    simp only [HasTurn] at hturn
    omega
  · intro hnone flaw fault hflaw
    exact absurd hflaw (hnone flaw fault)

/-- A definition is what it has to be if it has no flaw. -/
theorem isValid_iff : definition.IsValid ↔ ∀ flaw fault, ¬definition.HasFlaw flaw fault := by
  constructor
  · intro hvalid flaw fault hflaw
    cases hflaw with
    | emptyName hfield hempty => exact hvalid.named _ (List.mem_of_getElem? hfield) hempty
    | reservedName hfield hreserved =>
        exact hvalid.unreserved _ (List.mem_of_getElem? hfield) hreserved
    | @duplicateName earlier position _ _ hanother hearlier hfield hname =>
        have hne := List.nodup_iff_getElem?_ne_getElem?.mp hvalid.distinct earlier position hearlier
          (by simpa using (List.getElem?_eq_some_iff.mp hfield).1)
        rw [List.getElem?_map, List.getElem?_map, hanother, hfield] at hne
        exact hne (congrArg some hname)
    | tokenizerOnNonText hfield hgiven hkind =>
        exact hkind (hvalid.tokenizers _ (List.mem_of_getElem? hfield) hgiven)
    | unknownSearchField hname hnone =>
        obtain ⟨field, hfield, hsame, -⟩ := hvalid.searchable _ (List.mem_of_getElem? hname)
        exact hnone field hfield hsame
    | @unsearchable _ _ field hname hfield hsame hunfit =>
        obtain ⟨other, hother, hotherName, hfit⟩ :=
          hvalid.searchable _ (List.mem_of_getElem? hname)
        obtain rfl : other = field :=
          List.inj_on_of_nodup_map hvalid.distinct hother hfield (hotherName.trans hsame.symm)
        exact hunfit hfit
  · intro hnone
    have hposition {field : FieldDef} (hfield : field ∈ definition.fields) :
        ∃ position, definition.fields[position]? = some field := List.mem_iff_getElem?.mp hfield
    constructor
    · intro field hfield hempty
      obtain ⟨position, hat⟩ := hposition hfield
      exact hnone _ _ (.emptyName hat hempty)
    · intro field hfield hreserved
      obtain ⟨position, hat⟩ := hposition hfield
      exact hnone _ _ (.reservedName hat hreserved)
    · exact (clearTo_end_iff.mpr hnone).nodup_names (by decide)
    · intro field hfield hgiven
      by_contra hkind
      obtain ⟨position, hat⟩ := hposition hfield
      exact hnone _ _ (.tokenizerOnNonText hat hgiven hkind)
    · intro name hname
      obtain ⟨position, hat⟩ := List.mem_iff_getElem?.mp hname
      by_contra hsearchable
      refine hnone _ _ (.unknownSearchField hat fun field hfield hsame => ?_)
      exact hnone _ _ (.unsearchable hat hfield hsame fun hfit =>
        hsearchable ⟨field, hfield, hsame, hfit⟩)

theorem isValid_of_check (hcheck : definition.check = .ok ()) : definition.IsValid := by
  have hclear := definition.reaches_end
  rw [hcheck] at hclear
  exact isValid_iff.mpr (clearTo_end_iff.mp hclear)

theorem IsValid.check_eq_ok (hvalid : definition.IsValid) : definition.check = .ok () := by
  have hreaches := definition.reaches_end
  cases hcheck : definition.check with
  | ok => rfl
  | error fault =>
      rw [hcheck] at hreaches
      obtain ⟨flaw, hflaw, -⟩ := hreaches
      exact absurd hflaw (isValid_iff.mp hvalid flaw fault)

theorem IsValid.exists_schema (hvalid : definition.IsValid) :
    ∃ schema, definition.compile = .ok schema ∧ schema.definition = definition :=
  ⟨_, compile_of_check hvalid.check_eq_ok, rfl⟩

/--
A definition becomes a schema, and its fields go into the index, exactly if it is what it has to be.
Otherwise the error is that of its first flaw.
-/
theorem compile_iff_isValid (definition : SchemaDef) :
    ((∃ schema, definition.compile = .ok schema ∧ schema.definition = definition ∧
        definition.tables? = some schema.tables) ↔ definition.IsValid) ∧
      ∀ fault, definition.compile = .error fault ↔
        ∃ flaw, definition.HasFlaw flaw fault ∧
          ∀ other another, definition.HasFlaw other another → flaw.place ≤ other.place := by
  have hreaches := definition.reaches_end
  rw [isValid_iff, ← clearTo_end_iff]
  cases hcheck : definition.check with
  | ok =>
      rw [hcheck] at hreaches
      have hnone := clearTo_end_iff.mp hreaches
      rw [compile_of_check hcheck]
      refine ⟨iff_of_true ⟨_, rfl, rfl, ?_⟩ hreaches, fun fault => ?_⟩
      · exact (Option.some_get _).symm
      · refine iff_of_false (by simp) ?_
        rintro ⟨flaw, hflaw, -⟩
        exact hnone flaw fault hflaw
  | error first =>
      rw [hcheck] at hreaches
      obtain ⟨flaw, hflaw, hfirst⟩ := hreaches
      rw [compile_of_check_error hcheck]
      refine ⟨iff_of_false (by simp) fun hclear => ?_, fun fault => ?_⟩
      · exact clearTo_end_iff.mp hclear flaw first hflaw
      · rw [Except.error.injEq]
        constructor
        · rintro rfl
          exact ⟨flaw, hflaw, hfirst⟩
        · rintro ⟨other, hother, hleast⟩
          obtain rfl : flaw = other := place_injective
            (le_antisymm (hfirst other fault hother) (hleast flaw first hflaw))
          exact hflaw.unique hother

-- The tokenizer comes before the reserved name of a later field and before all search fields.
example : SchemaDef.compile {
      fields := [{ name := "title", kind := .text },
        { name := "year", kind := .i64, tokenizer := some .raw }, { name := "_id", kind := .text }]
      searchFields := ["year", "author"] } =
    .error (.tokenizerOnNonText "year") := by rfl

end SchemaDef

end DocIndex
