import DocIndex.Proofs.Json.Outline
import DocIndex.Proofs.Json.Reading

/-!
Objects whose members are given by texts. A member may be spelled in other ways than it would be
written, or not be readable at all: the text of the object is read member by member, and if all of
them but the last can be read, the last one decides.
-/

namespace DocIndex.Json

/-- Wherever this text stands, it is read as the value. -/
structure Spells (text : List Char) (value : Json) : Prop where
  startsToken : ∀ tail, StartsToken (text ++ tail)
  yields : ∀ ⦃c : Cursor⦄ ⦃tail : List Char⦄ (fuel depth : Nat), EndsNumber tail →
    c.skipBlanks.rest = text ++ tail → Yields (readValue (fuel + 1) depth c) value tail

/-- Wherever this text stands, it is read as a value of which this holds, if at all. -/
structure SpellsOnly (text : List Char) (holds : Json → Prop) : Prop where
  startsToken : ∀ tail, StartsToken (text ++ tail)
  reads : ∀ ⦃c : Cursor⦄ ⦃tail : List Char⦄ (fuel depth : Nat), EndsNumber tail →
    c.skipBlanks.rest = text ++ tail →
    (∃ value, holds value ∧ Yields (readValue (fuel + 1) depth c) value tail) ∨
      ∃ fault, readValue (fuel + 1) depth c = .error fault

theorem Spells.only {text : List Char} {value : Json} (hspells : Spells text value)
    {holds : Json → Prop} (hvalue : holds value) : SpellsOnly text holds where
  startsToken := hspells.startsToken
  reads _ _ fuel depth htail hrest := .inl ⟨value, hvalue, hspells.yields fuel depth htail hrest⟩

theorem SpellsOnly.mono {text : List Char} {holds others : Json → Prop}
    (honly : SpellsOnly text holds) (himp : ∀ value, holds value → others value) :
    SpellsOnly text others where
  startsToken := honly.startsToken
  reads _ _ fuel depth htail hrest :=
    (honly.reads fuel depth htail hrest).imp_left fun ⟨value, hvalue, hread⟩ =>
      ⟨value, himp value hvalue, hread⟩

theorem spells_quotedText (s : String) : Spells (quotedText s) (.string s) where
  startsToken _ := startsToken_cons rfl _
  yields _ _ _ _ _ hrest := yields_readValue_string s hrest

def keyedText (member : String × List Char) : List Char :=
  quotedText member.1 ++ ':' :: member.2

/-- The texts of members up to the closing brace. -/
def writeTexts : Bool → List (String × List Char) → List Char
  | _, [] => ['}']
  | first, member :: rest =>
      (if first then [] else [',']) ++ keyedText member ++ writeTexts false rest

/-- The text of an object whose members have these keys and texts. -/
def objectText (members : List (String × List Char)) : String :=
  String.ofList ('{' :: ([','].intercalate (members.map keyedText) ++ ['}']))

theorem toList_objectText (members : List (String × List Char)) :
    (objectText members).toList = '{' :: writeTexts true members := by
  rw [objectText, String.toList_ofList]
  exact congrArg _ (eq_intercalate (fun _ => rfl) (fun _ _ _ => rfl) members).symm

theorem endsNumber_writeTexts (members : List (String × List Char)) (tail : List Char) :
    EndsNumber (writeTexts false members ++ tail) := by
  cases members with
  | nil => exact endsNumber_cons rfl (by decide) rfl _
  | cons member rest => exact endsNumber_cons rfl (by decide) rfl _

theorem length_le_writeTexts (first : Bool) (members : List (String × List Char)) :
    members.length < (writeTexts first members).length := by
  induction members generalizing first with
  | nil => exact Nat.one_pos
  | cons member rest ih =>
      have hrest := ih false
      simp only [writeTexts, keyedText, List.length_append, List.length_cons]
      omega

/-- These texts are read as these members, one for one. -/
def SpellsMembers : List (String × List Char) → List (String × Json) → Prop :=
  List.Forall₂ fun text member => text.1 = member.1 ∧ Spells text.2 member.2

theorem spellsMembers_nil : SpellsMembers [] [] :=
  .nil

theorem SpellsMembers.cons {text : List Char} {value : Json} {texts : List (String × List Char)}
    {members : List (String × Json)} (hvalue : Spells text value)
    (hrest : SpellsMembers texts members) (key : String) :
    SpellsMembers ((key, text) :: texts) ((key, value) :: members) :=
  List.Forall₂.cons ⟨rfl, hvalue⟩ hrest

section

variable {c : Cursor} {tail : List Char} {read : List (String × Json)} (fuel depth : Nat)

/-- A member is read as far as its value. -/
theorem readMembers_of_keyedText {key : String} {text : List Char}
    (htoken : ∀ tail, StartsToken (text ++ tail))
    (hrest : c.rest = (if read.isEmpty then [] else [',']) ++ keyedText (key, text) ++ tail) :
    ∃ place, place.skipBlanks.rest = text ++ tail ∧
      readMembers (fuel + 1) depth read c = readValue fuel depth place >>= fun (value, after) =>
        readMembers fuel depth ((key, value) :: read) after := by
  have hquote : c.rest = (if read.isEmpty then [] else [',']) ++ [] ++ '"' ::
      (key.toList.flatMap escapeChar ++ '"' :: ':' :: (text ++ tail)) := by
    simp [hrest, keyedText, quotedText]
  obtain ⟨place, hnext, hplace⟩ := Cursor.nextKey_of_key (by simp) read.isEmpty hquote
  obtain ⟨colon, hkey, hcolon⟩ := yields_readString key hplace
  obtain ⟨start, hstart, hvalue⟩ := Cursor.reaches_expectColon hcolon
  refine ⟨start, Cursor.rest_skipBlanks_of_startsToken (htoken tail) hvalue, ?_⟩
  simp only [readMembers, hnext, hkey, hstart]
  cases readValue fuel depth start <;> rfl

/-- Members that can be read leave the others to be read. -/
theorem readMembers_of_spelled {texts : List (String × List Char)}
    {members : List (String × Json)} (hspelled : SpellsMembers texts members)
    (others : List (String × List Char))
    (hrest : c.rest = writeTexts read.isEmpty (texts ++ others) ++ tail) :
    ∃ place, readMembers (fuel + 1 + texts.length) depth read c =
        readMembers (fuel + 1) depth (members.reverse ++ read) place ∧
      place.rest = writeTexts (members.reverse ++ read).isEmpty others ++ tail := by
  induction hspelled generalizing read c with
  | nil => exact ⟨c, rfl, hrest⟩
  | @cons text member texts members hmember _ ih =>
      obtain ⟨key, text⟩ := text
      obtain ⟨_, value⟩ := member
      obtain ⟨rfl, hspells⟩ := hmember
      rw [List.cons_append, writeTexts, List.append_assoc] at hrest
      obtain ⟨start, hstart, hread⟩ :=
        readMembers_of_keyedText (fuel + 1 + texts.length) depth hspells.startsToken hrest
      obtain ⟨after, hvalue, hafter⟩ :=
        hspells.yields (fuel + texts.length) depth (endsNumber_writeTexts _ tail) hstart
      obtain ⟨place, hplace, hothers⟩ := @ih after ((key, value) :: read) hafter
      have hreverse : ((key, value) :: members).reverse ++ read =
          members.reverse ++ (key, value) :: read := by
        rw [List.reverse_cons, List.append_assoc, List.singleton_append]
      rw [hreverse]
      refine ⟨place, ?_, hothers⟩
      rw [Nat.add_right_comm] at hvalue
      rw [List.length_cons, ← Nat.add_assoc, hread, hvalue]
      exact hplace

theorem yields_readMembers_of_closing (hrest : c.rest = '}' :: tail) :
    Yields (readMembers (fuel + 1) depth read c) (.object read.reverse) tail := by
  have hnone : ∀ ch ∈ ([] : List Char), Cursor.isBlank ch = true := by simp
  obtain ⟨hclosed, hafter⟩ := Cursor.nextKey_of_closing hnone read.isEmpty hrest
  exact ⟨_, by simp only [readMembers, hclosed], hafter⟩

/-- If all members can be read, so can the object. -/
theorem yields_readMembers_of_spelled {texts : List (String × List Char)}
    {members : List (String × Json)} (hspelled : SpellsMembers texts members)
    (hfuel : texts.length < fuel) (hrest : c.rest = writeTexts true texts ++ tail) :
    Yields (readMembers fuel depth [] c) (.object members) tail := by
  obtain ⟨fuel, rfl⟩ := Nat.exists_eq_add_of_lt hfuel
  rw [← List.append_nil texts] at hrest
  obtain ⟨place, hread, hplace⟩ :=
    @readMembers_of_spelled c tail [] fuel depth texts members hspelled [] hrest
  have hclosed : Yields (readMembers (fuel + 1) depth (members.reverse ++ []) place) _ tail :=
    yields_readMembers_of_closing fuel depth hplace
  have hsum : texts.length + fuel + 1 = fuel + 1 + texts.length := by omega
  rw [hsum, hread]
  simpa using hclosed

/-- If all members but the last can be read, the last one decides. -/
theorem readMembers_of_last {texts : List (String × List Char)} {members : List (String × Json)}
    (hspelled : SpellsMembers texts members) (key : String) {text : List Char}
    {holds : Json → Prop} (honly : SpellsOnly text holds) (hfuel : texts.length + 1 < fuel)
    (hrest : c.rest = writeTexts true (texts ++ [(key, text)]) ++ tail) :
    (∃ value, holds value ∧
      Yields (readMembers fuel depth [] c) (.object (members ++ [(key, value)])) tail) ∨
      ∃ fault, readMembers fuel depth [] c = .error fault := by
  obtain ⟨fuel, rfl⟩ := Nat.exists_eq_add_of_lt hfuel
  obtain ⟨place, hread, hplace⟩ :=
    @readMembers_of_spelled c tail [] (fuel + 1) depth texts members hspelled _ hrest
  rw [writeTexts, List.append_assoc] at hplace
  obtain ⟨start, hstart, hmember⟩ :=
    readMembers_of_keyedText (fuel + 1) depth honly.startsToken hplace
  have hsum : texts.length + 1 + fuel + 1 = fuel + 1 + 1 + texts.length := by omega
  rw [hsum, hread, hmember]
  rcases honly.reads fuel depth (endsNumber_writeTexts _ tail) hstart with
    ⟨value, hvalue, after, hyields, hafter⟩ | ⟨fault, hfault⟩
  · refine .inl ⟨value, hvalue, ?_⟩
    have hclosed : Yields (readMembers (fuel + 1) depth
        ((key, value) :: (members.reverse ++ [])) after) _ tail :=
      yields_readMembers_of_closing fuel depth hafter
    rw [List.append_nil, List.reverse_cons, List.reverse_reverse] at hclosed
    rw [List.append_nil, hyields]
    exact hclosed
  · exact .inr ⟨fault, by rw [hfault]; rfl⟩

end

/-! Whole texts -/

theorem readFrom_objectText (members : List (String × List Char)) :
    ∃ fuel place, members.length + 1 < fuel ∧ place.rest = writeTexts true members ++ [] ∧
      readFrom (Cursor.ofString (objectText members)) =
        readMembers fuel (maxDepth - 1) [] place := by
  have hstart : (Cursor.ofString (objectText members)).rest = '{' :: writeTexts true members := by
    rw [Cursor.rest_ofString, toList_objectText]
  have hskipped := Cursor.rest_skipBlanks_of_startsToken (startsToken_cons rfl _) hstart
  have hlength := length_le_writeTexts true members
  refine ⟨(Cursor.ofString (objectText members)).fuel - 1, _, ?_,
    (Cursor.rest_next_of_cons hskipped).trans (List.append_nil _).symm, ?_⟩
  · rw [Cursor.fuel, hstart, List.length_cons]
    omega
  · rw [readFrom, Cursor.fuel, hstart, List.length_cons]
    simp only [readValue, hskipped]
    rfl

/-- The text of an object is read as its members are read. -/
theorem read_objectText {texts : List (String × List Char)} {members : List (String × Json)}
    (hspelled : SpellsMembers texts members) : read (objectText texts) = .ok (.object members) := by
  obtain ⟨fuel, place, hfuel, hplace, hread⟩ := readFrom_objectText texts
  obtain ⟨after, hobject, hafter⟩ := yields_readMembers_of_spelled fuel (maxDepth - 1) hspelled
    (Nat.lt_of_succ_lt hfuel) hplace
  simp only [read, hread, hobject, bind, Except.bind, Cursor.expectEnd_of_nil hafter]

theorem read_objectText_of_last {texts : List (String × List Char)}
    {members : List (String × Json)} (hspelled : SpellsMembers texts members) (key : String)
    {text : List Char} {holds : Json → Prop} (honly : SpellsOnly text holds) :
    (∃ value, holds value ∧
      read (objectText (texts ++ [(key, text)])) = .ok (.object (members ++ [(key, value)]))) ∨
      ∃ fault, read (objectText (texts ++ [(key, text)])) = .error fault := by
  obtain ⟨fuel, place, hfuel, hplace, hread⟩ := readFrom_objectText (texts ++ [(key, text)])
  rw [List.length_append] at hfuel
  rcases readMembers_of_last fuel (maxDepth - 1) hspelled key honly (Nat.lt_of_succ_lt hfuel)
    hplace with ⟨value, hvalue, after, hobject, hafter⟩ | ⟨fault, hfault⟩
  · refine .inl ⟨value, hvalue, ?_⟩
    simp only [read, hread, hobject, bind, Except.bind, Cursor.expectEnd_of_nil hafter]
  · exact .inr ⟨fault, by simp only [read, hread, hfault, bind, Except.bind]⟩

end DocIndex.Json
