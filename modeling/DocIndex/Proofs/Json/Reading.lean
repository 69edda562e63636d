import DocIndex.Proofs.Json.Parts

/-!
Written values read back. What the reader makes of a text does not depend on the blanks between its
tokens, so one argument covers both ways of writing: by induction on the value, reading its text up
to any text that follows gives the value and leaves what follows. A float need not come back from
its digits, so the argument goes over what each float is read as, and a value without floats comes
back as it is.
-/

namespace DocIndex.Json

/-- All blanks of a spacing may stand between tokens. -/
structure Spacing.IsBlank (spacing : Spacing) : Prop where
  line : ∀ level, ∀ ch ∈ spacing.line level, Cursor.isBlank ch = true
  colon : ∀ ch ∈ spacing.colon, Cursor.isBlank ch = true

theorem Spacing.isBlank_none : Spacing.none.IsBlank := by
  constructor
  · intro level ch hch
    contradiction
  · intro ch hch
    contradiction

theorem Spacing.isBlank_lines : Spacing.lines.IsBlank := by
  constructor
  · intro level ch hch
    rcases List.mem_cons.mp hch with rfl | hch
    · rfl
    · obtain rfl := List.eq_of_mem_replicate hch
      rfl
  · intro ch hch
    obtain rfl := List.mem_singleton.mp hch
    rfl

theorem Spacing.IsBlank.close {spacing : Spacing} (hspacing : spacing.IsBlank) (level : Nat)
    (first : Bool) : ∀ ch ∈ spacing.close level first, Cursor.isBlank ch = true := by
  cases first with
  | true =>
      intro ch hch
      contradiction
  | false => exact hspacing.line level

/-! What follows a value within a container -/

theorem endsNumber_cons {ch : Char} (hdigit : ch.isDigit = false) (hpoint : ch ≠ '.')
    (hmark : isExponentMark ch = false) (text : List Char) : EndsNumber (ch :: text) := by
  intro other hother
  obtain rfl := Option.some.inj hother
  exact ⟨hdigit, hpoint, hmark⟩

theorem endsNumber_nil : EndsNumber [] := by
  intro ch hch
  contradiction

theorem endsNumber_of_isBlank {blanks : List Char}
    (hblanks : ∀ ch ∈ blanks, Cursor.isBlank ch = true) {text : List Char}
    (htext : EndsNumber text) : EndsNumber (blanks ++ text) := by
  cases blanks with
  | nil => exact htext
  | cons ch rest =>
      have hblank : Cursor.isBlank ch = true := hblanks ch List.mem_cons_self
      simp only [Cursor.isBlank, Bool.or_eq_true, decide_eq_true_eq, or_assoc] at hblank
      rcases hblank with rfl | rfl | rfl | rfl <;>
        exact endsNumber_cons rfl (by decide) rfl _

variable {spacing : Spacing} (hspacing : spacing.IsBlank)

include hspacing in
theorem endsNumber_writeItems (level : Nat) (items : List Json) (tail : List Char) :
    EndsNumber (writeItems spacing level false items ++ tail) := by
  cases items with
  | nil =>
      rw [writeItems, List.append_assoc]
      exact endsNumber_of_isBlank (hspacing.close level false)
        (endsNumber_cons rfl (by decide) rfl tail)
  | cons item rest => exact endsNumber_cons rfl (by decide) rfl _

include hspacing in
theorem endsNumber_writeMembers (level : Nat) (members : List (String × Json)) (tail : List Char) :
    EndsNumber (writeMembers spacing level false members ++ tail) := by
  cases members with
  | nil =>
      rw [writeMembers, List.append_assoc]
      exact endsNumber_of_isBlank (hspacing.close level false)
        (endsNumber_cons rfl (by decide) rfl tail)
  | cons member rest => exact endsNumber_cons rfl (by decide) rfl _

theorem length_writeItems_pos (spacing : Spacing) (level : Nat) (first : Bool) (items : List Json) :
    0 < (writeItems spacing level first items).length := by
  cases items with
  | nil => simp [writeItems]
  | cons item rest =>
      have hrest := length_writeItems_pos spacing level false rest
      rw [writeItems, List.length_append]
      omega

theorem length_writeMember_pos (spacing : Spacing) (level : Nat) (member : String × Json) :
    0 < (writeMember spacing level member).length := by
  obtain ⟨key, value⟩ := member
  simp [writeMember, quotedText]

theorem length_writeMembers_pos (spacing : Spacing) (level : Nat) (first : Bool)
    (members : List (String × Json)) :
    0 < (writeMembers spacing level first members).length := by
  cases members with
  | nil => simp [writeMembers]
  | cons member rest =>
      have hrest := length_writeMembers_pos spacing level false rest
      rw [writeMembers, List.length_append]
      omega

/-! How a written value starts -/

theorem isBlank_of_isDigit {ch : Char} (hch : ch.isDigit = true) :
    Cursor.isBlank ch = false ∧ ch ≠ ']' := by
  constructor
  · by_contra hblank
    simp only [Cursor.isBlank, Bool.not_eq_false, Bool.or_eq_true, decide_eq_true_eq,
      or_assoc] at hblank
    rcases hblank with rfl | rfl | rfl | rfl <;> contradiction
  · rintro rfl
    contradiction

/-- A digit stands first. -/
def StartsDigit (text : List Char) : Prop :=
  ∃ ch more, text = ch :: more ∧ ch.isDigit = true

theorem startsDigit_of_ne_nil {digits : List Char} (hsome : digits ≠ [])
    (hdigits : ∀ ch ∈ digits, ch.isDigit = true) : StartsDigit digits := by
  obtain ⟨ch, more, rfl⟩ := List.exists_cons_of_ne_nil hsome
  exact ⟨ch, more, rfl, hdigits ch List.mem_cons_self⟩

theorem StartsDigit.append {text : List Char} (htext : StartsDigit text) (other : List Char) :
    StartsDigit (text ++ other) := by
  obtain ⟨ch, more, rfl, hdigit⟩ := htext
  exact ⟨ch, more ++ other, rfl, hdigit⟩

theorem startsDigit_digitChars (n : Nat) : StartsDigit (Decimal.digitChars n) :=
  startsDigit_of_ne_nil (digitChars_ne_nil n) isDigit_of_mem_digitChars

theorem startsDigit_positional {digits : List Char} (hdigits : StartsDigit digits) (pointAt : Int)
    (keepsPoint : Bool) : StartsDigit (Decimal.positional digits pointAt keepsPoint) := by
  unfold Decimal.positional
  split
  · exact ⟨_, _, rfl, rfl⟩
  · exact ⟨_, _, rfl, rfl⟩
  · rename_i n hn
    split
    · exact (hdigits.append _).append _
    · obtain ⟨ch, more, rfl, hdigit⟩ := hdigits
      obtain ⟨n, rfl⟩ := Nat.exists_eq_succ_of_ne_zero hn
      exact ⟨ch, _, rfl, hdigit⟩

theorem startsDigit_scientific {digits : List Char} (hdigits : StartsDigit digits)
    (exponent : Int) : StartsDigit (Decimal.scientific digits exponent) := by
  obtain ⟨ch, more, rfl, hdigit⟩ := hdigits
  cases more <;> exact ⟨ch, _, rfl, hdigit⟩

theorem startsDigit_render (layout : Decimal.Layout) (n : Decimal.Scaled) :
    StartsDigit (n.render layout) := by
  unfold Decimal.Scaled.render
  dsimp only
  split
  · exact startsDigit_positional ⟨_, _, rfl, rfl⟩ _ _
  · split
    · exact startsDigit_positional (startsDigit_digitChars _) _ _
    · exact startsDigit_scientific (startsDigit_digitChars _) _

/-- A finite float is written as a number after a sign, if it has one. -/
theorem floatText_of_isFinite {x : Float} (hx : x.isFinite = true) :
    floatText x = if x.toBits.toNat < signWeight then (Decimal.shortest x).render floatLayout
      else '-' :: (Decimal.shortest x).render floatLayout := by
  rw [floatText, if_pos hx, Decimal.render, String.toList_ofList]

theorem writeValue_eq_cons (spacing : Spacing) (value : Json) (level : Nat) :
    ∃ ch more, writeValue spacing level value = ch :: more ∧
      Cursor.isBlank ch = false ∧ ch ≠ ']' := by
  cases value with
  | null => exact ⟨_, _, rfl, rfl, by decide⟩
  | bool b => cases b <;> exact ⟨_, _, rfl, rfl, by decide⟩
  | integer n =>
      cases n with
      | ofNat n =>
          obtain ⟨ch, more, hcons, hdigit⟩ := startsDigit_digitChars n
          exact ⟨ch, more, hcons, isBlank_of_isDigit hdigit⟩
      | negSucc n => exact ⟨_, _, rfl, rfl, by decide⟩
  | float x =>
      rw [writeValue]
      by_cases hx : x.isFinite = true
      · obtain ⟨ch, more, hcons, hdigit⟩ := startsDigit_render floatLayout (Decimal.shortest x)
        rw [floatText_of_isFinite hx, hcons]
        split
        · exact ⟨ch, more, rfl, isBlank_of_isDigit hdigit⟩
        · exact ⟨_, _, rfl, rfl, by decide⟩
      · rw [floatText, if_neg hx]
        exact ⟨_, _, rfl, rfl, by decide⟩
  | string s => exact ⟨_, _, rfl, rfl, by decide⟩
  | array items => exact ⟨_, _, rfl, rfl, by decide⟩
  | object members => exact ⟨_, _, rfl, rfl, by decide⟩

theorem length_writeValue_pos (spacing : Spacing) (value : Json) (level : Nat) :
    0 < (writeValue spacing level value).length := by
  obtain ⟨ch, more, hcons, -⟩ := writeValue_eq_cons spacing value level
  rw [hcons, List.length_cons]
  exact Nat.succ_pos _

/-! Scalars -/

section

variable {c : Cursor} {tail : List Char} {fuel depth : Nat}

theorem Yields.map_word {word : List Char} {value : Json} (hrest : c.rest = word ++ tail) :
    Yields ((c.expectWord word).map (value, ·)) value tail := by
  obtain ⟨after, hword, hafter⟩ := Cursor.reaches_expectWord word hrest
  refine ⟨after, ?_, hafter⟩
  rw [hword]
  rfl

theorem yields_readValue_null (hrest : c.skipBlanks.rest = ['n', 'u', 'l', 'l'] ++ tail) :
    Yields (readValue (fuel + 1) depth c) .null tail := by
  simp only [readValue, hrest, List.cons_append]
  exact .map_word (Cursor.rest_next_of_cons hrest)

theorem yields_readValue_bool (b : Bool)
    (hrest : c.skipBlanks.rest = writeValue spacing level (.bool b) ++ tail) :
    Yields (readValue (fuel + 1) depth c) (.bool b) tail := by
  cases b with
  | true =>
      simp only [writeValue] at hrest
      simp only [readValue, hrest, List.cons_append]
      exact .map_word (Cursor.rest_next_of_cons hrest)
  | false =>
      simp only [writeValue] at hrest
      simp only [readValue, hrest, List.cons_append]
      exact .map_word (Cursor.rest_next_of_cons hrest)

theorem readValue_of_isDigit {ch : Char} {more : List Char} (hdigit : ch.isDigit = true)
    (hrest : c.skipBlanks.rest = ch :: more) :
    readValue (fuel + 1) depth c = readNumber false c.skipBlanks := by
  simp only [readValue, hrest]
  split <;> rename_i heq
  case h_1 => cases heq
  case h_9 =>
    obtain ⟨rfl, -⟩ := List.cons.inj heq
    rw [if_pos hdigit]
  all_goals
    -- No digit is the first character of any other value.
    obtain ⟨rfl, -⟩ := List.cons.inj heq
    contradiction

theorem yields_readValue_integer {n : Int} (hn : IsWord n) (htail : EndsNumber tail)
    (hrest : c.skipBlanks.rest = integerText n ++ tail) :
    Yields (readValue (fuel + 1) depth c) (.integer n) tail := by
  cases n with
  | ofNat n =>
      have hyields : Yields (readNumber false c.skipBlanks) (.integer (.ofNat n)) tail :=
        yields_readNumber hn htail hrest
      obtain ⟨ch, more, hcons, hdigit⟩ := startsDigit_digitChars n
      rw [integerText, hcons, List.cons_append] at hrest
      rwa [readValue_of_isDigit hdigit hrest]
  | negSucc n =>
      have hyields := yields_readNumber hn htail (Cursor.rest_next_of_cons hrest)
      rw [decide_eq_true (Int.negSucc_lt_zero n)] at hyields
      simp only [readValue, hrest, integerText, List.cons_append]
      exact hyields

theorem yields_readValue_string (s : String) (hrest : c.skipBlanks.rest = quotedText s ++ tail) :
    Yields (readValue (fuel + 1) depth c) (.string s) tail := by
  have hquoted : c.skipBlanks.rest = '"' :: (s.toList.flatMap escapeChar ++ '"' :: tail) := by
    simp [hrest, quotedText]
  obtain ⟨after, hread, hafter⟩ := yields_readString s (Cursor.rest_next_of_cons hquoted)
  refine ⟨after, ?_, hafter⟩
  simp only [readValue, hquoted, hread]
  rfl

end

/-! Containers -/

section

variable {c : Cursor} {tail : List Char} {first : Bool}

theorem startsToken_writeValue (value : Json) (level : Nat) :
    StartsToken (writeValue spacing level value ++ tail) := by
  obtain ⟨ch, more, hcons, hblank, -⟩ := writeValue_eq_cons spacing value level
  rw [hcons]
  exact startsToken_cons hblank _

include hspacing in
/-- The step to a written item ends before its value. -/
theorem nextItem_of_written {item : Json} (level : Nat)
    (hrest : c.rest = spacing.lead level first ++ writeValue spacing level item ++ tail) :
    ∃ place, c.nextItem first = .ok (some place) ∧
      place.skipBlanks.rest = writeValue spacing level item ++ tail := by
  obtain ⟨ch, more, hcons, hblank, hch⟩ := writeValue_eq_cons spacing item level
  have hlead : c.rest = (if first then [] else [',']) ++ spacing.line level ++
      ch :: (more ++ tail) := by
    rw [hrest, Spacing.lead, hcons, List.append_assoc, List.cons_append]
  obtain ⟨place, hnext, hplace⟩ :=
    Cursor.nextItem_of_item (hspacing.line level) first hblank hch hlead
  refine ⟨place, hnext, ?_⟩
  rw [hcons]
  exact Cursor.rest_skipBlanks_of_startsToken (startsToken_cons hblank _) hplace

include hspacing in
/-- The step to a written member gives its key and ends, past the colon, before its value. -/
theorem nextKey_of_written {key : String} {value : Json} (level : Nat)
    (hrest : c.rest = spacing.lead level first ++ writeMember spacing level (key, value) ++ tail) :
    ∃ place colon after, c.nextKey first = .ok (some place) ∧
      readString place = .ok (key, colon) ∧ colon.expectColon = .ok after ∧
      after.skipBlanks.rest = writeValue spacing level value ++ tail := by
  have hlead : c.rest = (if first then [] else [',']) ++ spacing.line level ++ '"' ::
      (key.toList.flatMap escapeChar ++
        '"' :: ':' :: (spacing.colon ++ (writeValue spacing level value ++ tail))) := by
    simp [hrest, Spacing.lead, writeMember, quotedText]
  obtain ⟨place, hnext, hplace⟩ := Cursor.nextKey_of_key (hspacing.line level) first hlead
  obtain ⟨colon, hkey, hcolon⟩ := yields_readString key hplace
  obtain ⟨after, hafter, hblanks⟩ := Cursor.reaches_expectColon hcolon
  exact ⟨place, colon, after, hnext, hkey, hafter,
    Cursor.rest_skipBlanks hspacing.colon (startsToken_writeValue value level) hblanks⟩

end

/-! What comes back -/

/-- Wherever the text of the first float stands, the second one is read. -/
def ReadsAs (x y : Float) : Prop :=
  ∀ ⦃c : Cursor⦄ ⦃tail : List Char⦄ ⦃fuel depth : Nat⦄, EndsNumber tail →
    c.skipBlanks.rest = floatText x ++ tail → Yields (readValue (fuel + 1) depth c) (.float y) tail

/-- The value comes back from its text, but for its floats, which are mapped. -/
structure ReadsUpTo (f : Float → Float) (value : Json) : Prop where
  floats : ∀ x ∈ value.floats, ReadsAs x (f x)
  words : value.HoldsWords

theorem Legible.readsUpTo {value : Json} (hvalue : value.Legible) (f : Float → Float) :
    value.ReadsUpTo f := by
  refine ⟨fun x hx => ?_, hvalue.words⟩
  rw [hvalue.floats] at hx
  contradiction

section

variable {f : Float → Float}

theorem ReadsUpTo.of_parts {small large : Json}
    (hparts : ∀ part ∈ small.parts, part ∈ large.parts) (hlarge : large.ReadsUpTo f) :
    small.ReadsUpTo f :=
  ⟨fun x hx => hlarge.floats x (List.filterMap_subset _ hparts hx),
    fun n hn => hlarge.words n (hparts _ hn)⟩

theorem ReadsUpTo.item {items : List Json} (hlist : (array items).ReadsUpTo f) :
    ∀ item ∈ items, item.ReadsUpTo f :=
  fun _ hitem => hlist.of_parts (parts_of_mem_items hitem)

theorem ReadsUpTo.member {members : List (String × Json)} (hobject : (object members).ReadsUpTo f) :
    ∀ member ∈ members, member.2.ReadsUpTo f :=
  fun _ hmember => hobject.of_parts (parts_of_mem_members hmember)

end

mutual

/-- A written value reads back, whatever follows it. -/
theorem yields_readValue {spacing : Spacing} (hspacing : spacing.IsBlank) {c : Cursor}
    {tail : List Char} {fuel depth : Nat} {f : Float → Float} (value : Json)
    (hvalue : value.ReadsUpTo f) (hdepth : value.nesting ≤ depth) (level : Nat)
    (hfuel : (writeValue spacing level value).length ≤ fuel) (htail : EndsNumber tail)
    (hrest : c.skipBlanks.rest = writeValue spacing level value ++ tail) :
    Yields (readValue fuel depth c) (value.mapFloats f) tail := by
  have hpos : 0 < fuel := Nat.lt_of_lt_of_le (length_writeValue_pos spacing value level) hfuel
  obtain ⟨fuel, rfl⟩ := Nat.exists_eq_succ_of_ne_zero (Nat.ne_of_gt hpos)
  cases value with
  | null => exact yields_readValue_null hrest
  | bool b => exact yields_readValue_bool b hrest
  | integer n => exact yields_readValue_integer (hvalue.words n (by simp [parts])) htail hrest
  | float x => exact hvalue.floats x (by simp [Json.floats, parts]) htail hrest
  | string s => exact yields_readValue_string s hrest
  | array items =>
      obtain ⟨depth, rfl⟩ := Nat.exists_eq_add_of_le' (Nat.le_trans (Nat.le_add_left 1 _) hdepth)
      simp only [writeValue, List.length_cons, List.cons_append] at hfuel hrest
      simp only [readValue, hrest]
      exact yields_readItems hspacing items hvalue.item (Nat.le_of_succ_le_succ hdepth) level []
        (Nat.le_of_succ_le_succ hfuel) (Cursor.rest_next_of_cons hrest)
  | object members =>
      obtain ⟨depth, rfl⟩ := Nat.exists_eq_add_of_le' (Nat.le_trans (Nat.le_add_left 1 _) hdepth)
      simp only [writeValue, List.length_cons, List.cons_append] at hfuel hrest
      simp only [readValue, hrest]
      exact yields_readMembers hspacing members hvalue.member (Nat.le_of_succ_le_succ hdepth) level
        [] (Nat.le_of_succ_le_succ hfuel) (Cursor.rest_next_of_cons hrest)
  termination_by structural value

/-- Written items read back after those that have been read. -/
theorem yields_readItems {spacing : Spacing} (hspacing : spacing.IsBlank) {c : Cursor}
    {tail : List Char} {fuel depth : Nat} {f : Float → Float} (items : List Json)
    (hitems : ∀ item ∈ items, item.ReadsUpTo f) (hdepth : nestingOfItems items ≤ depth)
    (level : Nat) (read : List Json)
    (hfuel : (writeItems spacing level read.isEmpty items).length ≤ fuel)
    (hrest : c.rest = writeItems spacing level read.isEmpty items ++ tail) :
    Yields (readItems fuel depth read c)
      (.array (read.reverse ++ mapFloatsOfItems f items)) tail := by
  have hpos : 0 < fuel := Nat.lt_of_lt_of_le (length_writeItems_pos spacing level _ items) hfuel
  obtain ⟨fuel, rfl⟩ := Nat.exists_eq_succ_of_ne_zero (Nat.ne_of_gt hpos)
  cases items with
  | nil =>
      rw [writeItems, List.append_assoc] at hrest
      obtain ⟨hclosed, hafter⟩ :=
        Cursor.nextItem_of_closing (hspacing.close level _) read.isEmpty hrest
      refine ⟨_, ?_, hafter⟩
      simp only [readItems, hclosed, mapFloatsOfItems, List.append_nil]
  | cons item rest =>
      have hitem : item.ReadsUpTo f := hitems item List.mem_cons_self
      have hrestItems : ∀ other ∈ rest, other.ReadsUpTo f :=
        fun other hother => hitems other (List.mem_cons_of_mem _ hother)
      have hdepths := Nat.max_le.mp hdepth
      have hfirst := length_writeValue_pos spacing item (level + 1)
      have hlater := length_writeItems_pos spacing level false rest
      simp only [writeItems, List.length_append] at hfuel
      rw [writeItems, List.append_assoc] at hrest
      obtain ⟨place, hnext, hplace⟩ := nextItem_of_written hspacing (level + 1) hrest
      have hitemFuel : (writeValue spacing (level + 1) item).length ≤ fuel := by omega
      have hrestFuel : (writeItems spacing level false rest).length ≤ fuel := by omega
      obtain ⟨after, hread, hafter⟩ := yields_readValue hspacing item hitem hdepths.1 (level + 1)
        hitemFuel (endsNumber_writeItems hspacing level rest tail) hplace
      obtain ⟨last, hreadRest, hlast⟩ := yields_readItems hspacing rest hrestItems hdepths.2 level
        (item.mapFloats f :: read) hrestFuel hafter
      refine ⟨last, ?_, hlast⟩
      simp only [readItems, hnext, hread, hreadRest, mapFloatsOfItems, List.reverse_cons,
        List.append_assoc, List.singleton_append]
  termination_by structural items

/-- Written members read back after those that have been read. -/
theorem yields_readMembers {spacing : Spacing} (hspacing : spacing.IsBlank) {c : Cursor}
    {tail : List Char} {fuel depth : Nat} {f : Float → Float} (members : List (String × Json))
    (hmembers : ∀ member ∈ members, member.2.ReadsUpTo f)
    (hdepth : nestingOfMembers members ≤ depth) (level : Nat) (read : List (String × Json))
    (hfuel : (writeMembers spacing level read.isEmpty members).length ≤ fuel)
    (hrest : c.rest = writeMembers spacing level read.isEmpty members ++ tail) :
    Yields (readMembers fuel depth read c)
      (.object (read.reverse ++ mapFloatsOfMembers f members)) tail := by
  have hpos : 0 < fuel := Nat.lt_of_lt_of_le (length_writeMembers_pos spacing level _ members) hfuel
  obtain ⟨fuel, rfl⟩ := Nat.exists_eq_succ_of_ne_zero (Nat.ne_of_gt hpos)
  cases members with
  | nil =>
      rw [writeMembers, List.append_assoc] at hrest
      obtain ⟨hclosed, hafter⟩ :=
        Cursor.nextKey_of_closing (hspacing.close level _) read.isEmpty hrest
      refine ⟨_, ?_, hafter⟩
      simp only [readMembers, hclosed, mapFloatsOfMembers, List.append_nil]
  | cons member rest =>
      have hmember : member.2.ReadsUpTo f := hmembers member List.mem_cons_self
      have hrestMembers : ∀ other ∈ rest, other.2.ReadsUpTo f :=
        fun other hother => hmembers other (List.mem_cons_of_mem _ hother)
      have hdepths := Nat.max_le.mp hdepth
      have hfirst := length_writeMember_pos spacing (level + 1) member
      have hlater := length_writeMembers_pos spacing level false rest
      simp only [writeMembers, List.length_append] at hfuel
      rw [writeMembers, List.append_assoc] at hrest
      obtain ⟨place, colon, start, hnext, hkey, hcolon, hstart⟩ :=
        nextKey_of_written hspacing (level + 1) hrest
      have hmemberFuel : (writeMember spacing (level + 1) member).length ≤ fuel := by omega
      have hrestFuel : (writeMembers spacing level false rest).length ≤ fuel := by omega
      obtain ⟨after, hread, hafter⟩ := yields_readMember hspacing member hmember hdepths.1
        (level + 1) hmemberFuel (endsNumber_writeMembers hspacing level rest tail) hstart
      obtain ⟨last, hreadRest, hlast⟩ := yields_readMembers hspacing rest hrestMembers hdepths.2
        level ((member.1, member.2.mapFloats f) :: read) hrestFuel hafter
      refine ⟨last, ?_, hlast⟩
      simp only [readMembers, hnext, hkey, hcolon, hread, hreadRest, mapFloatsOfMembers,
        mapFloatsOfMember_eq, List.reverse_cons, List.append_assoc, List.singleton_append]
  termination_by structural members

theorem yields_readMember {spacing : Spacing} (hspacing : spacing.IsBlank) {c : Cursor}
    {tail : List Char} {fuel depth : Nat} {f : Float → Float} (member : String × Json)
    (hvalue : member.2.ReadsUpTo f)
    (hdepth : nestingOfMember member ≤ depth) (level : Nat)
    (hfuel : (writeMember spacing level member).length ≤ fuel) (htail : EndsNumber tail)
    (hrest : c.skipBlanks.rest = writeValue spacing level member.2 ++ tail) :
    Yields (readValue fuel depth c) (member.2.mapFloats f) tail := by
  obtain ⟨key, value⟩ := member
  simp only [writeMember, List.length_append, List.length_cons] at hfuel
  exact yields_readValue hspacing value hvalue hdepth level (by omega) htail hrest
  termination_by structural member

end

/-! Whole texts -/

theorem read_of_written (hspacing : spacing.IsBlank) {f : Float → Float} {value : Json}
    (hvalue : value.ReadsUpTo f) (hnesting : value.nesting ≤ maxDepth) :
    read (String.ofList (writeValue spacing 0 value)) = .ok (value.mapFloats f) := by
  have hstart : (Cursor.ofString (String.ofList (writeValue spacing 0 value))).rest =
      writeValue spacing 0 value ++ [] := by
    rw [Cursor.rest_ofString, String.toList_ofList, List.append_nil]
  have hskipped := Cursor.rest_skipBlanks_of_startsToken (startsToken_writeValue value 0) hstart
  have hfuel : (writeValue spacing 0 value).length ≤
      (Cursor.ofString (String.ofList (writeValue spacing 0 value))).fuel := by
    rw [Cursor.fuel, hstart, List.append_nil]
    omega
  obtain ⟨after, hread, hafter⟩ :=
    yields_readValue hspacing value hvalue hnesting 0 hfuel endsNumber_nil hskipped
  simp only [read, readFrom, hread, bind, Except.bind, Cursor.expectEnd_of_nil hafter]

theorem Legible.read_of_written (hspacing : spacing.IsBlank) {value : Json}
    (hvalue : value.Legible) (hnesting : value.nesting ≤ maxDepth) :
    read (String.ofList (writeValue spacing 0 value)) = .ok value := by
  rw [Json.read_of_written hspacing (hvalue.readsUpTo id) hnesting, mapFloats_id]

/-- A value in one line reads back. -/
theorem read_compact {value : Json} (hvalue : value.Legible)
    (hnesting : value.nesting ≤ maxDepth) : read value.compact = .ok value :=
  hvalue.read_of_written Spacing.isBlank_none hnesting

theorem parse_compact {value : Json} (hvalue : value.Legible)
    (hnesting : value.nesting ≤ maxDepth) : parse value.compact = .ok value.canonical := by
  rw [parse, read_compact hvalue hnesting]
  rfl

end DocIndex.Json
