import DocIndex.Json.Stream
import DocIndex.Proofs.Json.Reading

/-!
Decoding what was written. A step decodes a value as something if it does so wherever the text of
the value stands and whatever its spacing; each way of making a step of others keeps this law.
-/

namespace DocIndex.Json

open DocIndex.Json.Stream

/-- Where the text of the value stands, the step takes all of it and gives `a`. -/
def Decodes {α : Type} (step : Step α) (value : Json) (a : α) : Prop :=
  ∀ ⦃spacing : Spacing⦄, spacing.IsBlank → ∀ ⦃level : Nat⦄ ⦃c : Cursor⦄ ⦃tail : List Char⦄,
    c.skipBlanks.rest = writeValue spacing level value ++ tail → Yields (step c) a tail

theorem valueStart_of_cons {c : Cursor} {ch : Char} {more : List Char}
    (hrest : c.skipBlanks.rest = ch :: more) : valueStart c = .ok c.skipBlanks := by
  simp only [valueStart, hrest]

/-! Scalars -/

theorem decodes_string (expected s : String) : Decodes (Stream.string expected) (.string s) s := by
  intro spacing hspacing level c tail hrest
  have hquoted : c.skipBlanks.rest = '"' :: (s.toList.flatMap escapeChar ++ '"' :: tail) := by
    simp [hrest, writeValue, quotedText]
  obtain ⟨after, hread, hafter⟩ := yields_readString s (Cursor.rest_next_of_cons hquoted)
  refine ⟨after, ?_, hafter⟩
  simp only [Stream.string, valueStart_of_cons hquoted, bind, Except.bind, hquoted, hread,
    orUnreadable]

theorem decodes_variant {α : Type} {words : List (String × α)} {word : String} {a : α}
    (hword : variantOf words word = .ok a) : Decodes (variant words) (.string word) a := by
  intro spacing hspacing level c tail hrest
  have hquoted : c.skipBlanks.rest = '"' :: (word.toList.flatMap escapeChar ++ '"' :: tail) := by
    simp [hrest, writeValue, quotedText]
  obtain ⟨after, hread, hafter⟩ := yields_readString word (Cursor.rest_next_of_cons hquoted)
  refine ⟨after, ?_, hafter⟩
  simp only [variant, valueStart_of_cons hquoted, bind, Except.bind, hquoted, hread, orUnreadable,
    hword, orMisshapen, pure, Except.pure]

theorem decodes_boolean (b : Bool) : Decodes boolean (.bool b) b := by
  intro spacing hspacing level c tail hrest
  cases b with
  | true =>
      have hcons : c.skipBlanks.rest = 't' :: (['r', 'u', 'e'] ++ tail) := hrest
      obtain ⟨after, hword, hafter⟩ :=
        Cursor.reaches_expectWord _ (Cursor.rest_next_of_cons hcons)
      refine ⟨after, ?_, hafter⟩
      simp only [boolean, valueStart_of_cons hcons, bind, Except.bind, hcons, hword, orUnreadable,
        pure, Except.pure]
  | false =>
      have hcons : c.skipBlanks.rest = 'f' :: (['a', 'l', 's', 'e'] ++ tail) := hrest
      obtain ⟨after, hword, hafter⟩ :=
        Cursor.reaches_expectWord _ (Cursor.rest_next_of_cons hcons)
      refine ⟨after, ?_, hafter⟩
      simp only [boolean, valueStart_of_cons hcons, bind, Except.bind, hcons, hword, orUnreadable,
        pure, Except.pure]

section

variable {α : Type} {step : Step α}

/-- A string, which is not `null`, is decoded as a value. -/
theorem decodes_optional {s : String} {a : α} (hstep : Decodes step (.string s) a) :
    Decodes (Stream.optional step) (.string s) (some a) := by
  intro spacing hspacing level c tail hrest
  obtain ⟨after, hread, hafter⟩ := hstep hspacing hrest
  refine ⟨after, ?_, hafter⟩
  simp only [writeValue, quotedText, List.cons_append] at hrest
  simp only [Stream.optional, hrest, hread, bind, Except.bind, pure, Except.pure]
  rfl

theorem decodes_once {value : Json} {a : α} (name : String) (hstep : Decodes step value a) :
    Decodes (once name none step) value (some a) := by
  intro spacing hspacing level c tail hrest
  obtain ⟨after, hread, hafter⟩ := hstep hspacing hrest
  refine ⟨after, ?_, hafter⟩
  simp only [once, hread, bind, Except.bind, pure, Except.pure]

theorem Decodes.map {β : Type} {value : Json} {a : α} (hstep : Decodes step value a) (f : α → β) :
    Decodes (fun c => do
      let (a, c) ← step c
      return (f a, c)) value (f a) := by
  intro spacing hspacing level c tail hrest
  obtain ⟨after, hread, hafter⟩ := hstep hspacing hrest
  refine ⟨after, ?_, hafter⟩
  simp only [hread, bind, Except.bind, pure, Except.pure]

/-- A key that may come once, and did not come before, is decoded into its place. -/
theorem decodes_key {σ : Type} {member : String → σ → Step σ} {key : String} {value : Json} {a : α}
    (get : σ → Option α) (set : σ → Option α → σ)
    (hmember : ∀ before, member key before = fun c => do
      let (a, c) ← once key (get before) step c
      return (set before a, c))
    (hstep : Decodes step value a) {before : σ} (hbefore : get before = none) :
    Decodes (member key before) value (set before (some a)) := by
  have honce := decodes_once key hstep
  rw [← hbefore] at honce
  rw [hmember]
  exact honce.map (set before)

/-! Containers -/

theorem yields_itemsFrom {spacing : Spacing} (hspacing : spacing.IsBlank) {items : List Json}
    {as : List α} (hsteps : List.Forall₂ (Decodes step) items as) (level : Nat)
    (read : List α) {c : Cursor} {tail : List Char} {fuel : Nat}
    (hfuel : (writeItems spacing level read.isEmpty items).length ≤ fuel)
    (hrest : c.rest = writeItems spacing level read.isEmpty items ++ tail) :
    Yields (itemsFrom step fuel read c) (read.reverse ++ as) tail := by
  induction hsteps generalizing read c fuel with
  | nil =>
      have hpos := Nat.lt_of_lt_of_le (length_writeItems_pos spacing level _ []) hfuel
      obtain ⟨fuel, rfl⟩ := Nat.exists_eq_succ_of_ne_zero (Nat.ne_of_gt hpos)
      rw [writeItems, List.append_assoc] at hrest
      obtain ⟨hclosed, hafter⟩ :=
        Cursor.nextItem_of_closing (hspacing.close level _) read.isEmpty hrest
      refine ⟨_, ?_, hafter⟩
      simp only [itemsFrom, hclosed, List.append_nil]
  | @cons item a rest as hstep _ ih =>
      have hpos := Nat.lt_of_lt_of_le (length_writeItems_pos spacing level _ (item :: rest)) hfuel
      obtain ⟨fuel, rfl⟩ := Nat.exists_eq_succ_of_ne_zero (Nat.ne_of_gt hpos)
      have hfirst := length_writeValue_pos spacing item (level + 1)
      simp only [writeItems, List.length_append] at hfuel
      have hrestFuel : (writeItems spacing level false rest).length ≤ fuel := by omega
      rw [writeItems, List.append_assoc] at hrest
      obtain ⟨place, hnext, hplace⟩ := nextItem_of_written hspacing (level + 1) hrest
      obtain ⟨after, hread, hafter⟩ := hstep hspacing hplace
      obtain ⟨last, hreadRest, hlast⟩ := ih (a :: read) hrestFuel hafter
      refine ⟨last, ?_, hlast⟩
      simp only [itemsFrom, hnext, hread, hreadRest, List.reverse_cons, List.append_assoc,
        List.singleton_append]

theorem decodes_sequence {items : List Json} {as : List α}
    (hsteps : List.Forall₂ (Decodes step) items as) :
    Decodes (Stream.sequence step) (.array items) as := by
  intro spacing hspacing level c tail hrest
  rw [writeValue, List.cons_append] at hrest
  have hfuel : (writeItems spacing level true items).length ≤ c.skipBlanks.fuel := by
    rw [Cursor.fuel, hrest, List.length_cons, List.length_append]
    omega
  obtain ⟨after, hread, hafter⟩ :=
    yields_itemsFrom hspacing hsteps level [] hfuel (Cursor.rest_next_of_cons hrest)
  refine ⟨after, ?_, hafter⟩
  simp only [Stream.sequence, valueStart_of_cons hrest, bind, Except.bind, hrest, hread,
    List.reverse_nil, List.nil_append]

/-- The members take what was decoded before them from one state to another, one by one. -/
inductive Takes (member : String → α → Step α) : List (String × Json) → α → α → Prop
  | nil (a : α) : Takes member [] a a
  | cons {key : String} {value : Json} {rest : List (String × Json)} {first next last : α}
      (hfirst : Decodes (member key first) value next) (hrest : Takes member rest next last) :
      Takes member ((key, value) :: rest) first last

/-- Where the text of the members stands, the step takes all of it but the closing brace. -/
def DecodesMembers (step : Step α) (members : List (String × Json)) (a : α) : Prop :=
  ∀ ⦃spacing : Spacing⦄, spacing.IsBlank → ∀ ⦃level : Nat⦄ ⦃c : Cursor⦄ ⦃tail : List Char⦄,
    c.rest = writeMembers spacing level true members ++ tail →
      ∃ after, step c = .ok (a, after) ∧ after.skipBlanks.next.rest = tail

theorem membersFrom_of_takes {member : String → α → Step α} {spacing : Spacing}
    (hspacing : spacing.IsBlank) {members : List (String × Json)} {before result : α}
    (htakes : Takes member members before result) (level : Nat) (first : Bool) {c : Cursor}
    {tail : List Char} {fuel : Nat}
    (hfuel : (writeMembers spacing level first members).length ≤ fuel)
    (hrest : c.rest = writeMembers spacing level first members ++ tail) :
    ∃ after, membersFrom member fuel first before c = .ok (result, after) ∧
      after.skipBlanks.next.rest = tail := by
  induction htakes generalizing first c fuel with
  | nil before =>
      have hpos := Nat.lt_of_lt_of_le (length_writeMembers_pos spacing level _ []) hfuel
      obtain ⟨fuel, rfl⟩ := Nat.exists_eq_succ_of_ne_zero (Nat.ne_of_gt hpos)
      rw [writeMembers, List.append_assoc] at hrest
      obtain ⟨hclosed, hafter⟩ := Cursor.nextKey_of_closing (hspacing.close level _) first hrest
      refine ⟨c, ?_, hafter⟩
      simp only [membersFrom, hclosed]
  | @cons key value rest before next result hfirst _ ih =>
      have hpos :=
        Nat.lt_of_lt_of_le (length_writeMembers_pos spacing level _ ((key, value) :: rest)) hfuel
      obtain ⟨fuel, rfl⟩ := Nat.exists_eq_succ_of_ne_zero (Nat.ne_of_gt hpos)
      have hmember := length_writeMember_pos spacing (level + 1) (key, value)
      simp only [writeMembers, List.length_append] at hfuel
      have hrestFuel : (writeMembers spacing level false rest).length ≤ fuel := by omega
      rw [writeMembers, List.append_assoc] at hrest
      obtain ⟨place, colon, start, hnext, hkey, hcolon, hstart⟩ :=
        nextKey_of_written hspacing (level + 1) hrest
      obtain ⟨after, hread, hafter⟩ := hfirst hspacing hstart
      obtain ⟨last, hreadRest, hlast⟩ := ih false hrestFuel hafter
      refine ⟨last, ?_, hlast⟩
      simp only [membersFrom, hnext, hkey, hcolon, orUnreadable, hread, hreadRest, bind,
        Except.bind]

theorem decodesMembers_of_takes {member : String → α → Step α} {members : List (String × Json)}
    {before result : α} (htakes : Takes member members before result) :
    DecodesMembers (fun c => membersFrom member c.fuel true before c) members result := by
  intro spacing hspacing level c tail hrest
  have hfuel : (writeMembers spacing level true members).length ≤ c.fuel := by
    rw [Cursor.fuel, hrest, List.length_append]
    omega
  exact membersFrom_of_takes hspacing htakes level true hfuel hrest

theorem DecodesMembers.finish {β : Type} {members : List (String × Json)} {a : α} {b : β}
    {finish : α → Except DecodeFault β} (hmembers : DecodesMembers step members a)
    (hfinish : finish a = .ok b) :
    DecodesMembers (fun c => do
      let (a, c) ← step c
      return (← finish a, c)) members b := by
  intro spacing hspacing level c tail hrest
  obtain ⟨after, hread, hafter⟩ := hmembers hspacing hrest
  refine ⟨after, ?_, hafter⟩
  simp only [hread, hfinish, bind, Except.bind, pure, Except.pure]

theorem decodes_record {ofMembers : Step α} {members : List (String × Json)} {a : α}
    (hmembers : DecodesMembers ofMembers members a) (expected : String) (ofItems : Step α) :
    Decodes (record expected ofMembers ofItems) (.object members) a := by
  intro spacing hspacing level c tail hrest
  rw [writeValue, List.cons_append] at hrest
  obtain ⟨after, hread, hafter⟩ := hmembers hspacing (Cursor.rest_next_of_cons hrest)
  refine ⟨after.skipBlanks.next, ?_, hafter⟩
  simp only [record, valueStart_of_cons hrest, bind, Except.bind, hrest, hread, pure, Except.pure]

end

/-- A whole text is decoded. -/
theorem decode_of_decodes {α : Type} {step : Step α} {value : Json} {a : α}
    (hstep : Decodes step value a) {spacing : Spacing} (hspacing : spacing.IsBlank) :
    decode step (String.ofList (writeValue spacing 0 value)) = .ok a := by
  have hstart : (Cursor.ofString (String.ofList (writeValue spacing 0 value))).rest =
      writeValue spacing 0 value ++ [] := by
    rw [Cursor.rest_ofString, String.toList_ofList, List.append_nil]
  have hskipped := Cursor.rest_skipBlanks_of_startsToken (startsToken_writeValue value 0) hstart
  obtain ⟨after, hread, hafter⟩ := hstep hspacing hskipped
  simp only [decode, hread, bind, Except.bind, Cursor.expectEnd_of_nil hafter, orUnreadable, pure,
    Except.pure]

end DocIndex.Json
