import DocIndex.Json.Writer

/-!
The text of a value in one line has no control characters, whatever the strings in it hold: a
control character within a string is written by its escape.
-/

namespace DocIndex

/-- All characters are a blank or follow it. -/
def IsPrinted (text : List Char) : Prop :=
  ∀ ch ∈ text, 0x20 ≤ ch.toNat

theorem isPrinted_of_all {text : List Char} (htext : text.all (0x20 ≤ ·.toNat) = true) :
    IsPrinted text := by
  simpa [IsPrinted] using htext

namespace IsPrinted

variable {text other : List Char}

theorem nil : IsPrinted [] := by
  intro ch hch
  contradiction

theorem cons {ch : Char} (hch : 0x20 ≤ ch.toNat) (htext : IsPrinted text) :
    IsPrinted (ch :: text) :=
  List.forall_mem_cons.mpr ⟨hch, htext⟩

theorem append (htext : IsPrinted text) (hother : IsPrinted other) : IsPrinted (text ++ other) :=
  List.forall_mem_append.mpr ⟨htext, hother⟩

theorem subset (htext : IsPrinted text) (hsubset : other ⊆ text) : IsPrinted other := by
  intro ch hch
  exact htext ch (hsubset hch)

theorem replicate {ch : Char} (hch : 0x20 ≤ ch.toNat) (n : Nat) :
    IsPrinted (List.replicate n ch) := by
  intro other hother
  rw [List.eq_of_mem_replicate hother]
  exact hch

theorem flatMap {α : Type} {f : α → List Char} (items : List α)
    (hitems : ∀ item, IsPrinted (f item)) : IsPrinted (items.flatMap f) := by
  intro ch hch
  obtain ⟨item, -, hmem⟩ := List.mem_flatMap.mp hch
  exact hitems item ch hmem

end IsPrinted

namespace Decimal

theorem isPrinted_digitChars (n : Nat) : IsPrinted (digitChars n) := by
  intro ch hch
  have hdigit : ch.isDigit = true := Nat.isDigit_of_mem_toDigits (by decide) (by decide) hch
  exact Nat.le_trans (by decide) (Char.isDigit_iff_toNat.mp hdigit).1

theorem isPrinted_positional {digits : List Char} (hdigits : IsPrinted digits) (pointAt : Int)
    (keepsPoint : Bool) : IsPrinted (positional digits pointAt keepsPoint) := by
  unfold positional
  split
  · exact (IsPrinted.replicate (by decide) _).append hdigits |>.cons (by decide) |>.cons (by decide)
  · exact (hdigits.cons (by decide)).cons (by decide)
  · split
    · refine (hdigits.append (.replicate (by decide) _)).append ?_
      cases keepsPoint with
      | true => exact (IsPrinted.nil.cons (by decide)).cons (by decide)
      | false => exact .nil
    · refine (hdigits.subset (List.take_subset _ _)).append (.cons (by decide) ?_)
      exact hdigits.subset (List.drop_subset _ _)

theorem isPrinted_scientific {digits : List Char} (hdigits : IsPrinted digits) (exponent : Int) :
    IsPrinted (scientific digits exponent) := by
  have hsign : 0x20 ≤ (if exponent < 0 then '-' else '+').toNat := by
    split <;> decide
  refine IsPrinted.append ?_ (((isPrinted_digitChars _).cons hsign).cons (by decide))
  split
  · rw [IsPrinted, List.forall_mem_cons] at hdigits
    exact .cons hdigits.1 (.cons (by decide) hdigits.2)
  · exact hdigits

theorem isPrinted_render (layout : Layout) (x : Float) : IsPrinted (render layout x).toList := by
  have hscaled (n : Scaled) : IsPrinted (n.render layout) := by
    unfold Scaled.render
    dsimp only
    split
    · exact isPrinted_positional (IsPrinted.nil.cons (by decide)) _ _
    · split
      · exact isPrinted_positional (isPrinted_digitChars _) _ _
      · exact isPrinted_scientific (isPrinted_digitChars _) _
  rw [render, String.toList_ofList]
  split
  · exact hscaled _
  · exact (hscaled _).cons (by decide)

end Decimal

namespace Json

theorem isPrinted_integerText (n : Int) : IsPrinted (integerText n) := by
  cases n with
  | ofNat n => exact Decimal.isPrinted_digitChars n
  | negSucc n => exact (Decimal.isPrinted_digitChars _).cons (by decide)

theorem isPrinted_floatText (x : Float) : IsPrinted (floatText x) := by
  unfold floatText
  split
  · exact Decimal.isPrinted_render _ _
  · exact isPrinted_of_all rfl

theorem hexChar_printed {n : Nat} (hn : n < 16) : 0x20 ≤ (hexChar n).toNat := by
  have hall : ∀ n < 16, 0x20 ≤ (hexChar n).toNat := by decide
  exact hall n hn

theorem isPrinted_escapeChar (ch : Char) : IsPrinted (escapeChar ch) := by
  unfold escapeChar
  -- The characters with a short escape come first.
  iterate 7
    split
    · exact (IsPrinted.nil.cons (by decide)).cons (by decide)
  split
  · rename_i hcontrol
    have hhigh : ch.toNat / 16 < 16 := by omega
    have hlow : ch.toNat % 16 < 16 := by omega
    have hdigits := (IsPrinted.nil.cons (hexChar_printed hlow)).cons (hexChar_printed hhigh)
    exact (((hdigits.cons (by decide)).cons (by decide)).cons (by decide)).cons (by decide)
  · rename_i hcontrol
    exact IsPrinted.nil.cons (Nat.le_of_not_lt hcontrol)

theorem isPrinted_quotedText (s : String) : IsPrinted (quotedText s) := by
  have hchars := IsPrinted.flatMap s.toList isPrinted_escapeChar
  exact (hchars.cons (by decide)).append (isPrinted_of_all rfl)

theorem isPrinted_lead (level : Nat) (first : Bool) :
    IsPrinted (Spacing.none.lead level first) := by
  cases first with
  | true => exact .nil
  | false => exact isPrinted_of_all rfl

theorem close_none (level : Nat) (first : Bool) : Spacing.none.close level first = [] :=
  ite_self []

mutual

theorem isPrinted_writeValue (level : Nat) (value : Json) :
    IsPrinted (writeValue .none level value) := by
  cases value with
  | null => exact isPrinted_of_all rfl
  | bool b =>
      cases b with
      | true => exact isPrinted_of_all rfl
      | false => exact isPrinted_of_all rfl
  | integer n => exact isPrinted_integerText n
  | float x => exact isPrinted_floatText x
  | string s => exact isPrinted_quotedText s
  | array items => exact (isPrinted_writeItems level true items).cons (by decide)
  | object members => exact (isPrinted_writeMembers level true members).cons (by decide)

theorem isPrinted_writeItems (level : Nat) (first : Bool) (items : List Json) :
    IsPrinted (writeItems .none level first items) := by
  cases items with
  | nil =>
      rw [writeItems, close_none]
      exact isPrinted_of_all rfl
  | cons item rest =>
      exact ((isPrinted_lead _ _).append (isPrinted_writeValue _ item)).append
        (isPrinted_writeItems level false rest)

theorem isPrinted_writeMembers (level : Nat) (first : Bool) (members : List (String × Json)) :
    IsPrinted (writeMembers .none level first members) := by
  cases members with
  | nil =>
      rw [writeMembers, close_none]
      exact isPrinted_of_all rfl
  | cons member rest =>
      exact ((isPrinted_lead _ _).append (isPrinted_writeMember _ member)).append
        (isPrinted_writeMembers level false rest)

theorem isPrinted_writeMember (level : Nat) (member : String × Json) :
    IsPrinted (writeMember .none level member) := by
  obtain ⟨key, value⟩ := member
  have hkey : IsPrinted (quotedText key ++ ':' :: Spacing.none.colon) :=
    (isPrinted_quotedText key).append (isPrinted_of_all rfl)
  exact hkey.append (isPrinted_writeValue level value)

end

theorem isPrinted_compact (value : Json) : IsPrinted value.compact.toList := by
  rw [compact, String.toList_ofList]
  exact isPrinted_writeValue 0 value

end Json

end DocIndex
