import DocIndex.Proofs.Json.Floats
import DocIndex.Proofs.Json.ObjectText

/-!
Every literal of a number, and what it is read as. One that is all digits, after a minus sign or
not, is read as the integer that it denotes if this has 64 bits, signed or not; only a zero with a
sign is none of them. All other literals are read as floats, unless they are out of range.
-/

namespace DocIndex.Json

variable {c : Cursor} {tail : List Char}

/-- An exponent as it is written: its mark, perhaps a sign, and one digit or more. -/
structure WrittenExponent where
  mark : Char
  sign : List Char
  digits : List Char
  isMark : isExponentMark mark = true
  isSign : sign = [] ∨ sign = ['+'] ∨ sign = ['-']
  isDigit : ∀ ch ∈ digits, ch.isDigit = true
  ne_nil : digits ≠ []

namespace WrittenExponent

def text (exponent : WrittenExponent) : List Char :=
  exponent.mark :: (exponent.sign ++ exponent.digits)

theorem mark_ne (exponent : WrittenExponent) :
    exponent.mark.isDigit = false ∧ exponent.mark ≠ '.' := by
  have hmark := exponent.isMark
  simp only [isExponentMark, Bool.or_eq_true, decide_eq_true_eq] at hmark
  rcases hmark with hmark | hmark <;> rw [hmark] <;> exact ⟨rfl, by decide⟩

theorem exists_readSign (exponent : WrittenExponent)
    (hrest : c.rest = exponent.sign ++ (exponent.digits ++ tail)) :
    ∃ isNegative after, readSign c = (isNegative, after) ∧
      after.rest = exponent.digits ++ tail := by
  rcases exponent.isSign with hsign | hsign | hsign
  · obtain ⟨ch, more, hdigits⟩ := List.exists_cons_of_ne_nil exponent.ne_nil
    have hdigit : ch.isDigit = true := exponent.isDigit ch (hdigits ▸ List.mem_cons_self)
    rw [hsign, List.nil_append] at hrest
    refine ⟨false, c, ?_, hrest⟩
    rw [hdigits, List.cons_append] at hrest
    unfold readSign
    split
    · rename_i hplus
      obtain ⟨rfl, -⟩ := List.cons.inj (hrest.symm.trans hplus)
      contradiction
    · rename_i hminus
      obtain ⟨rfl, -⟩ := List.cons.inj (hrest.symm.trans hminus)
      contradiction
    · rfl
  · rw [hsign] at hrest
    exact ⟨false, c.next, by simp [readSign, hrest], Cursor.rest_next_of_cons hrest⟩
  · rw [hsign] at hrest
    exact ⟨true, c.next, by simp [readSign, hrest], Cursor.rest_next_of_cons hrest⟩

/-- Any exponent is read, be it small or huge. -/
theorem yields_readExponent? (exponent : WrittenExponent) (htail : EndsDigits tail)
    (hrest : c.rest = exponent.text ++ tail) :
    ∃ found, Yields (readExponent? c) (some found) tail := by
  rw [text, List.cons_append, List.append_assoc] at hrest
  obtain ⟨isNegative, start, hsign, hstart⟩ :=
    exponent.exists_readSign (Cursor.rest_next_of_cons hrest)
  obtain ⟨after, hdigits, hafter⟩ := yields_readDigits exponent.isDigit htail hstart
  obtain ⟨ch, more, hcons⟩ := List.exists_cons_of_ne_nil exponent.ne_nil
  have hdigit : ch.isDigit = true := exponent.isDigit ch (hcons ▸ List.mem_cons_self)
  rw [hcons, List.cons_append] at hstart
  cases hgather : gatherExponent 0 (valuesOf exponent.digits) start with
  | ok n =>
      refine ⟨.value (if isNegative then -(n : Int) else n), after, ?_, hafter⟩
      simp only [readExponent?, hrest, exponent.isMark, if_true, hsign, hstart, hdigit, hdigits,
        hgather]
  | error place =>
      refine ⟨.huge isNegative place, after, ?_, hafter⟩
      simp only [readExponent?, hrest, exponent.isMark, if_true, hsign, hstart, hdigit, hdigits,
        hgather]

end WrittenExponent

/-- A literal of a number: digits, perhaps with a sign, digits after a point, and an exponent. -/
structure NumberLiteral where
  isNegative : Bool
  whole : List Char
  /-- The digits after the point; there is no point if there are none. -/
  fraction : List Char
  exponent : Option WrittenExponent
  isWhole : IsWhole whole
  isFraction : ∀ ch ∈ fraction, ch.isDigit = true

namespace NumberLiteral

def exponentPart (literal : NumberLiteral) : List Char :=
  match literal.exponent with
  | none => []
  | some exponent => exponent.text

/-- The characters after the sign. -/
def unsigned (literal : NumberLiteral) : List Char :=
  literal.whole ++ (fractionText literal.fraction ++ literal.exponentPart)

def text (literal : NumberLiteral) : List Char :=
  if literal.isNegative then '-' :: literal.unsigned else literal.unsigned

/-- The literal has neither a fraction nor an exponent. -/
def IsInteger (literal : NumberLiteral) : Prop :=
  literal.fraction = [] ∧ literal.exponent = none

/-- The integer of the digits before the point, with the sign. -/
def integer (literal : NumberLiteral) : Int :=
  if literal.isNegative then -(ofDigits (valuesOf literal.whole) : Int)
  else ofDigits (valuesOf literal.whole)

/-! Reading a literal -/

theorem startsDigit_unsigned (literal : NumberLiteral) : StartsDigit literal.unsigned :=
  (startsDigit_of_ne_nil literal.isWhole.ne_nil literal.isWhole.isDigit).append _

theorem head?_exponentPart (literal : NumberLiteral) (htail : EndsNumber tail) :
    EndsDigits (literal.exponentPart ++ tail) ∧
      (literal.exponentPart ++ tail).head? ≠ some '.' := by
  unfold exponentPart
  cases literal.exponent with
  | none => exact ⟨htail.endsDigits, fun hpoint => (htail '.' hpoint).2.1 rfl⟩
  | some exponent =>
      exact ⟨endsDigits_cons exponent.mark_ne.1 _,
        fun hpoint => exponent.mark_ne.2 (Option.some.inj hpoint)⟩

theorem exists_readExponent? (literal : NumberLiteral) (htail : EndsNumber tail)
    (hrest : c.rest = literal.exponentPart ++ tail) :
    ∃ found, (found = none ↔ literal.exponent = none) ∧ Yields (readExponent? c) found tail := by
  unfold exponentPart at hrest
  cases hexponent : literal.exponent with
  | none =>
      rw [hexponent] at hrest
      exact ⟨none, by simp, c, readExponent?_of_endsNumber (hrest ▸ htail), hrest⟩
  | some exponent =>
      rw [hexponent] at hrest
      obtain ⟨found, hyields⟩ := exponent.yields_readExponent? htail.endsDigits hrest
      exact ⟨some found, by simp, hyields⟩

/-- The parts of a literal are found as they were put together. -/
theorem exists_parts (literal : NumberLiteral) (htail : EndsNumber tail)
    (hrest : c.rest = literal.unsigned ++ tail) :
    ∃ point mark after fraction exponent,
      readWhole c = .ok (valuesOf literal.whole, point) ∧
      readFraction? point = .ok (fraction, mark) ∧
      readExponent? mark = .ok (exponent, after) ∧ after.rest = tail ∧
      (fraction = none ∧ exponent = none ↔ literal.IsInteger) := by
  rw [unsigned, List.append_assoc, List.append_assoc] at hrest
  obtain ⟨hdigits, hpoint⟩ := literal.head?_exponentPart htail
  obtain ⟨point, hwhole, hrest⟩ :=
    yields_readWhole literal.isWhole (endsDigits_fractionText _ hdigits) hrest
  obtain ⟨fraction, -, hfraction, mark, hreadFraction, hrest⟩ :=
    exists_readFraction? literal.isFraction hdigits hpoint hrest
  obtain ⟨exponent, hexponent, after, hreadExponent, hafter⟩ :=
    literal.exists_readExponent? htail hrest
  refine ⟨point, mark, after, fraction, exponent, hwhole, hreadFraction, hreadExponent, hafter, ?_⟩
  rw [hfraction, hexponent, IsInteger]

end NumberLiteral

theorem floatValue_cases (isNegative : Bool) (whole fraction : List Nat)
    (exponent : Option Exponent) (after : Cursor) :
    (∃ x, floatValue isNegative whole fraction exponent after = .ok (.float x)) ∨
      ∃ fault, floatValue isNegative whole fraction exponent after = .error fault := by
  unfold floatValue
  dsimp only
  split
  · split <;> simp
  · split <;> simp
  · split <;> simp

theorem integerValue?_eq_some_iff {isNegative : Bool} {digits : List Nat} {n : Int} :
    integerValue? isNegative digits = some n ↔
      (if isNegative then -(ofDigits digits : Int) else ofDigits digits) = n ∧ IsWord n ∧
        ¬(isNegative = true ∧ ofDigits digits = 0) := by
  have hweight : signWeight < UInt64.size := by decide
  unfold integerValue? IsWord
  cases isNegative with
  | true =>
      simp only [if_true, true_and]
      split <;> simp only [Option.some.injEq, reduceCtorEq, false_iff] <;> omega
  | false =>
      simp only [Bool.false_eq_true, if_false, false_and, not_false_eq_true, and_true]
      split <;> simp only [Option.some.injEq, reduceCtorEq, false_iff] <;> omega

/-- Only one literal before a point has the value zero. -/
theorem IsWhole.ofDigits_eq_zero_iff {digits : List Char} (hdigits : IsWhole digits) :
    ofDigits (valuesOf digits) = 0 ↔ digits = ['0'] := by
  constructor
  · intro hzero
    rcases hdigits.lead with hlead | hlead
    · exact hlead
    · obtain ⟨ch, more, rfl⟩ := List.exists_cons_of_ne_nil hdigits.ne_nil
      have hdigit : 48 ≤ ch.toNat ∧ ch.toNat ≤ 57 :=
        Char.isDigit_iff_toNat.mp (hdigits.isDigit ch List.mem_cons_self)
      have hne : ch.toNat ≠ 48 := fun h => hlead (congrArg some (Char.toNat_inj.mp h))
      have hle := Decimal.mul_pow_le_digitsAfter (0 * 10 + (ch.toNat - 48)) (valuesOf more)
      have hpos : 0 < (0 * 10 + (ch.toNat - 48)) * 10 ^ (valuesOf more).length :=
        Nat.mul_pos (by omega) (by positivity)
      exact absurd hzero (Nat.ne_of_gt (hpos.trans_le hle))
  · rintro rfl
    rfl

namespace NumberLiteral

/-- A zero with a sign. -/
theorem text_eq_minusZero_iff {literal : NumberLiteral} (hinteger : literal.IsInteger) :
    literal.text = ['-', '0'] ↔
      literal.isNegative = true ∧ ofDigits (valuesOf literal.whole) = 0 := by
  have hunsigned : literal.unsigned = literal.whole := by
    simp [unsigned, exponentPart, fractionText, hinteger.1, hinteger.2]
  rw [literal.isWhole.ofDigits_eq_zero_iff, text, hunsigned]
  cases literal.isNegative with
  | true => simp
  | false =>
      simp only [Bool.false_eq_true, if_false, false_and, iff_false]
      intro htext
      exact absurd (literal.isWhole.isDigit '-' (by simp [htext])) (by decide)

/-- The literal is read as an integer, and as this one. -/
def Denotes (literal : NumberLiteral) (n : Int) : Prop :=
  literal.IsInteger ∧ integerValue? literal.isNegative (valuesOf literal.whole) = some n

/-- The integers of 64 bits are denoted, but for zero with a sign. -/
theorem denotes_iff {literal : NumberLiteral} {n : Int} : literal.Denotes n ↔
    literal.IsInteger ∧ literal.text ≠ ['-', '0'] ∧ literal.integer = n ∧ IsWord n := by
  unfold Denotes
  refine and_congr_right fun hinteger => ?_
  rw [integerValue?_eq_some_iff, ne_eq, text_eq_minusZero_iff hinteger, integer]
  tauto

theorem Denotes.yields_readNumber {literal : NumberLiteral} {n : Int} (hdenotes : literal.Denotes n)
    (htail : EndsNumber tail) (hrest : c.rest = literal.unsigned ++ tail) :
    Yields (readNumber literal.isNegative c) (.integer n) tail := by
  obtain ⟨point, mark, after, fraction, exponent, hwhole, hfraction, hexponent, hafter, hparts⟩ :=
    literal.exists_parts htail hrest
  obtain ⟨rfl, rfl⟩ := hparts.mpr hdenotes.1
  refine ⟨after, ?_, hafter⟩
  simp only [readNumber, hwhole, hfraction, hexponent, hdenotes.2, bind, Except.bind]

/-- What is read as no integer is read as a float, if as anything. -/
theorem readNumber_of_not_denotes {literal : NumberLiteral} (hnone : ∀ n, ¬literal.Denotes n)
    (htail : EndsNumber tail) (hrest : c.rest = literal.unsigned ++ tail) :
    (∃ x, Yields (readNumber literal.isNegative c) (.float x) tail) ∨
      ∃ fault, readNumber literal.isNegative c = .error fault := by
  obtain ⟨point, mark, after, fraction, exponent, hwhole, hfraction, hexponent, hafter, hparts⟩ :=
    literal.exists_parts htail hrest
  have hread : readNumber literal.isNegative c = (floatValue literal.isNegative
      (valuesOf literal.whole) (fraction.getD []) exponent after).map (·, after) := by
    simp only [readNumber, hwhole, hfraction, hexponent, bind, Except.bind]
    split
    · rename_i n hvalue
      exact absurd ⟨hparts.mp ⟨rfl, rfl⟩, hvalue⟩ (hnone n)
    · rfl
  rw [hread]
  rcases floatValue_cases literal.isNegative (valuesOf literal.whole) (fraction.getD []) exponent
    after with ⟨x, hx⟩ | ⟨fault, hfault⟩
  · exact .inl ⟨x, after, by rw [hx]; rfl, hafter⟩
  · exact .inr ⟨fault, by rw [hfault]; rfl⟩

theorem startsToken_text (literal : NumberLiteral) (tail : List Char) :
    StartsToken (literal.text ++ tail) := by
  unfold text
  split
  · exact startsToken_cons rfl _
  · obtain ⟨ch, more, hcons, hdigit⟩ := literal.startsDigit_unsigned
    rw [hcons]
    exact startsToken_cons (isBlank_of_isDigit hdigit).1 _

/-- The first character tells that the value is a number. -/
theorem readValue_eq_readNumber (literal : NumberLiteral) {fuel depth : Nat}
    (hrest : c.skipBlanks.rest = literal.text ++ tail) :
    ∃ start, start.rest = literal.unsigned ++ tail ∧
      readValue (fuel + 1) depth c = readNumber literal.isNegative start := by
  unfold text at hrest
  cases hsign : literal.isNegative with
  | true =>
      rw [hsign, if_pos rfl, List.cons_append] at hrest
      refine ⟨c.skipBlanks.next, Cursor.rest_next_of_cons hrest, ?_⟩
      simp only [readValue, hrest]
  | false =>
      rw [hsign, if_neg Bool.false_ne_true] at hrest
      obtain ⟨ch, more, hcons, hdigit⟩ := literal.startsDigit_unsigned
      refine ⟨c.skipBlanks, hrest, ?_⟩
      rw [hcons, List.cons_append] at hrest
      exact readValue_of_isDigit hdigit hrest

theorem Denotes.spells {literal : NumberLiteral} {n : Int} (hdenotes : literal.Denotes n) :
    Spells literal.text (.integer n) where
  startsToken := literal.startsToken_text
  yields c tail fuel depth htail hrest := by
    obtain ⟨start, hstart, hread⟩ := literal.readValue_eq_readNumber hrest
    rw [hread]
    exact hdenotes.yields_readNumber htail hstart

/-- All other literals are floats at most. -/
theorem spellsOnly_float {literal : NumberLiteral} (hnone : ∀ n, ¬literal.Denotes n) :
    SpellsOnly literal.text fun value => ∃ x, value = .float x where
  startsToken := literal.startsToken_text
  reads c tail fuel depth htail hrest := by
    obtain ⟨start, hstart, hread⟩ := literal.readValue_eq_readNumber hrest
    rw [hread]
    rcases readNumber_of_not_denotes hnone htail hstart with ⟨x, hx⟩ | hfault
    · exact .inl ⟨.float x, ⟨x, rfl⟩, hx⟩
    · exact .inr hfault

end NumberLiteral

end DocIndex.Json
