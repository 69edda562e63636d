import DocIndex.Decimal.Digits
import DocIndex.Proofs.Decimal.ReadingBack
import DocIndex.Proofs.Json.Rereading

/-!
Floats that come back from their texts. The digits of a text are gathered as one number; while this
has less than 54 binary digits, and the power of ten that it is scaled by is small, the reader
rounds only once, and comes to the float that was written.
-/

namespace DocIndex.Json

/-- The digits of a number in a text, without those of its exponent. -/
def writtenDigits (text : List Char) : List Char :=
  (text.takeWhile (· ≠ 'e')).filter Char.isDigit

/--
The digits of the text of a float are less than `2 ^ 53` as one number, and its shortest decimal has
no power of ten beyond `10 ^ 22` or `10 ^ -22`.
-/
def IsShort (x : Float) : Prop :=
  Decimal.digitsValue (writtenDigits (floatText x)) < 2 ^ 53 ∧
    (Decimal.shortest x).exponent.natAbs ≤ 22

instance (x : Float) : Decidable (IsShort x) :=
  inferInstanceAs (Decidable (_ ∧ _))

theorem isDigit_ne_e {ch : Char} (hch : ch.isDigit = true) : ch ≠ 'e' := by
  rintro rfl
  contradiction

/-- A point and an exponent part the digits of a text. -/
theorem writtenDigits_eq {whole fraction rest : List Char}
    (hwhole : ∀ ch ∈ whole, ch.isDigit = true) (hfraction : ∀ ch ∈ fraction, ch.isDigit = true)
    (hrest : ∀ ch ∈ rest.head?, ch = 'e') :
    writtenDigits (whole ++ (fractionText fraction ++ rest)) = whole ++ fraction := by
  have hpart {digits others : List Char} (hdigits : ∀ ch ∈ digits, ch.isDigit = true) :
      writtenDigits (digits ++ others) = digits ++ writtenDigits others := by
    rw [writtenDigits, List.takeWhile_append_of_pos (fun ch hch => by
      simpa using isDigit_ne_e (hdigits ch hch)), List.filter_append,
      List.filter_eq_self.mpr hdigits, writtenDigits]
  have hend : writtenDigits rest = [] := by
    cases rest with
    | nil => rfl
    | cons ch more =>
        obtain rfl := hrest ch rfl
        rfl
  rw [hpart hwhole]
  congr 1
  unfold fractionText
  split
  · rename_i hnone
    rw [hnone, List.nil_append, hend]
  · have hpoint : writtenDigits ('.' :: fraction ++ rest) = writtenDigits (fraction ++ rest) := rfl
    rw [hpoint, hpart hfraction, hend, List.append_nil]

theorem writtenDigits_floatText {x : Float} (hx : x.isFinite = true) :
    writtenDigits (floatText x) = writtenDigits ((Decimal.shortest x).render floatLayout) := by
  rw [floatText_of_isFinite hx]
  split <;> rfl

theorem writtenDigits_point {whole fraction : List Char}
    (hwhole : ∀ ch ∈ whole, ch.isDigit = true) (hfraction : ∀ ch ∈ fraction, ch.isDigit = true)
    (hsome : fraction ≠ []) : writtenDigits (whole ++ '.' :: fraction) = whole ++ fraction := by
  have hend : ∀ ch ∈ ([] : List Char).head?, ch = 'e' := by simp
  have hparts := writtenDigits_eq hwhole hfraction hend
  rwa [fractionText, if_neg hsome, List.append_nil] at hparts

theorem writtenDigits_scientific {digits : List Char} (hdigits : ∀ ch ∈ digits, ch.isDigit = true)
    (hsome : digits ≠ []) (exponent : Int) :
    writtenDigits (Decimal.scientific digits exponent) = digits := by
  obtain ⟨lead, fraction, rfl⟩ := List.exists_cons_of_ne_nil hsome
  rw [List.forall_mem_cons] at hdigits
  have hlead : ∀ ch ∈ [lead], ch.isDigit = true := by simpa using hdigits.1
  rw [scientific_cons]
  exact writtenDigits_eq hlead hdigits.2 (by simp [exponentText])

theorem digitsValue_eq (digits : List Char) :
    Decimal.digitsValue digits = ofDigits (valuesOf digits) :=
  List.foldl_map.symm

/-! Texts of exact parts -/

/-- A text, after its sign, is read as digits that are scaled by a power of ten. -/
def SpellsScaled (text : List Char) (significand : Nat) (exponent : Int) : Prop :=
  ∀ isNegative y, Decimal.scale significand exponent = some y →
    SpellsFloat isNegative text (signed isNegative y)

/-- All digits before and after a point are gathered, if they are few. -/
theorem spellsScaled_of_point {whole fraction : List Char} (hwhole : IsWhole whole)
    (hfraction : ∀ ch ∈ fraction, ch.isDigit = true) (hsome : fraction ≠ [])
    (hsmall : ofDigits (valuesOf (whole ++ fraction)) < UInt64.size) :
    SpellsScaled (whole ++ '.' :: fraction) (ofDigits (valuesOf (whole ++ fraction)))
      (-fraction.length) := by
  intro isNegative y hscale
  have hparts : ofDigits (valuesOf (whole ++ fraction)) =
      Decimal.digitsAfter (Decimal.digitsAfter 0 (valuesOf whole)) (valuesOf fraction) := by
    rw [valuesOf_append]
    exact Decimal.digitsAfter_append 0 _ _
  rw [hparts] at hsmall hscale
  have hfirst : Decimal.digitsAfter 0 (valuesOf whole) < UInt64.size :=
    (Nat.le_mul_of_pos_right _ (by positivity)).trans_lt
      ((Decimal.mul_pow_le_digitsAfter _ _).trans_lt hsmall)
  refine spellsFloat_of_point isNegative hwhole hfraction hsome ?_
  rw [Decimal.gather_of_small hfirst, Decimal.gather_of_small hsmall, ← hscale]
  congr 1
  simp only [valuesOf, List.length_map]
  omega

theorem spellsScaled_scientific {digits : List Char} (hdigits : ∀ ch ∈ digits, ch.isDigit = true)
    (hsome : digits ≠ []) {exponent : Int} (hlead : exponent.natAbs < 2147483648)
    (hsmall : ofDigits (valuesOf digits) < UInt64.size) :
    SpellsScaled (Decimal.scientific digits exponent) (ofDigits (valuesOf digits))
      (exponent - digits.length + 1) := by
  intro isNegative y hscale
  refine spellsFloat_scientific isNegative hdigits hsome hlead ?_
  have hgather : Decimal.gather 0 (valuesOf digits) =
      (ofDigits (valuesOf digits), (valuesOf digits).length) := Decimal.gather_of_small hsmall
  rw [Decimal.readBack, hgather, ← hscale]
  congr 1
  simp only [valuesOf, List.length_map]
  omega

/-- A text is read as a number whose digits and whose power of ten are exact floats. -/
def IsShortText (text : List Char) (v : ℚ) : Prop :=
  ∃ (significand : Nat) (exponent : Int), SpellsScaled text significand exponent ∧
    significand < 2 ^ 53 ∧ exponent.natAbs ≤ 22 ∧ (significand : ℚ) * 10 ^ exponent = v

section Layouts

variable {digits : List Char} {exponent : Int}

theorem isShortText_positional (hdigits : ∀ ch ∈ digits, ch.isDigit = true) (hsome : digits ≠ [])
    (hhead : digits.head? ≠ some '0') (hexponent : exponent.natAbs ≤ 22)
    (hsmall : Decimal.digitsValue
      (writtenDigits (Decimal.positional digits (exponent + digits.length) true)) < 2 ^ 53) :
    IsShortText (Decimal.positional digits (exponent + digits.length) true)
      (ofDigits (valuesOf digits) * 10 ^ exponent) := by
  obtain ⟨whole, fraction, htext, hpointed⟩ :=
    exists_isPointed hdigits hsome hhead (exponent + digits.length)
  have hlength := hpointed.length_fraction
  have hwritten :=
    writtenDigits_point hpointed.isWhole.isDigit hpointed.isFraction hpointed.ne_nil
  rw [htext, hwritten, digitsValue_eq] at hsmall
  rw [htext]
  refine ⟨_, _, spellsScaled_of_point hpointed.isWhole hpointed.isFraction hpointed.ne_nil
    (hsmall.trans (by decide)), hsmall, by omega, ?_⟩
  have hzeros : (fraction.length + (exponent + digits.length) - digits.length : Int) =
      fraction.length + exponent := by omega
  have hshift : ((fraction.length + exponent).toNat : Int) + -fraction.length = exponent := by
    omega
  rw [hpointed.ofDigits_eq, hzeros, Nat.cast_mul, Nat.cast_pow, ← zpow_natCast, mul_assoc,
    Nat.cast_ofNat, ← zpow_add₀ (by norm_num), hshift]

theorem isShortText_scientific (hdigits : ∀ ch ∈ digits, ch.isDigit = true) (hsome : digits ≠ [])
    (hfew : digits.length ≤ 1000) (hexponent : exponent.natAbs ≤ 22)
    (hsmall : Decimal.digitsValue
      (writtenDigits (Decimal.scientific digits (exponent + digits.length - 1))) < 2 ^ 53) :
    IsShortText (Decimal.scientific digits (exponent + digits.length - 1))
      (ofDigits (valuesOf digits) * 10 ^ exponent) := by
  rw [writtenDigits_scientific hdigits hsome, digitsValue_eq] at hsmall
  have hlead : (exponent + digits.length - 1).natAbs < 2147483648 := by omega
  have hspells := spellsScaled_scientific hdigits hsome hlead (hsmall.trans (by decide))
  have hshift : exponent + digits.length - 1 - digits.length + 1 = exponent := by omega
  rw [hshift] at hspells
  exact ⟨_, _, hspells, hsmall, hexponent, rfl⟩

end Layouts

theorem isShortText_render {n : Decimal.Scaled} (hn : n.digits ≠ 0) (hmoderate : n.IsModerate)
    (hsmall : Decimal.digitsValue (writtenDigits (n.render floatLayout)) < 2 ^ 53)
    (hexponent : n.exponent.natAbs ≤ 22) : IsShortText (n.render floatLayout) n.worth := by
  have hdigits := isDigit_of_mem_digitChars (n := n.digits)
  have hsome := digitChars_ne_nil n.digits
  have hworth : n.worth = ofDigits (valuesOf (Decimal.digitChars n.digits)) * 10 ^ n.exponent := by
    rw [ofDigits_valuesOf, Decimal.Scaled.worth]
  have hpoint : n.exponent + (Decimal.digitChars n.digits).length - 1 + 1 =
      n.exponent + (Decimal.digitChars n.digits).length := sub_add_cancel _ _
  unfold Decimal.Scaled.render at hsmall ⊢
  simp only [if_neg hn, hpoint] at hsmall ⊢
  rw [hworth]
  split at hsmall
  · rename_i hpositional
    rw [if_pos hpositional]
    exact isShortText_positional hdigits hsome (head_toDigits_ne_zero hn) hexponent hsmall
  · rename_i hscientific
    rw [if_neg hscientific]
    exact isShortText_scientific hdigits hsome hmoderate.length_le hexponent hsmall

/-- A zero is read with its sign. -/
theorem reread_of_zero {x : Float} (hzero : (Decimal.Binary.ofBits x.toBits.toNat).mantissa = 0) :
    reread x = x := by
  rcases Decimal.Binary.eq_zero_of_mantissa x.toBits.toNat_lt hzero with hbits | hbits
  · have hword : x.toBits = 0 := UInt64.toNat_inj.mp hbits
    rw [← Float.ofBits_toBits x, hword]
    decide +kernel
  · have hword : x.toBits = 0x8000000000000000 := UInt64.toNat_inj.mp hbits
    rw [← Float.ofBits_toBits x, hword]
    decide +kernel

/-- A short float comes back from its text. -/
theorem reread_of_isShort {x : Float} (hx : x.isFinite = true) (hshort : IsShort x) :
    reread x = x := by
  obtain ⟨hsmall, hexponent⟩ := hshort
  by_cases hzero : (Decimal.Binary.ofBits x.toBits.toNat).mantissa = 0
  · exact reread_of_zero hzero
  · have hpos := Decimal.shortest_worth_pos hx (Nat.pos_of_ne_zero hzero)
    have hdigits : (Decimal.shortest x).digits ≠ 0 := by
      intro hnone
      rw [Decimal.Scaled.worth, hnone, Nat.cast_zero, zero_mul] at hpos
      exact lt_irrefl 0 hpos
    rw [writtenDigits_floatText hx] at hsmall
    obtain ⟨significand, exponent, hspells, hlt, hpower, hworth⟩ :=
      isShortText_render hdigits (Decimal.shortest_isModerate hx) hsmall hexponent
    have hsome : 0 < significand := by
      rw [Nat.pos_iff_ne_zero]
      rintro rfl
      rw [Nat.cast_zero, zero_mul] at hworth
      exact hpos.ne hworth
    obtain ⟨y, hscale, hback⟩ := Decimal.scale_shortest hx hsome hlt hpower hworth
    have hsigned : signed (decide (signWeight ≤ x.toBits.toNat)) y = x := by
      simpa only [signed, decide_eq_true_eq, ← Nat.not_lt, ite_not] using hback
    have htext := hspells (decide (signWeight ≤ x.toBits.toNat)) y hscale
    rw [hsigned] at htext
    exact (readsAs_of_spellsFloat hx htext).reread_eq

/-- The zero after the point counts as a digit, so not even all whole numbers come back. -/
example : reread 7205759403792796 ≠ 7205759403792796 := by decide +kernel

end DocIndex.Json
