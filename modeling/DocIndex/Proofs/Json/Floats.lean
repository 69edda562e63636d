import DocIndex.Json.Writer
import DocIndex.Proofs.Decimal.Shortest
import DocIndex.Proofs.Json.Literal

/-!
Written floats are read as floats. Digits, a point and an exponent are taken apart as they were put
together; the float that comes of them need not be the one that was written, but there is one.
-/

namespace DocIndex

namespace Decimal

open Json (valuesOf)

theorem digitsAfter_valuesOf (n : Nat) : digitsAfter 0 (valuesOf (digitChars n)) = n :=
  Json.ofDigits_valuesOf n

/-- The greatest numbers are read back as well, by their own digits. -/
theorem exists_readBack_of_isGreatest {b : Binary} (hfinite : b.IsFinite) (hb : b.IsGreatest) :
    ∃ y, readBack (valuesOf (digitChars b.shortest.digits)) b.shortest.exponent = some y := by
  have hgreatest : ∀ n < 6, ∀ nearBelow : Bool,
      (readBack (valuesOf (digitChars (Binary.shortest ⟨2 ^ 53 - 1 - n, 971, nearBelow⟩).digits))
        (Binary.shortest ⟨2 ^ 53 - 1 - n, 971, nearBelow⟩).exponent).isSome = true := by
    decide +kernel
  obtain ⟨mantissa, exponent, nearBelow⟩ := b
  obtain ⟨hmantissa, rfl⟩ : 2 ^ 53 - 6 ≤ mantissa ∧ exponent = 971 := hb
  have hlt : mantissa < 2 ^ 53 := hfinite.mantissa_lt
  have hsome := hgreatest (2 ^ 53 - 1 - mantissa) (by omega) nearBelow
  rw [Nat.sub_sub_self (by omega)] at hsome
  exact Option.isSome_iff_exists.mp hsome

/-- The digits of the shortest decimal of a finite number are read back. -/
theorem exists_readBack_shortest {x : Float} (hx : x.isFinite = true) :
    ∃ y, readBack (valuesOf (digitChars (shortest x).digits)) (shortest x).exponent = some y := by
  have hfinite := Binary.isFinite_ofBits hx
  rw [shortest]
  split
  · have hzero : (digitsAfter 0 (valuesOf (digitChars 0)) : ℚ) * 10 ^ (0 : Int) ≤
        Binary.limit := by
      rw [digitsAfter_valuesOf, Nat.cast_zero, zero_mul]
      exact mul_nonneg (by norm_num) (by positivity)
    exact exists_readBack hzero
  · by_cases hgreatest : (Binary.ofBits x.toBits.toNat).IsGreatest
    · exact exists_readBack_of_isGreatest hfinite hgreatest
    · refine exists_readBack ?_
      rw [digitsAfter_valuesOf]
      exact Binary.shortest_worth hfinite hgreatest

theorem shortest_isModerate {x : Float} (hx : x.isFinite = true) : (shortest x).IsModerate := by
  rw [shortest]
  split
  · exact ⟨by decide, by decide, by decide⟩
  · exact Binary.shortest_isModerate (Binary.isFinite_ofBits hx)

end Decimal

namespace Json

variable {c : Cursor} {tail : List Char}

theorem endsDigits_cons {ch : Char} (hch : ch.isDigit = false) (text : List Char) :
    EndsDigits (ch :: text) := by
  intro other hother
  obtain rfl := Option.some.inj hother
  exact hch

theorem yields_readFraction? {digits : List Char} (hdigits : ∀ ch ∈ digits, ch.isDigit = true)
    (hsome : digits ≠ []) (htail : EndsDigits tail) (hrest : c.rest = '.' :: (digits ++ tail)) :
    Yields (readFraction? c) (some (valuesOf digits)) tail := by
  obtain ⟨after, hread, hafter⟩ := yields_readDigits hdigits htail (Cursor.rest_next_of_cons hrest)
  refine ⟨after, ?_, hafter⟩
  obtain ⟨ch, more, rfl⟩ := List.exists_cons_of_ne_nil hsome
  simp only [valuesOf, List.map_cons] at hread ⊢
  simp only [readFraction?, hrest, hread]

/-- The digits of an exponent are gathered if its number has 32 bits with a sign. -/
theorem gatherExponent_eq_ok {before : Nat} {digits : List Nat}
    (hsmall : Decimal.digitsAfter before digits < 2147483648) (c : Cursor) :
    gatherExponent before digits c = .ok (Decimal.digitsAfter before digits) := by
  induction digits generalizing before c with
  | nil => rfl
  | cons digit rest ih =>
      have hlast : before * 10 + digit ≤ Decimal.digitsAfter before (digit :: rest) := by
        have hle := Decimal.mul_pow_le_digitsAfter (before * 10 + digit) rest
        exact (Nat.le_mul_of_pos_right _ (by positivity)).trans hle
      rw [gatherExponent, if_pos (hlast.trans_lt hsmall)]
      exact ih hsmall c.next

theorem yields_readExponent? {n : Int} (hn : n.natAbs < 2147483648) (htail : EndsDigits tail)
    (hrest : c.rest =
      'e' :: (if n < 0 then '-' else '+') :: (Decimal.digitChars n.natAbs ++ tail)) :
    Yields (readExponent? c) (some (.value n)) tail := by
  have hafterMark := Cursor.rest_next_of_cons hrest
  have hsign : readSign c.next = (decide (n < 0), c.next.next) := by
    by_cases hnegative : n < 0 <;> simp [readSign, hafterMark, hnegative]
  have hdigits := Cursor.rest_next_of_cons hafterMark
  obtain ⟨after, hread, hafter⟩ := yields_readDigits isDigit_of_mem_digitChars htail hdigits
  have hgather : gatherExponent 0 (valuesOf (Decimal.digitChars n.natAbs)) c.next.next =
      .ok n.natAbs := by
    have hsmall := (Decimal.digitsAfter_valuesOf n.natAbs).trans_lt hn
    rw [gatherExponent_eq_ok hsmall, Decimal.digitsAfter_valuesOf]
  refine ⟨after, ?_, hafter⟩
  obtain ⟨ch, more, hcons⟩ := List.exists_cons_of_ne_nil (digitChars_ne_nil n.natAbs)
  have hisDigit : ch.isDigit = true := isDigit_of_mem_digitChars ch (hcons ▸ List.mem_cons_self)
  have hmark : isExponentMark 'e' = true := rfl
  have hvalue : (if n < 0 then -(n.natAbs : Int) else n.natAbs) = n := by omega
  rw [hcons, List.cons_append] at hdigits
  simp only [readExponent?, hrest, hmark, if_true, hsign, hdigits, hisDigit, hread, hgather,
    decide_eq_true_eq, hvalue]

/-! Whole numbers, and the two layouts -/

/-- A text, after its sign, is read as this float wherever it stands. -/
def SpellsFloat (isNegative : Bool) (text : List Char) (y : Float) : Prop :=
  ∀ ⦃c : Cursor⦄ ⦃tail : List Char⦄, EndsNumber tail → c.rest = text ++ tail →
    Yields (readNumber isNegative c) (.float y) tail

/-- A text, after its sign, is read as one float wherever it stands. -/
def IsFloatText (isNegative : Bool) (text : List Char) : Prop :=
  ∃ y, SpellsFloat isNegative text y

def signed (isNegative : Bool) (y : Float) : Float :=
  if isNegative then -y else y

theorem floatValue_eq (isNegative : Bool) {whole fraction : List Nat} {exponent : Int} {y : Float}
    (hscale : Decimal.scale (Decimal.gather (Decimal.gather 0 whole).1 fraction).1
      ((whole.length : Int) - (Decimal.gather 0 whole).2 -
        (Decimal.gather (Decimal.gather 0 whole).1 fraction).2 + exponent) = some y)
    (after : Cursor) :
    floatValue isNegative whole fraction (some (.value exponent)) after =
      .ok (.float (signed isNegative y)) := by
  simp only [floatValue, hscale, signed]

theorem floatValue_none (isNegative : Bool) (whole fraction : List Nat) (after : Cursor) :
    floatValue isNegative whole fraction none after =
      floatValue isNegative whole fraction (some (.value 0)) after := by
  simp only [floatValue, Int.add_zero]

/-- Digits before a point, and digits after it. -/
theorem spellsFloat_of_point (isNegative : Bool) {whole fraction : List Char}
    (hwhole : IsWhole whole) (hfraction : ∀ ch ∈ fraction, ch.isDigit = true)
    (hsome : fraction ≠ []) {y : Float}
    (hscale : Decimal.scale
      (Decimal.gather (Decimal.gather 0 (valuesOf whole)).1 (valuesOf fraction)).1
      (((valuesOf whole).length : Int) - (Decimal.gather 0 (valuesOf whole)).2 -
        (Decimal.gather (Decimal.gather 0 (valuesOf whole)).1 (valuesOf fraction)).2 + 0) =
        some y) :
    SpellsFloat isNegative (whole ++ '.' :: fraction) (signed isNegative y) := by
  intro c tail htail hrest
  rw [List.append_assoc, List.cons_append] at hrest
  obtain ⟨point, hread, hpoint⟩ := yields_readWhole hwhole (endsDigits_cons rfl _) hrest
  obtain ⟨after, hreadFraction, hafter⟩ :=
    yields_readFraction? hfraction hsome htail.endsDigits hpoint
  refine ⟨after, ?_, hafter⟩
  rw [← hafter] at htail
  simp only [readNumber, hread, hreadFraction, readExponent?_of_endsNumber htail, bind,
    Except.bind, Option.getD_some, floatValue_none, floatValue_eq isNegative hscale]

/-- Few digits before a point, and any number of them after it. -/
theorem isFloatText_of_point {isNegative : Bool} {whole fraction : List Char}
    (hwhole : IsWhole whole) (hshort : whole.length ≤ 17)
    (hfraction : ∀ ch ∈ fraction, ch.isDigit = true) (hsome : fraction ≠ []) :
    IsFloatText isNegative (whole ++ '.' :: fraction) := by
  have hzero : 0 < UInt64.size := by decide
  have hfirst := (Decimal.gather_le hzero (valuesOf whole)).1
  have hword := (Decimal.gather_le hfirst (valuesOf fraction)).1
  have hlength : (valuesOf whole).length = whole.length := List.length_map _
  have hexponent : ((valuesOf whole).length : Int) - (Decimal.gather 0 (valuesOf whole)).2 -
      (Decimal.gather (Decimal.gather 0 (valuesOf whole)).1 (valuesOf fraction)).2 + 0 ≤ 17 := by
    omega
  obtain ⟨y, hy⟩ := Decimal.exists_scale_of_short hword hexponent
  exact ⟨_, spellsFloat_of_point isNegative hwhole hfraction hsome hy⟩

theorem isWhole_zero : IsWhole ['0'] :=
  isWhole_digitChars 0

/-- Digits before a point may begin with any other digit than zero. -/
theorem IsWhole.of_head {digits : List Char} (hdigits : ∀ ch ∈ digits, ch.isDigit = true)
    (hsome : digits ≠ []) (hhead : digits.head? ≠ some '0') : IsWhole digits :=
  ⟨hdigits, hsome, .inr hhead⟩

theorem isDigit_append {digits others : List Char} (hdigits : ∀ ch ∈ digits, ch.isDigit = true)
    (hothers : ∀ ch ∈ others, ch.isDigit = true) : ∀ ch ∈ digits ++ others, ch.isDigit = true :=
  List.forall_mem_append.mpr ⟨hdigits, hothers⟩

theorem isDigit_zeros (n : Nat) : ∀ ch ∈ List.replicate n '0', ch.isDigit = true := by
  intro ch hch
  obtain rfl := List.eq_of_mem_replicate hch
  rfl

theorem valuesOf_append (digits others : List Char) :
    valuesOf (digits ++ others) = valuesOf digits ++ valuesOf others :=
  List.map_append

theorem ofDigits_zeros_append (n : Nat) (digits : List Char) :
    ofDigits (valuesOf (List.replicate n '0' ++ digits)) = ofDigits (valuesOf digits) := by
  induction n with
  | zero => rfl
  | succ n ih => exact ih

theorem ofDigits_append_zeros (digits : List Char) (n : Nat) :
    ofDigits (valuesOf (digits ++ List.replicate n '0')) =
      ofDigits (valuesOf digits) * 10 ^ n := by
  induction n with
  | zero => rw [List.replicate_zero, List.append_nil, Nat.pow_zero, Nat.mul_one]
  | succ n ih =>
      rw [List.replicate_succ', ← List.append_assoc, valuesOf_append, ofDigits, List.foldl_append,
        ← ofDigits, ih, Nat.pow_succ, ← Nat.mul_assoc]
      rfl

/-- Digits with a point among them, or zeros between them and the point. -/
structure IsPointed (digits : List Char) (pointAt : Int) (whole fraction : List Char) : Prop where
  isWhole : IsWhole whole
  isFraction : ∀ ch ∈ fraction, ch.isDigit = true
  ne_nil : fraction ≠ []
  length_whole : (whole.length : Int) ≤ max 1 pointAt
  length_fraction : (fraction.length : Int) = max 1 (digits.length - pointAt)
  /-- Only zeros are added, and those before the point count. -/
  ofDigits_eq : ofDigits (valuesOf (whole ++ fraction)) =
    ofDigits (valuesOf digits) * 10 ^ (fraction.length + pointAt - digits.length).toNat

theorem exists_isPointed {digits : List Char} (hdigits : ∀ ch ∈ digits, ch.isDigit = true)
    (hsome : digits ≠ []) (hhead : digits.head? ≠ some '0') (pointAt : Int) :
    ∃ whole fraction, Decimal.positional digits pointAt true = whole ++ '.' :: fraction ∧
      IsPointed digits pointAt whole fraction := by
  have hlength := List.length_pos_iff.mpr hsome
  unfold Decimal.positional
  split
  · rename_i n
    refine ⟨['0'], List.replicate (n + 1) '0' ++ digits, rfl, isWhole_zero,
      isDigit_append (isDigit_zeros (n + 1)) hdigits, by simp, by simp, ?_, ?_⟩
    · rw [List.length_append, List.length_replicate]
      omega
    · have hnone : (((List.replicate (n + 1) '0' ++ digits).length : Int) + Int.negSucc n -
          digits.length).toNat = 0 := by
        rw [List.length_append, List.length_replicate]
        omega
      rw [hnone, Nat.pow_zero, Nat.mul_one]
      exact ofDigits_zeros_append (n + 2) digits
  · refine ⟨['0'], digits, rfl, isWhole_zero, hdigits, hsome, by simp, ?_, ?_⟩
    · show (digits.length : Int) = max 1 ((digits.length : Int) - 0)
      omega
    · have hnone : ((digits.length : Int) + Int.ofNat 0 - digits.length).toNat = 0 := by
        show ((digits.length : Int) + 0 - digits.length).toNat = 0
        omega
      rw [hnone, Nat.pow_zero, Nat.mul_one]
      exact ofDigits_zeros_append 1 digits
  · rename_i n hn
    have hpos : n ≠ 0 := fun h => hn (by rw [h])
    rw [Int.ofNat_eq_natCast]
    split
    · rename_i hlong
      refine ⟨digits ++ List.replicate (n - digits.length) '0', ['0'], rfl, ?_, isDigit_zeros 1,
        by decide, ?_, ?_, ?_⟩
      · refine .of_head (isDigit_append hdigits (isDigit_zeros _)) (by simp [hsome]) ?_
        rwa [List.head?_append_of_ne_nil _ hsome]
      · rw [List.length_append, List.length_replicate]
        omega
      · rw [List.length_singleton]
        omega
      · have hmore : ((['0'].length : Int) + n - digits.length).toNat =
            n - digits.length + 1 := by
          rw [List.length_singleton]
          omega
        rw [hmore, List.append_assoc, ← List.replicate_succ', ofDigits_append_zeros]
    · rename_i hlong
      refine ⟨digits.take n, digits.drop n, rfl, ?_,
        fun ch hch => hdigits ch (List.mem_of_mem_drop hch), by simpa using hlong, ?_, ?_, ?_⟩
      · refine .of_head (fun ch hch => hdigits ch (List.mem_of_mem_take hch))
          (by simp [hsome, hpos]) ?_
        rwa [List.head?_take, if_neg hpos]
      · rw [List.length_take]
        omega
      · rw [List.length_drop]
        omega
      · have hnone : (((digits.drop n).length : Int) + n - digits.length).toNat = 0 := by
          rw [List.length_drop]
          omega
        rw [hnone, Nat.pow_zero, Nat.mul_one, List.take_append_drop]

theorem isFloatText_positional {isNegative : Bool} {digits : List Char}
    (hdigits : ∀ ch ∈ digits, ch.isDigit = true) (hsome : digits ≠ [])
    (hhead : digits.head? ≠ some '0') {pointAt : Int} (hshort : pointAt ≤ 17) :
    IsFloatText isNegative (Decimal.positional digits pointAt true) := by
  obtain ⟨whole, fraction, htext, hpointed⟩ := exists_isPointed hdigits hsome hhead pointAt
  have hfew := hpointed.length_whole
  rw [htext]
  exact isFloatText_of_point hpointed.isWhole (by omega) hpointed.isFraction hpointed.ne_nil

def exponentText (n : Int) : List Char :=
  'e' :: (if n < 0 then '-' else '+') :: Decimal.digitChars n.natAbs

theorem floatValue_of_readBack (isNegative : Bool) {lead : Char} (hlead : lead.isDigit = true)
    {fraction : List Char} {exponent : Int} {y : Float}
    (hback : Decimal.readBack (valuesOf (lead :: fraction))
      (exponent - (lead :: fraction).length + 1) = some y) (after : Cursor) :
    floatValue isNegative (valuesOf [lead]) (valuesOf fraction) (some (.value exponent)) after =
      .ok (.float (signed isNegative y)) := by
  refine floatValue_eq isNegative ?_ after
  have hfits : 0 * 10 + (lead.toNat - 48) < UInt64.size := by
    have hbound : lead.toNat ≤ 57 := (Char.isDigit_iff_toNat.mp hlead).2
    exact (by omega : 0 * 10 + (lead.toNat - 48) < 58).trans (by decide)
  simp only [Decimal.readBack, valuesOf, List.map_cons, List.map_nil, Decimal.gather,
    if_pos hfits, List.length_cons, List.length_map, List.length_nil] at hback ⊢
  rw [← hback]
  congr 1
  push_cast
  ring

/-- The text of what follows the first digit; a point needs a digit after it. -/
def fractionText (fraction : List Char) : List Char :=
  if fraction = [] then [] else '.' :: fraction

theorem endsDigits_fractionText (fraction : List Char) (htail : EndsDigits tail) :
    EndsDigits (fractionText fraction ++ tail) := by
  unfold fractionText
  split
  · exact htail
  · exact endsDigits_cons rfl _

theorem exists_readFraction? {fraction : List Char}
    (hfraction : ∀ ch ∈ fraction, ch.isDigit = true) (htail : EndsDigits tail)
    (hpoint : tail.head? ≠ some '.') (hrest : c.rest = fractionText fraction ++ tail) :
    ∃ found, found.getD [] = valuesOf fraction ∧ (found = none ↔ fraction = []) ∧
      Yields (readFraction? c) found tail := by
  unfold fractionText at hrest
  split at hrest
  · rename_i hnone
    rw [List.nil_append] at hrest
    refine ⟨none, by rw [hnone]; rfl, by simp [hnone], c, ?_, hrest⟩
    exact readFraction?_of_ne (hrest ▸ hpoint)
  · rename_i hsome
    exact ⟨_, rfl, by simp [hsome], yields_readFraction? hfraction hsome htail hrest⟩

/-- One digit, perhaps a point and more digits, and an exponent. -/
theorem spellsFloat_of_exponent (isNegative : Bool) {lead : Char} (hlead : lead.isDigit = true)
    {fraction : List Char} (hfraction : ∀ ch ∈ fraction, ch.isDigit = true) {exponent : Int}
    (hsmall : exponent.natAbs < 2147483648) {y : Float}
    (hback : Decimal.readBack (valuesOf (lead :: fraction))
      (exponent - (lead :: fraction).length + 1) = some y) :
    SpellsFloat isNegative (lead :: fractionText fraction ++ exponentText exponent)
      (signed isNegative y) := by
  intro c tail htail hrest
  have hwhole : IsWhole [lead] := by
    refine ⟨by simpa using hlead, List.cons_ne_nil _ _, ?_⟩
    by_cases hzero : lead = '0'
    · exact .inl (by rw [hzero])
    · exact .inr (by simpa using hzero)
  have hmark : EndsDigits (exponentText exponent ++ tail) := endsDigits_cons rfl _
  have hpoint : (exponentText exponent ++ tail).head? ≠ some '.' := by simp [exponentText]
  have hstart : c.rest = [lead] ++ (fractionText fraction ++ (exponentText exponent ++ tail)) := by
    rw [hrest]
    simp
  obtain ⟨point, hread, hplace⟩ :=
    yields_readWhole hwhole (endsDigits_fractionText fraction hmark) hstart
  obtain ⟨found, hfound, -, place, hreadFraction, hplace⟩ :=
    exists_readFraction? hfraction hmark hpoint hplace
  obtain ⟨after, hexponent, hafter⟩ := yields_readExponent? hsmall htail.endsDigits hplace
  refine ⟨after, ?_, hafter⟩
  cases found <;>
    simp only [readNumber, hread, hreadFraction, hexponent, bind, Except.bind, hfound,
      floatValue_of_readBack isNegative hlead hback]

theorem scientific_cons (lead : Char) (fraction : List Char) (exponent : Int) :
    Decimal.scientific (lead :: fraction) exponent =
      lead :: fractionText fraction ++ exponentText exponent := by
  cases fraction <;> rfl

theorem spellsFloat_scientific (isNegative : Bool) {digits : List Char}
    (hdigits : ∀ ch ∈ digits, ch.isDigit = true) (hsome : digits ≠ []) {exponent : Int}
    (hsmall : exponent.natAbs < 2147483648) {y : Float}
    (hback : Decimal.readBack (valuesOf digits) (exponent - digits.length + 1) = some y) :
    SpellsFloat isNegative (Decimal.scientific digits exponent) (signed isNegative y) := by
  obtain ⟨lead, fraction, rfl⟩ := List.exists_cons_of_ne_nil hsome
  rw [List.forall_mem_cons] at hdigits
  rw [scientific_cons]
  exact spellsFloat_of_exponent isNegative hdigits.1 hdigits.2 hsmall hback

theorem isFloatText_render {isNegative : Bool} {n : Decimal.Scaled} (hmoderate : n.IsModerate)
    (hback : ∃ y, Decimal.readBack (valuesOf (Decimal.digitChars n.digits)) n.exponent = some y) :
    IsFloatText isNegative (n.render floatLayout) := by
  obtain ⟨hleast, hgreatest, hlength⟩ := hmoderate
  have hdigits := isDigit_of_mem_digitChars (n := n.digits)
  have hsome := digitChars_ne_nil n.digits
  unfold Decimal.Scaled.render
  dsimp only
  split
  · exact isFloatText_of_point isWhole_zero (by decide) isWhole_zero.isDigit (by decide)
  · rename_i hzero
    split
    · rename_i hpositional
      simp only [floatLayout, Bool.and_eq_true, decide_eq_true_eq] at hpositional
      exact isFloatText_positional hdigits hsome (head_toDigits_ne_zero hzero) (by omega)
    · have hpos := List.length_pos_iff.mpr hsome
      obtain ⟨y, hy⟩ := hback
      refine ⟨_, spellsFloat_scientific isNegative hdigits hsome (by omega) (y := y) ?_⟩
      rw [← hy]
      congr 1
      ring

theorem isFloatText_shortest (isNegative : Bool) {x : Float} (hx : x.isFinite = true) :
    IsFloatText isNegative ((Decimal.shortest x).render floatLayout) :=
  isFloatText_render (Decimal.shortest_isModerate hx) (Decimal.exists_readBack_shortest hx)

end Json

end DocIndex
