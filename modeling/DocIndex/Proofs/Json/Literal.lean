import DocIndex.Json.Writer
import DocIndex.Proofs.Json.Cursor
import Mathlib.Data.String.Basic

/-!
Written literals read back. A string within quotes is read as that string, whatever characters it
holds, and the digits of an integer of 64 bits, signed or not, are read as that integer.
-/

namespace DocIndex.Json

variable {c : Cursor} {tail : List Char}

/-! Strings -/

theorem hexDigit?_hexChar : ∀ n < 16, hexDigit? (hexChar n) = some n := by decide

theorem hexUnit?_of_small {n : Nat} (hn : n < 256) :
    hexUnit? ('0' :: '0' :: hexChar (n / 16) :: hexChar (n % 16) :: tail) = some n := by
  have hzero : hexDigit? '0' = some 0 := rfl
  have hhigh : hexDigit? (hexChar (n / 16)) = some (n / 16) := hexDigit?_hexChar _ (by omega)
  have hlow : hexDigit? (hexChar (n % 16)) = some (n % 16) := hexDigit?_hexChar _ (by omega)
  simp only [hexUnit?, hzero, hhigh, hlow, Option.pure_def, Option.bind_eq_bind, Option.bind_some,
    Option.some.injEq]
  omega

theorem length_le_byteCount (chars : List Char) : chars.length ≤ byteCount chars := by
  rw [byteCount, String.utf8ByteSize_ofList]
  induction chars with
  | nil => exact Nat.le_refl _
  | cons ch rest ih =>
      have hsize : 1 ≤ ch.utf8Size := Char.utf8Size_pos ch
      rw [String.utf8Len_cons, List.length_cons]
      omega

theorem yields_readUnit_of_small {n : Nat} (hn : n < 256)
    (hrest : c.rest = '0' :: '0' :: hexChar (n / 16) :: hexChar (n % 16) :: tail) :
    Yields (readUnit c) n tail := by
  have hlong : ¬ byteCount c.rest < 4 := by
    have := length_le_byteCount c.rest
    rw [hrest] at this ⊢
    simp only [List.length_cons] at this
    omega
  have hunit : hexUnit? c.rest = some n := by rw [hrest, hexUnit?_of_small hn]
  refine ⟨c.skip 4, ?_, ?_⟩
  · simp only [readUnit, if_neg hlong, hunit]
  · rw [Cursor.rest_skip, hrest]
    rfl

theorem yields_readEscape_of_simple {ch value : Char} (hch : simpleEscape? ch = some value)
    (hrest : c.rest = ch :: tail) : Yields (readEscape c) value tail := by
  refine ⟨c.next, ?_, Cursor.rest_next_of_cons hrest⟩
  simp only [readEscape, hrest, hch]

theorem yields_readEscape_of_unit {ch : Char} (hch : ch.toNat < 256)
    (hrest : c.rest = 'u' :: '0' :: '0' :: hexChar (ch.toNat / 16) :: hexChar (ch.toNat % 16)
      :: tail) : Yields (readEscape c) ch tail := by
  obtain ⟨after, hunit, hafter⟩ :=
    yields_readUnit_of_small hch (Cursor.rest_next_of_cons hrest)
  have hescape : simpleEscape? 'u' = none := rfl
  have hplain : ¬ (0xDC00 ≤ ch.toNat ∧ ch.toNat ≤ 0xDFFF) := by omega
  have hlead : ch.toNat < 0xD800 ∨ 0xDBFF < ch.toNat := by omega
  refine ⟨after, ?_, hafter⟩
  simp only [readEscape, hrest, hescape, if_true, readUnicodeEscape, hunit, bind, Except.bind,
    if_neg hplain, if_pos hlead, Char.ofNat_toNat]

theorem readStringRest_of_escape {fuel : Nat} {read : List Char} {text : List Char} {value : Char}
    (hrest : c.rest = '\\' :: text) (hescape : Yields (readEscape c.next) value tail) :
    ∃ after, readStringRest (fuel + 1) read c = readStringRest fuel (value :: read) after ∧
      after.rest = tail := by
  obtain ⟨after, hread, hafter⟩ := hescape
  refine ⟨after, ?_, hafter⟩
  have hquote : ¬ '\\' = '"' := by decide
  simp only [readStringRest, hrest, if_neg hquote, if_true, hread]

/-- One step of reading takes what stands for one character. -/
theorem readStringRest_escapeChar (ch : Char) (fuel : Nat) (read : List Char)
    (hrest : c.rest = escapeChar ch ++ tail) :
    ∃ after, readStringRest (fuel + 1) read c = readStringRest fuel (ch :: read) after ∧
      after.rest = tail := by
  have hsimple {letter : Char} (hletter : simpleEscape? letter = some ch)
      (hescaped : c.rest = '\\' :: letter :: tail) :
      ∃ after, readStringRest (fuel + 1) read c = readStringRest fuel (ch :: read) after ∧
        after.rest = tail :=
    readStringRest_of_escape hescaped
      (yields_readEscape_of_simple hletter (Cursor.rest_next_of_cons hescaped))
  unfold escapeChar at hrest
  split at hrest
  · subst ch
    exact hsimple rfl hrest
  split at hrest
  · subst ch
    exact hsimple rfl hrest
  split at hrest
  · subst ch
    exact hsimple rfl hrest
  split at hrest
  · subst ch
    exact hsimple rfl hrest
  split at hrest
  · subst ch
    exact hsimple rfl hrest
  split at hrest
  · subst ch
    exact hsimple rfl hrest
  split at hrest
  · subst ch
    exact hsimple rfl hrest
  split at hrest
  · rename_i hcontrol
    have hsmall : ch.toNat < 256 := by omega
    exact readStringRest_of_escape hrest
      (yields_readEscape_of_unit hsmall (Cursor.rest_next_of_cons hrest))
  · rename_i hquote hbackslash _ _ _ _ _ hcontrol
    have hrest' : c.rest = ch :: tail := hrest
    refine ⟨c.next, ?_, Cursor.rest_next_of_cons hrest'⟩
    simp only [readStringRest, hrest', if_neg hquote, if_neg hbackslash, if_neg hcontrol]

theorem yields_readStringRest (chars : List Char) {fuel : Nat} (hfuel : chars.length < fuel)
    (read : List Char) (hrest : c.rest = chars.flatMap escapeChar ++ '"' :: tail) :
    Yields (readStringRest fuel read c) (String.ofList (read.reverse ++ chars)) tail := by
  induction chars generalizing fuel read c with
  | nil =>
      obtain ⟨fuel, rfl⟩ := Nat.exists_eq_succ_of_ne_zero (Nat.ne_of_gt hfuel)
      have hquote : c.rest = '"' :: tail := hrest
      refine ⟨c.next, ?_, Cursor.rest_next_of_cons hquote⟩
      simp only [readStringRest, hquote, if_true, List.append_nil]
  | cons ch rest ih =>
      obtain ⟨fuel, rfl⟩ := Nat.exists_eq_succ_of_ne_zero (Nat.ne_of_gt (Nat.zero_lt_of_lt hfuel))
      rw [List.flatMap_cons, List.append_assoc] at hrest
      obtain ⟨after, hstep, hafter⟩ := readStringRest_escapeChar ch fuel read hrest
      have hyields := ih (Nat.lt_of_succ_lt_succ hfuel) (ch :: read) hafter
      rwa [List.reverse_cons, List.append_assoc, List.singleton_append, ← hstep] at hyields

theorem escapeChar_ne_nil (ch : Char) : escapeChar ch ≠ [] := by
  unfold escapeChar
  repeat' split
  all_goals simp

theorem length_le_flatMap_escapeChar (chars : List Char) :
    chars.length ≤ (chars.flatMap escapeChar).length := by
  induction chars with
  | nil => exact Nat.le_refl _
  | cons ch rest ih =>
      have hpos : 0 < (escapeChar ch).length := List.length_pos_iff.mpr (escapeChar_ne_nil ch)
      rw [List.flatMap_cons, List.length_append, List.length_cons]
      omega

/-- A string within quotes, after the opening one, reads back. -/
theorem yields_readString (s : String)
    (hrest : c.rest = s.toList.flatMap escapeChar ++ '"' :: tail) :
    Yields (readString c) s tail := by
  have hfuel : s.toList.length < c.rest.length + 1 := by
    have := length_le_flatMap_escapeChar s.toList
    rw [hrest, List.length_append]
    omega
  have hyields := yields_readStringRest s.toList hfuel [] hrest
  rwa [List.reverse_nil, List.nil_append, String.ofList_toList] at hyields

/-! Numbers -/

/-- A text that does not go on with a digit. -/
def EndsDigits (text : List Char) : Prop :=
  ∀ ch ∈ text.head?, ch.isDigit = false

/-- A text that does not go on with a number. -/
def EndsNumber (text : List Char) : Prop :=
  ∀ ch ∈ text.head?, ch.isDigit = false ∧ ch ≠ '.' ∧ isExponentMark ch = false

theorem EndsNumber.endsDigits (htail : EndsNumber tail) : EndsDigits tail :=
  fun ch hch => (htail ch hch).1

/-- The digits before a point: there is one, and no superfluous zero before the others. -/
structure IsWhole (digits : List Char) : Prop where
  isDigit : ∀ ch ∈ digits, ch.isDigit = true
  ne_nil : digits ≠ []
  lead : digits = ['0'] ∨ digits.head? ≠ some '0'

def valuesOf (digits : List Char) : List Nat :=
  digits.map fun ch => ch.toNat - 48

theorem yields_readDigits {digits : List Char} (hdigits : ∀ ch ∈ digits, ch.isDigit = true)
    (htail : EndsDigits tail) (hrest : c.rest = digits ++ tail) :
    ∃ after, readDigits c = (valuesOf digits, after) ∧ after.rest = tail := by
  have htake : c.rest.takeWhile Char.isDigit = digits := by
    rw [hrest, List.takeWhile_append_of_pos hdigits]
    cases tail with
    | nil => simp
    | cons ch rest => simp [htail ch rfl]
  refine ⟨c.skip digits.length, ?_, Cursor.rest_skip_of_append hrest⟩
  simp only [readDigits, htake, valuesOf]

theorem yields_readWhole {digits : List Char} (hdigits : IsWhole digits) (htail : EndsDigits tail)
    (hrest : c.rest = digits ++ tail) : Yields (readWhole c) (valuesOf digits) tail := by
  obtain ⟨hall, hnonempty, hlead⟩ := hdigits
  obtain ⟨after, hread, hafter⟩ := yields_readDigits hall htail hrest
  obtain ⟨ch, more, rfl⟩ := List.exists_cons_of_ne_nil hnonempty
  have hisDigit : ch.isDigit = true := hall ch List.mem_cons_self
  have hcons : c.rest = ch :: (more ++ tail) := hrest
  by_cases hzero : ch = '0'
  · subst hzero
    have hnone : more = [] := by
      rcases hlead with hlead | hlead
      · exact (List.cons.inj hlead).2
      · exact absurd rfl hlead
    subst hnone
    cases tail with
    | nil =>
        refine ⟨after, ?_, hafter⟩
        simp [readWhole, hcons, hread]
    | cons other rest =>
        -- A zero is read without a look at further digits.
        refine ⟨c.next, ?_, Cursor.rest_next_of_cons hcons⟩
        have hother : other.isDigit = false := htail other rfl
        simp [readWhole, hcons, hother, valuesOf]
  · refine ⟨after, ?_, hafter⟩
    simp [readWhole, hcons, hzero, hisDigit, hread]

theorem readFraction?_of_ne (hrest : c.rest.head? ≠ some '.') :
    readFraction? c = .ok (none, c) := by
  unfold readFraction?
  split
  · rename_i rest hpoint
    rw [hpoint] at hrest
    exact absurd rfl hrest
  · rfl

theorem readExponent?_of_endsNumber (htail : EndsNumber c.rest) :
    readExponent? c = .ok (none, c) := by
  unfold readExponent?
  split
  · rfl
  · rename_i mark rest hrest
    rw [hrest] at htail
    rw [(htail mark rfl).2.2, if_neg Bool.false_ne_true]

/-! Integers -/

/-- No number above zero is written with a zero in front. -/
theorem head_toDigits_ne_zero {n : Nat} (hn : n ≠ 0) : (Nat.toDigits 10 n).head? ≠ some '0' := by
  induction n using Nat.strongRecOn with
  | _ n ih =>
      by_cases hsmall : n < 10
      · rw [Nat.toDigits_of_lt_base hsmall, List.head?_cons, ne_eq, Option.some.injEq,
          Nat.digitChar_eq_zero]
        exact hn
      · have hhead : (Nat.toDigits 10 (n / 10)).head? ≠ some '0' :=
          ih (n / 10) (by omega) (by omega)
        rw [Nat.toDigits_of_base_le (by decide) (by omega), List.head?_append]
        obtain ⟨lead, hlead⟩ := Option.isSome_iff_exists.mp
          (List.isSome_head?.mpr (Nat.toDigits_ne_nil (n := n / 10) (b := 10)))
        rwa [hlead, Option.some_or, ← hlead]

theorem isDigit_of_mem_digitChars {n : Nat} : ∀ ch ∈ Decimal.digitChars n, ch.isDigit = true :=
  fun _ hch => Nat.isDigit_of_mem_toDigits (by decide) (by decide) hch

theorem digitChars_ne_nil (n : Nat) : Decimal.digitChars n ≠ [] :=
  Nat.toDigits_ne_nil

theorem isWhole_digitChars (n : Nat) : IsWhole (Decimal.digitChars n) := by
  refine ⟨isDigit_of_mem_digitChars, digitChars_ne_nil n, ?_⟩
  by_cases hn : n = 0
  · subst hn
    exact .inl (Nat.toDigits_zero 10)
  · exact .inr (head_toDigits_ne_zero hn)

theorem ofDigits_valuesOf (n : Nat) : ofDigits (valuesOf (Decimal.digitChars n)) = n := by
  refine Eq.trans ?_ (Nat.ofDigitChars_ten_toDigits (n := n))
  rw [ofDigits, valuesOf, List.foldl_map, Nat.ofDigitChars_eq_foldl]
  simp only [Nat.mul_comm]
  rfl

/-- An integer of 64 bits, signed or not. -/
def IsWord (n : Int) : Prop :=
  -(signWeight : Int) ≤ n ∧ n < (UInt64.size : Int)

theorem isWord_natCast {n : Nat} (hn : n < UInt64.size) : IsWord n := by
  constructor <;> omega

theorem isWord_toInt (n : Int64) : IsWord n.toInt := by
  have hleast : -(signWeight : Int) ≤ n.toInt := n.le_toInt
  have hbound : n.toInt < (signWeight : Int) := n.toInt_lt
  refine ⟨hleast, Int.lt_trans hbound ?_⟩
  decide

/-- The digits of an integer, after the sign, read back. -/
theorem yields_readNumber {n : Int} (hn : IsWord n) (htail : EndsNumber tail)
    (hrest : c.rest = Decimal.digitChars n.natAbs ++ tail) :
    Yields (readNumber (n < 0) c) (.integer n) tail := by
  obtain ⟨after, hwhole, hafter⟩ :=
    yields_readWhole (isWhole_digitChars n.natAbs) htail.endsDigits hrest
  have hvalue : integerValue? (n < 0) (valuesOf (Decimal.digitChars n.natAbs)) = some n := by
    obtain ⟨hleast, hbound⟩ := hn
    simp only [integerValue?, ofDigits_valuesOf, decide_eq_true_eq]
    split
    · rw [if_neg (by omega)]
      congr 1
      omega
    · rw [if_pos (by omega)]
      congr 1
      omega
  refine ⟨after, ?_, hafter⟩
  rw [← hafter] at htail
  have hpoint : after.rest.head? ≠ some '.' := fun hhead => (htail '.' hhead).2.1 rfl
  simp only [readNumber, hwhole, readFraction?_of_ne hpoint,
    readExponent?_of_endsNumber htail, hvalue, bind, Except.bind]

end DocIndex.Json
