import DocIndex.Decimal.Layout
import DocIndex.Proofs.Decimal.Interval
import DocIndex.Proofs.Decimal.Overflow

/-!
How large the shortest decimal of a number is. It lies among the reals that round to the number, so
it is small enough to be read back, but for the greatest numbers.
-/

namespace DocIndex.Decimal

open Float.Model (Format)
open Float.Model.UnpackedFloat

/-- A decimal number with neither a large exponent nor many digits. -/
structure Scaled.IsModerate (n : Scaled) : Prop where
  le_exponent : -400 ≤ n.exponent
  exponent_le : n.exponent ≤ 400
  length_le : (digitChars n.digits).length ≤ 1000

/-- The upper end of the reals that round to a number. -/
def Binary.upperEnd (b : Binary) : ℚ :=
  (4 * b.mantissa + 2) * 2 ^ (b.exponent - 2)

namespace Binary

theorem Takes.le_upperEnd {b : Binary} {v : ℚ} (htakes : b.Takes v) : v ≤ b.upperEnd := by
  have hge := htakes.isNearest.ge
  rw [div_le_iff₀ (by positivity)] at hge
  rw [upperEnd, zpow_sub₀ two_ne_zero]
  linarith

theorem search_exponent (b : Binary) (fuel : Nat) (p : Int) :
    p - fuel ≤ (b.search fuel p).exponent ∧ (b.search fuel p).exponent ≤ p := by
  induction fuel generalizing p with
  | zero => simp [search]
  | succ fuel ih =>
      rw [search]
      split
      · dsimp only
        omega
      · have hrest := ih (p - 1)
        omega

/-- One of the six greatest numbers. -/
def IsGreatest (b : Binary) : Prop :=
  2 ^ 53 - 6 ≤ b.mantissa ∧ b.exponent = 971

/-- All but the six greatest numbers are rounded to from reals up to this one. -/
def limit : ℚ := (2 ^ 55 - 26) * 2 ^ (969 : Int)

theorem upperEnd_le_limit {b : Binary} (hfinite : b.IsFinite) (hless : ¬b.IsGreatest) :
    b.upperEnd ≤ limit := by
  obtain ⟨hmantissa, hexponent⟩ := hfinite
  by_cases hlast : b.exponent = 971
  · have hsmall : 4 * b.mantissa + 2 + 26 ≤ 2 ^ 55 := by
      by_contra hlarge
      exact hless ⟨by omega, hlast⟩
    have hcast : (4 * b.mantissa + 2 + 26 : ℚ) ≤ 2 ^ 55 := by exact_mod_cast hsmall
    rw [upperEnd, limit, hlast]
    exact mul_le_mul_of_nonneg_right (by linarith) (by positivity)
  · have hsmall : 4 * b.mantissa + 2 + 52 ≤ 2 ^ 55 * 2 := by omega
    have hcast : (4 * b.mantissa + 2 + 52 : ℚ) ≤ 2 ^ 55 * 2 := by exact_mod_cast hsmall
    have hpower : (2 : ℚ) ^ (b.exponent - 2) ≤ 2 ^ (968 : Int) :=
      zpow_le_zpow_right₀ one_le_two (by omega)
    have hdouble : (2 : ℚ) ^ (969 : Int) = 2 * 2 ^ (968 : Int) := zpow_one_add₀ two_ne_zero 968
    rw [upperEnd, limit, hdouble, ← mul_assoc]
    exact mul_le_mul (by linarith) hpower (by positivity) (by norm_num)

theorem shortest_worth {b : Binary} (hfinite : b.IsFinite) (hless : ¬b.IsGreatest) :
    b.shortest.worth ≤ limit :=
  (shortest_takes hfinite).le_upperEnd.trans (upperEnd_le_limit hfinite hless)

theorem upperEnd_le {b : Binary} (hfinite : b.IsFinite) : b.upperEnd ≤ 10 ^ (412 : Int) := by
  have hmantissa := hfinite.mantissa_lt
  have hexponent := hfinite.exponent_le
  have hsmall : 4 * b.mantissa + 2 ≤ 2 ^ 61 := by omega
  have hdigits : (4 * b.mantissa + 2 : ℚ) ≤ 2 ^ (61 : Int) := by exact_mod_cast hsmall
  have hpower : (2 : ℚ) ^ (b.exponent - 2) ≤ 2 ^ (969 : Int) :=
    zpow_le_zpow_right₀ one_le_two (by omega)
  calc b.upperEnd ≤ 2 ^ (61 : Int) * 2 ^ (969 : Int) :=
        mul_le_mul hdigits hpower (by positivity) (by positivity)
    _ = ((2 : ℚ) ^ 10) ^ 103 := by
        rw [← zpow_add₀ two_ne_zero, ← pow_mul, ← zpow_natCast]
        rfl
    _ ≤ ((10 : ℚ) ^ 4) ^ 103 := pow_le_pow_left₀ (by positivity) (by norm_num) 103
    _ = 10 ^ (412 : Int) := by
        rw [← pow_mul, ← zpow_natCast]
        rfl

theorem shortest_isModerate {b : Binary} (hfinite : b.IsFinite) : b.shortest.IsModerate := by
  have hlog : b.mantissa.log2 < 53 := log2_lt_of_lt (by decide) hfinite.mantissa_lt
  have hleast := hfinite.le_exponent
  have hgreatest := hfinite.exponent_le
  have hworth := (shortest_takes hfinite).le_upperEnd
  rw [shortest] at hworth ⊢
  generalize hstart : ((b.mantissa.log2 : Int) + 1 + b.exponent) * 30103 / 100000 + 1 = start
    at hworth ⊢
  have hexponent := b.search_exponent 24 start
  refine ⟨by omega, by omega, (Nat.length_toDigits_le_iff (by decide) (by decide)).mpr ?_⟩
  have hten : (0 : ℚ) < 10 ^ (b.search 24 start).exponent := by positivity
  have hdigits : ((b.search 24 start).digits : ℚ) < 10 ^ (1000 : Int) := by
    calc ((b.search 24 start).digits : ℚ)
        ≤ 10 ^ (412 : Int) / 10 ^ (b.search 24 start).exponent :=
          (le_div_iff₀ hten).mpr (hworth.trans (upperEnd_le hfinite))
      _ = 10 ^ (412 - (b.search 24 start).exponent) := (zpow_sub₀ (by norm_num) _ _).symm
      _ < 10 ^ (1000 : Int) := zpow_lt_zpow_right₀ (by norm_num) (by omega)
  exact_mod_cast hdigits

/-- What is up to the limit can be raised three times. -/
theorem raised_limit_lt : limit * raise ^ 3 < 2 ^ 1024 := by
  have hsplit : (2 : ℚ) ^ 1024 = 2 ^ 55 * 2 ^ (969 : Int) := by
    rw [← zpow_natCast, ← zpow_natCast, ← zpow_add₀ two_ne_zero]
    rfl
  have hdigits : (2 ^ 55 - 26) * raise ^ 3 < 2 ^ 55 := by norm_num [raise]
  rw [hsplit, limit, mul_right_comm]
  exact mul_lt_mul_of_pos_right hdigits (by positivity)

end Binary

/-! Reading the digits -/

/-- The number of some digits that follow others. -/
def digitsAfter (before : Nat) (digits : List Nat) : Nat :=
  digits.foldl (fun n digit => n * 10 + digit) before

theorem mul_pow_le_digitsAfter (before : Nat) (digits : List Nat) :
    before * 10 ^ digits.length ≤ digitsAfter before digits := by
  induction digits generalizing before with
  | nil => exact (Nat.mul_one before).le
  | cons digit rest ih =>
      calc before * 10 ^ (rest.length + 1) = before * 10 * 10 ^ rest.length := by
            rw [Nat.pow_succ', Nat.mul_assoc]
        _ ≤ (before * 10 + digit) * 10 ^ rest.length :=
            Nat.mul_le_mul_right _ (Nat.le_add_right _ _)
        _ ≤ digitsAfter (before * 10 + digit) rest := ih _

/-- Digits that are left out make no number larger. -/
theorem gather_le {before : Nat} (hbefore : before < UInt64.size) (digits : List Nat) :
    (gather before digits).1 < UInt64.size ∧ (gather before digits).2 ≤ digits.length ∧
      (gather before digits).1 * 10 ^ (digits.length - (gather before digits).2) ≤
        digitsAfter before digits := by
  induction digits generalizing before with
  | nil => exact ⟨hbefore, Nat.le_refl 0, (Nat.mul_one before).le⟩
  | cons digit rest ih =>
      rw [gather]
      split
      · rename_i hfits
        obtain ⟨hword, htaken, hle⟩ := ih hfits
        refine ⟨hword, Nat.succ_le_succ htaken, ?_⟩
        rw [List.length_cons, Nat.add_sub_add_right]
        exact hle
      · exact ⟨hbefore, Nat.zero_le _, mul_pow_le_digitsAfter before (digit :: rest)⟩

theorem digitsAfter_append (before : Nat) (digits others : List Nat) :
    digitsAfter before (digits ++ others) = digitsAfter (digitsAfter before digits) others :=
  List.foldl_append

/-- No digit is left out of a number of 64 bits. -/
theorem gather_of_small {before : Nat} {digits : List Nat}
    (hsmall : digitsAfter before digits < UInt64.size) :
    gather before digits = (digitsAfter before digits, digits.length) := by
  induction digits generalizing before with
  | nil => rfl
  | cons digit rest ih =>
      have hfits : before * 10 + digit < UInt64.size := by
        refine lt_of_le_of_lt ?_ hsmall
        exact (Nat.le_mul_of_pos_right _ (by positivity)).trans
          (mul_pow_le_digitsAfter (before * 10 + digit) rest)
      rw [gather, if_pos hfits, ih hsmall]
      rfl

/-- What the digits of a number before the point of an exponent are read as. -/
def readBack (digits : List Nat) (exponent : Int) : Option Float :=
  scale (gather 0 digits).1 (exponent + digits.length - (gather 0 digits).2)

theorem exists_scale {significand : Nat} (hword : significand < UInt64.size) {exponent : Int}
    (hworth : (significand : ℚ) * 10 ^ exponent ≤ Binary.limit) :
    ∃ y, scale significand exponent = some y := by
  cases exponent with
  | ofNat n =>
      have hsmall : (significand : ℚ) * 10 ^ n * raise ^ 3 < 2 ^ 1024 :=
        (mul_le_mul_of_nonneg_right hworth (pow_nonneg raise_pos.le 3)).trans_lt
          Binary.raised_limit_lt
      exact exists_grow hword hsmall
  | negSucc n => exact ⟨_, rfl⟩

theorem exists_scale_of_short {significand : Nat} (hword : significand < UInt64.size)
    {exponent : Int} (hshort : exponent ≤ 17) : ∃ y, scale significand exponent = some y := by
  have hsignificand : (significand : ℚ) ≤ 2 ^ 64 := by exact_mod_cast hword.le
  have hpower : (10 : ℚ) ^ exponent ≤ 10 ^ (17 : Int) := zpow_le_zpow_right₀ (by norm_num) hshort
  have hlimit : (2 : ℚ) ^ (128 : Int) ≤ 2 ^ (969 : Int) :=
    zpow_le_zpow_right₀ one_le_two (by decide)
  refine exists_scale hword ?_
  calc (significand : ℚ) * 10 ^ exponent ≤ 2 ^ 64 * 10 ^ (17 : Int) :=
        mul_le_mul hsignificand hpower (by positivity) (by positivity)
    _ ≤ 1 * 2 ^ (128 : Int) := by norm_num
    _ ≤ Binary.limit := mul_le_mul (by norm_num) hlimit (by positivity) (by norm_num)

theorem exists_readBack {digits : List Nat} {exponent : Int}
    (hworth : (digitsAfter 0 digits : ℚ) * 10 ^ exponent ≤ Binary.limit) :
    ∃ y, readBack digits exponent = some y := by
  have hzero : 0 < UInt64.size := by decide
  obtain ⟨hword, htaken, hle⟩ := gather_le hzero digits
  refine exists_scale hword (le_trans ?_ hworth)
  have hcast : ((gather 0 digits).1 : ℚ) * 10 ^ (digits.length - (gather 0 digits).2) ≤
      digitsAfter 0 digits := by exact_mod_cast hle
  have hexponent : exponent + digits.length - (gather 0 digits).2 =
      (digits.length - (gather 0 digits).2 : Nat) + exponent := by omega
  rw [hexponent, zpow_add₀ (by norm_num), zpow_natCast, ← mul_assoc]
  exact mul_le_mul_of_nonneg_right hcast (by positivity)

end DocIndex.Decimal
