import DocIndex.Decimal.Scale
import DocIndex.Proofs.Decimal.Binary

/-!
Numbers that come from decimal digits are finite. What is read starts from a significand of 64 bits.
A power of ten is finite and not less than one, so that no quotient is too large, and a product that
is too large is no result.
-/

namespace DocIndex.Decimal

open Float.Model (Format UnpackedFloat totalExponent)
open Float.Model.UnpackedFloat

/-! Powers of ten -/

theorem le_roundedMantissa (em : ExtendedMantissa) : em.mantissa ≤ em.roundedMantissa := by
  rw [ExtendedMantissa.roundedMantissa]
  cases em.accuracy with
  | exact => exact Nat.le_refl _
  | inexact order =>
      cases order with
      | lt => exact Nat.le_refl _
      | eq => exact Nat.le_add_right _ _
      | gt => exact Nat.le_succ _

/-- Digits that are no more than 53 stay as they are. -/
theorem shiftToTargetExponent_of_normal {m : Nat} {e : Int} (hlog : m.log2 = 52)
    (hleast : -1074 ≤ e) :
    (shiftToTargetExponent .binary64 m e .exact).1.mantissa = m ∧
      (shiftToTargetExponent .binary64 m e .exact).2 = e := by
  rw [shiftToTargetExponent_fst, shiftToTargetExponent_snd, targetExponent_eq, totalExponent, hlog]
  have hnone : (max (((52 : Nat) : Int) + 1 + e - 53) (-1074) - e).toNat = 0 := by omega
  rw [hnone, Nat.pow_zero, Nat.div_one]
  exact ⟨rfl, by omega⟩

/-- A carry leaves the leading digit one place further up. -/
theorem shiftToTargetExponent_of_carry {e : Int} (hleast : -1074 ≤ e) :
    (shiftToTargetExponent .binary64 (2 ^ 53) e .exact).1.mantissa = 2 ^ 52 ∧
      (shiftToTargetExponent .binary64 (2 ^ 53) e .exact).2 = e + 1 := by
  rw [shiftToTargetExponent_fst, shiftToTargetExponent_snd, targetExponent_eq, totalExponent,
    Nat.log2_two_pow]
  have hone : (max (((53 : Nat) : Int) + 1 + e - 53) (-1074) - e).toNat = 1 := by omega
  rw [hone]
  exact ⟨by decide, by omega⟩

/-- The digits after the second cut, which follows a carry, are those of the result. -/
theorem roundWithAccuracy_eq {m rounded : Nat} {e first last : Int} {accuracy : Accuracy}
    {em : ExtendedMantissa}
    (hfirst : shiftToTargetExponent .binary64 m e accuracy = (em, first))
    (hsecond : (shiftToTargetExponent .binary64 em.roundedMantissa first .exact).1.mantissa =
        rounded ∧ (shiftToTargetExponent .binary64 em.roundedMantissa first .exact).2 = last)
    (hpos : 0 < rounded) (sign : Sign) :
    roundWithAccuracy .binary64 sign m e accuracy = .finite sign rounded last hpos := by
  obtain ⟨rfl, rfl⟩ := hsecond
  unfold roundWithAccuracy
  simp only [hfirst]
  exact dif_neg hpos.ne'

/-- Digits beyond the first 53 are cut off. -/
theorem div_two_pow_mem {m : Nat} (hlong : 52 ≤ m.log2) :
    2 ^ 52 ≤ m / 2 ^ (m.log2 - 52) ∧ m / 2 ^ (m.log2 - 52) < 2 ^ 53 := by
  have hm : m ≠ 0 := by
    rintro rfl
    rw [Nat.log2_zero] at hlong
    omega
  constructor
  · rw [Nat.le_div_iff_mul_le (Nat.two_pow_pos _), ← Nat.pow_add, Nat.add_sub_cancel' hlong]
    exact Nat.log2_self_le hm
  · have hlt := div_two_pow_lt m.lt_log2_self (m.log2 - 52)
    exact hlt.trans_le (Nat.pow_le_pow_right Nat.two_pos (by omega))

/-- Digits that a carry has made one too many are cut to 53. -/
theorem shiftToTargetExponent_of_rounded {m : Nat} {e : Int} (hlow : 2 ^ 52 ≤ m)
    (hhigh : m ≤ 2 ^ 53) (he : -1074 ≤ e) :
    (shiftToTargetExponent .binary64 m e .exact).1.mantissa.log2 = 52 ∧
      e ≤ (shiftToTargetExponent .binary64 m e .exact).2 ∧
      (shiftToTargetExponent .binary64 m e .exact).2 ≤ e + 1 := by
  by_cases hcarry : m = 2 ^ 53
  · obtain ⟨hmantissa, hlast⟩ := shiftToTargetExponent_of_carry he
    rw [hcarry, hmantissa, hlast]
    exact ⟨by decide, by omega, by omega⟩
  · have hlog : m.log2 = 52 := by
      rw [Nat.log2_eq_iff (by omega)]
      omega
    obtain ⟨hmantissa, hlast⟩ := shiftToTargetExponent_of_normal hlog he
    rw [hmantissa, hlast]
    exact ⟨hlog, by omega, by omega⟩

/-- A number of at least 53 digits is cut to 53; a carry moves them by one place. -/
theorem roundWithAccuracy_of_long {m : Nat} {e : Int} (hlong : 52 ≤ m.log2)
    (hleast : -1074 ≤ m.log2 - 52 + e) (sign : Sign) (accuracy : Accuracy) :
    ∃ (rounded : Nat) (last : Int) (hpos : 0 < rounded),
      roundWithAccuracy .binary64 sign m e accuracy = .finite sign rounded last hpos ∧
        rounded.log2 = 52 ∧ m.log2 - 52 + e ≤ last ∧ last ≤ m.log2 - 52 + e + 1 := by
  generalize hfirst : shiftToTargetExponent .binary64 m e accuracy = first
  obtain ⟨em, e₁⟩ := first
  have hmantissa := shiftToTargetExponent_fst m e accuracy
  have hexponent := shiftToTargetExponent_snd m e accuracy
  have hshift : (Format.binary64.targetExponent (totalExponent m e) - e).toNat = m.log2 - 52 := by
    rw [targetExponent_eq, totalExponent]
    omega
  rw [hfirst, hshift] at hmantissa
  rw [hfirst] at hexponent
  dsimp only at hmantissa hexponent
  obtain ⟨hlow, hhigh⟩ := div_two_pow_mem hlong
  rw [← hmantissa] at hlow hhigh
  have hrounded := le_roundedMantissa em
  have hupper := roundedMantissa_le em
  have hfull : 2 ^ 52 ≤ em.roundedMantissa := hlow.trans hrounded
  have hcarried : em.roundedMantissa ≤ 2 ^ 53 := by omega
  have hfirstLeast : -1074 ≤ e₁ := by omega
  obtain ⟨hlog, hfrom, hto⟩ := shiftToTargetExponent_of_rounded hfull hcarried hfirstLeast
  have hpos : 0 < (shiftToTargetExponent .binary64 em.roundedMantissa e₁ .exact).1.mantissa := by
    rw [Nat.pos_iff_ne_zero]
    intro hzero
    rw [hzero, Nat.log2_zero] at hlog
    cases hlog
  exact ⟨_, _, hpos, roundWithAccuracy_eq hfirst ⟨rfl, rfl⟩ hpos sign, hlog, by omega, by omega⟩

/-- A number of 53 digits comes back from its word. -/
theorem unpack_pack (sign : Sign) {m : Nat} {e : Int} (hm : 0 < m) (hlog : m.log2 = 52)
    (hleast : -1074 ≤ e) (hbound : e ≤ 971) :
    (Float.Model.pack (.finite sign m e hm)).unpack = .finite sign m e hm := by
  have hbias : Format.binary64.exponentBias = 1023 := rfl
  have hsmall : ¬ 2 ^ 11 ≤ (e + (1023 : Nat) + (52 : Nat)).toNat + 1 := by omega
  have hbits : m.log2 + 1 = Format.binary64.mantissaBits := by rw [hlog]; rfl
  have hpack : pack .binary64 (.finite sign m e hm) =
      packComponents .binary64 sign (BitVec.ofNat 11 (e + 1075).toNat) (BitVec.ofNat 52 m) := by
    unfold pack
    dsimp only
    rw [hbias, if_neg hsmall, if_pos hbits]
    congr 2
    omega
  obtain ⟨hlow, hhigh⟩ := (Nat.log2_eq_iff hm.ne').mp hlog
  have hreads := reads_unpack (pack .binary64 (.finite sign m e hm))
  rw [hpack, unpackSign_packComponents, unpackExponent_packComponents,
    unpackMantissa_packComponents, ← hpack, Sign.ofBitVec_toBitVec, BitVec.toNat_ofNat,
    BitVec.toNat_ofNat] at hreads
  have hexponent : (e + 1075).toNat % 2 ^ 11 = (e + 1075).toNat := by omega
  have hdigits : 2 ^ 52 + m % 2 ^ 52 = m := by omega
  rw [hexponent] at hreads
  show unpack .binary64 (pack .binary64 (.finite sign m e hm)) = .finite sign m e hm
  generalize unpack .binary64 (pack .binary64 (.finite sign m e hm)) = u at hreads
  cases hreads with
  | infinity hlast | notANumber hlast => omega
  | zero hfirst | subnormal hfirst => omega
  | normal =>
      congr 1
      omega

/-- A number of 53 digits that is not less than one is packed as such a number. -/
theorem isAtLeastOne_pack {sign : Sign} {m : Nat} {e : Int} (hm : 0 < m) (hlog : m.log2 = 52)
    (hleast : -52 ≤ e) (hbound : e ≤ 971) :
    isAtLeastOne (.ofModel (.pack (.finite sign m e hm))) = true := by
  have hworth : 1 ≤ totalExponent m e := by
    rw [totalExponent]
    omega
  rw [isAtLeastOne, unpack_pack sign hm hlog (by omega) hbound]
  exact decide_eq_true hworth

/-- From `10 ^ 23` on a power of ten is rounded. -/
theorem powerOfTen_eq {n : Nat} (hn : 22 < n) (hbound : n ≤ 308) :
    powerOfTen n = .ofModel (.pack (roundWithAccuracy .binary64 .positive
      (10 ^ n <<< 53) (-53) .exact)) := by
  have hslow : ¬ (1 < 2 ^ 53 ∧ n ≤ 22) := by omega
  have hproduct : 1 <<< 53 * 10 ^ n = 10 ^ n <<< 53 := by
    rw [Nat.shiftLeft_eq, Nat.shiftLeft_eq, Nat.one_mul, Nat.mul_comm]
  have hnotHuge : ¬ (n : Int) > 2 ^ Format.binary64.exponentBits := by
    show ¬ (n : Int) > 2 ^ 11
    omega
  have hnotTiny :
      ¬ (n : Int) < -((2 ^ Format.binary64.exponentBits : Int) + (Nat.log2 1 : Nat)) := by
    show ¬ (n : Int) < -(2 ^ 11 + (Nat.log2 1 : Nat))
    omega
  have hmodel : UnpackedFloat.ofScientific .binary64 1 n =
      roundWithAccuracy .binary64 .positive (10 ^ n <<< 53) (-53) .exact := by
    unfold UnpackedFloat.ofScientific
    rw [dif_neg Nat.one_ne_zero, if_neg hnotHuge, if_neg hnotTiny,
      if_pos (Int.natCast_nonneg n), ← hproduct]
    rfl
  rw [powerOfTen, Float.ofScientific, dif_neg hslow, ← hmodel]
  rfl

theorem isAtLeastOne_powerOfTen {n : Nat} (hn : n ≤ 308) : isAtLeastOne (powerOfTen n) = true := by
  have hsmall : ∀ n < 23, isAtLeastOne (powerOfTen n) = true := by decide +kernel
  have hlast : isAtLeastOne (powerOfTen 308) = true := by decide +kernel
  by_cases hfast : n < 23
  · exact hsmall n hfast
  · by_cases hend : n = 308
    · rw [hend]
      exact hlast
    · have hpower : 10 ^ n < 2 ^ 1020 := by
        have hlarge : 10 ^ 307 < 2 ^ 1020 := by decide +kernel
        exact (Nat.pow_le_pow_right (by decide) (by omega)).trans_lt hlarge
      have hlow : 53 ≤ (10 ^ n <<< 53).log2 := by
        have hone : 1 ≤ 10 ^ n := Nat.one_le_pow _ _ (by decide)
        rw [Nat.le_log2 (by rw [Nat.shiftLeft_eq]; omega), Nat.shiftLeft_eq]
        exact Nat.le_mul_of_pos_left _ hone
      have hhigh := log2_lt_of_lt (by decide) (shiftLeft_lt hpower 53)
      obtain ⟨rounded, last, hpos, hround, hlog, hfrom, hto⟩ :=
        roundWithAccuracy_of_long (m := 10 ^ n <<< 53) (e := -53) (by omega) (by omega)
          .positive .exact
      rw [powerOfTen_eq (by omega) hn, hround]
      exact isAtLeastOne_pack hpos hlog (by omega) (by omega)

theorem isFinite_shrink {x : Float} (hx : EndsBy 12 x.toModel.unpack) (n : Nat) :
    (shrink x n).isFinite = true := by
  unfold shrink
  split
  · rename_i hn
    exact (endsBy_div hx (isAtLeastOne_powerOfTen hn) (by decide) (by decide)).isFinite
  · split
    · rename_i hn
      have hlast := isAtLeastOne_powerOfTen (Nat.le_refl 308)
      have hrest := isAtLeastOne_powerOfTen (n := n - 308) (by omega)
      have hquotient := endsBy_div hx hlast (by decide) (by decide)
      exact (endsBy_div hquotient hrest (by decide) (by decide)).isFinite
    · rfl

theorem isFinite_grow {x y : Float} {n : Nat} (hx : x.isFinite = true)
    (hgrow : grow x n = some y) : y.isFinite = true := by
  unfold grow at hgrow
  split at hgrow
  · rename_i hn
    dsimp only at hgrow
    split at hgrow
    · cases hgrow
    · rename_i hinf
      obtain rfl := Option.some.inj hgrow
      have hpower := isFinite_of_isAtLeastOne (isAtLeastOne_powerOfTen hn)
      exact isFinite_mul hx hpower (by simpa using hinf)
  · split at hgrow
    · obtain rfl := Option.some.inj hgrow
      exact hx
    · cases hgrow

/-- A significand of 64 bits times a power of ten is finite, if there is a result. -/
theorem isFinite_scale {significand : Nat} {exponent : Int} {x : Float}
    (hscale : scale significand exponent = some x) : x.isFinite = true := by
  have hstart := endsBy_toFloat (UInt64.ofNat significand)
  unfold scale at hscale
  split at hscale
  · exact isFinite_grow hstart.isFinite hscale
  · obtain rfl := Option.some.inj hscale
    exact isFinite_shrink hstart _

end DocIndex.Decimal
