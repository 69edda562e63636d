import DocIndex.Proofs.Decimal.Overflow
import DocIndex.Proofs.Decimal.Rounding

/-!
Exact factors. Significands below `2 ^ 53` and powers of ten up to `10 ^ 22` are floats without
being rounded. So the product and the quotient of two of them are rounded once, to the nearest float.
-/

namespace DocIndex.Decimal

open Float.Model (Format UnpackedFloat totalExponent)
open Float.Model.UnpackedFloat

theorem isExactly_toFloat {n : Nat} (hpos : 0 < n) (hsmall : n < 2 ^ 53) :
    IsExactly n (UInt64.ofNat n).toFloat.toModel.unpack := by
  have hword : (UInt64.ofNat n).toNat = n := UInt64.toNat_ofNat_of_lt (hsmall.trans (by decide))
  show IsExactly n (Float.Model.pack
    (UnpackedFloat.normalize .binary64 ((UInt64.ofNat n).toNat : Int) 0 .positive)).unpack
  rw [hword]
  have hcompare : compare (n : Int) 0 = .gt := compare_gt_iff_gt.mpr (by omega)
  have hlog : n.log2 ≤ 52 := by
    have hlt := log2_lt_of_lt (by decide) hsmall
    omega
  have hshift : (0 - max ((n.log2 : Int) + 1 + 0 - 53) (-1074)).toNat = 52 - n.log2 := by omega
  simp only [UnpackedFloat.normalize, hcompare, UnpackedFloat.round, decreaseExponent,
    targetExponent_eq, totalExponent, Int.toNat_natCast, hshift]
  have hlogShifted : (n <<< (52 - n.log2)).log2 = 52 := by
    rw [log2_shiftLeft hpos.ne']
    omega
  have hworth := shiftLeft_worth n (52 - n.log2)
  generalize n <<< (52 - n.log2) = m at *
  obtain ⟨hmpos, hround⟩ := roundWithAccuracy_of_normal (e := -((52 - n.log2 : Nat) : Int))
    hlogShifted (by omega) (by omega) .positive
  rw [zero_sub, hround, unpack_pack .positive hmpos hlogShifted (by omega) (by omega)]
  exact ⟨rfl, hlogShifted, by omega, by omega, hworth⟩

namespace Binary

variable {b : Binary} {x y : Float} {v w : ℚ}

/-- A float with the digits of a number. -/
def IsFloat (b : Binary) (x : Float) : Prop :=
  ∃ hpos, x.toModel = .pack (.finite .positive b.mantissa b.exponent hpos)

theorem IsFloat.unpack (hb : b.IsNormal) (hx : b.IsFloat x) :
    ∃ hpos, x.toModel.unpack = .finite .positive b.mantissa b.exponent hpos := by
  obtain ⟨hpos, hmodel⟩ := hx
  have hleast := hb.le_exponent
  refine ⟨hpos, ?_⟩
  rw [hmodel, unpack_pack .positive hpos hb.log2_mantissa (by omega) hb.exponent_le]

theorem IsFloat.isInf (hb : b.IsNormal) (hx : b.IsFloat x) : x.isInf = false := by
  obtain ⟨hpos, hunpack⟩ := hx.unpack hb
  show x.toModel.unpack.isInf = false
  rw [hunpack]
  rfl

/-- The product of two exact floats is rounded once. -/
theorem Takes.mul (hb : b.IsNormal) (hx : IsExactly v x.toModel.unpack)
    (hy : IsExactly w y.toModel.unpack) (htakes : b.Takes (v * w)) : b.IsFloat (x * y) := by
  obtain ⟨m₁, e₁, hm₁, hxdef, hlog₁, -, -, rfl⟩ := hx.exists_finite
  obtain ⟨m₂, e₂, hm₂, hydef, hlog₂, -, -, rfl⟩ := hy.exists_finite
  have hlong : 52 ≤ (m₁ * m₂).log2 := by
    rw [Nat.le_log2 (Nat.mul_pos hm₁ hm₂).ne']
    exact ((Nat.log2_eq_iff hm₁.ne').mp hlog₁).1.trans (Nat.le_mul_of_pos_right _ hm₂)
  have hworth : (m₁ : ℚ) * 2 ^ e₁ * (m₂ * 2 ^ e₂) = (m₁ * m₂ : Nat) * 2 ^ (e₁ + e₂) := by
    rw [zpow_add₀ two_ne_zero]
    push_cast
    ring
  rw [hworth] at htakes
  obtain ⟨hpos, hround⟩ :=
    htakes.roundWithAccuracy hb hlong (isCut_exact _) (.positive * .positive)
  refine ⟨hpos, ?_⟩
  show Float.Model.pack (UnpackedFloat.mul .binary64 x.toModel.unpack y.toModel.unpack) = _
  rw [hxdef, hydef]
  exact congrArg Float.Model.pack hround

/-- The quotient of two exact floats is rounded once. -/
theorem Takes.div (hb : b.IsNormal) (hx : IsExactly v x.toModel.unpack)
    (hy : IsExactly w y.toModel.unpack) (htakes : b.Takes (v / w)) : b.IsFloat (x / y) := by
  obtain ⟨m₁, e₁, hm₁, hxdef, hlog₁, hleast₁, -, rfl⟩ := hx.exists_finite
  obtain ⟨m₂, e₂, hm₂, hydef, hlog₂, -, hgreatest₂, rfl⟩ := hy.exists_finite
  obtain ⟨hlow₁, -⟩ := (Nat.log2_eq_iff hm₁.ne').mp hlog₁
  obtain ⟨-, hhigh₂⟩ := (Nat.log2_eq_iff hm₂.ne').mp hlog₂
  have hlong : 52 ≤ (m₁ <<< 53 / m₂).log2 := by
    have hle : 2 ^ 52 ≤ m₁ <<< 53 / m₂ := by
      rw [Nat.le_div_iff_mul_le hm₂, Nat.shiftLeft_eq]
      exact Nat.mul_le_mul hlow₁ hhigh₂.le
    exact (Nat.le_log2 (by omega)).mpr hle
  have hworth : (m₁ * 2 ^ e₁ / (m₂ * 2 ^ e₂) : ℚ) =
      (m₁ <<< 53 : Nat) / m₂ * 2 ^ (e₁ - e₂ - 53) := by
    have hshifted : ((m₁ <<< 53 : Nat) : ℚ) = m₁ * 2 ^ (53 : Int) := by
      exact_mod_cast Nat.shiftLeft_eq m₁ 53
    rw [hshifted, zpow_sub₀ two_ne_zero, zpow_sub₀ two_ne_zero]
    field_simp
  have hcore : divCore .binary64 m₁ e₁ m₂ e₂ = (m₁ <<< 53 / m₂, e₁ - e₂ - 53,
      accuracyOfFraction (m₁ <<< 53 % m₂) m₂) := by
    have htarget : min (e₁ - e₂) (Format.binary64.targetExponent
        (totalExponent m₁ e₁ - totalExponent m₂ e₂)) = e₁ - e₂ - 53 := by
      rw [targetExponent_eq, totalExponent, totalExponent, hlog₁, hlog₂]
      omega
    have hshift : (e₁ - e₂ - (e₁ - e₂ - 53)).toNat = 53 := by omega
    simp only [divCore, htarget, hshift]
  rw [hworth] at htakes
  obtain ⟨hpos, hround⟩ := htakes.roundWithAccuracy hb hlong
    (isCut_accuracyOfFraction (m₁ <<< 53) hm₂) (.positive / .positive)
  refine ⟨hpos, ?_⟩
  show Float.Model.pack (UnpackedFloat.div .binary64 x.toModel.unpack y.toModel.unpack) = _
  rw [hxdef, hydef]
  simp only [UnpackedFloat.div, hcore]
  exact congrArg Float.Model.pack hround

/-- A small significand times a small power of ten is read as the number that this rounds to. -/
theorem Takes.scale (hb : b.IsNormal) {significand : Nat} (hpos : 0 < significand)
    (hsmall : significand < 2 ^ 53) {exponent : Int} (hexponent : exponent.natAbs ≤ 22)
    (htakes : b.Takes (significand * 10 ^ exponent)) :
    ∃ y, Decimal.scale significand exponent = some y ∧ b.IsFloat y := by
  have hsignificand := isExactly_toFloat hpos hsmall
  cases exponent with
  | ofNat n =>
      have hn : n < 23 := Nat.lt_succ_of_le hexponent
      have hproduct := htakes.mul hb hsignificand (isExactly_powerOfTen hn)
      exact ⟨_, grow_of_not_isInf (by omega) (hproduct.isInf hb), hproduct⟩
  | negSucc n =>
      have hn : n + 1 < 23 := Nat.lt_succ_of_le hexponent
      rw [zpow_negSucc, ← div_eq_mul_inv] at htakes
      refine ⟨_, rfl, ?_⟩
      rw [shrink, if_pos (by omega)]
      exact htakes.div hb hsignificand (isExactly_powerOfTen hn)

end Binary

end DocIndex.Decimal
