import DocIndex.Proofs.Decimal.Finite

/-!
Products that do not overflow. A number of at least 53 binary digits is raised by rounding by less
than one unit of the last of the digits that stay. So what comes of a significand times a power of
ten, each of them rounded, and then rounded itself, is finite if the exact product stays below
`2 ^ 1024` by three such raises.
-/

namespace DocIndex.Decimal

open Float.Model (Format UnpackedFloat totalExponent)
open Float.Model.UnpackedFloat

/-- No rounding raises a number of at least 53 binary digits by more than this factor. -/
def raise : ℚ := 1 + 1 / 2 ^ 52

theorem one_le_raise : 1 ≤ raise := by norm_num [raise]

theorem raise_pos : 0 < raise := by norm_num [raise]

/-- A number of 53 binary digits, from one up to a bound. -/
def IsUpTo (bound : ℚ) : UnpackedFloat → Prop
  | .finite _ m e _ => m.log2 = 52 ∧ -52 ≤ e ∧ (m : ℚ) * 2 ^ e ≤ bound
  | _ => False

/-! Rounding -/

/-- Digits are cut off. -/
theorem shiftToTargetExponent_worth (m : Nat) (e : Int) (accuracy : Accuracy) :
    ((shiftToTargetExponent .binary64 m e accuracy).1.mantissa : ℚ) *
      2 ^ (shiftToTargetExponent .binary64 m e accuracy).2 ≤ m * 2 ^ e := by
  generalize hshift : (Format.binary64.targetExponent (totalExponent m e) - e).toNat = shift
  have hexponent : (shiftToTargetExponent .binary64 m e accuracy).2 = e + shift := by
    rw [← hshift]
    rfl
  have hdigits : ((m / 2 ^ shift : Nat) : ℚ) * 2 ^ shift ≤ m := by
    exact_mod_cast Nat.div_mul_le_self m (2 ^ shift)
  rw [shiftToTargetExponent_fst, hshift, hexponent, zpow_add₀ two_ne_zero, zpow_natCast, mul_comm
    (2 ^ e : ℚ), ← mul_assoc]
  exact mul_le_mul_of_nonneg_right hdigits (by positivity)

/-- One unit of the last digit that stays is a small part of the number. -/
theorem roundedMantissa_worth {m : Nat} {e : Int} (hlong : 52 ≤ m.log2)
    (hleast : -1074 ≤ m.log2 - 52 + e) (accuracy : Accuracy) :
    ((shiftToTargetExponent .binary64 m e accuracy).1.roundedMantissa : ℚ) *
      2 ^ (shiftToTargetExponent .binary64 m e accuracy).2 ≤ m * 2 ^ e * raise := by
  have hm : m ≠ 0 := by
    rintro rfl
    rw [Nat.log2_zero] at hlong
    omega
  have hcut := shiftToTargetExponent_worth m e accuracy
  have hexponent := shiftToTargetExponent_snd m e accuracy
  have hlast : (shiftToTargetExponent .binary64 m e accuracy).2 = (m.log2 - 52 : Nat) + e := by
    omega
  have hrounded : ((shiftToTargetExponent .binary64 m e accuracy).1.roundedMantissa : ℚ) ≤
      (shiftToTargetExponent .binary64 m e accuracy).1.mantissa + 1 := by
    exact_mod_cast roundedMantissa_le _
  have hunit : (2 : ℚ) ^ (m.log2 - 52) ≤ m * (1 / 2 ^ 52) := by
    rw [mul_one_div, le_div_iff₀ (by positivity), ← pow_add, Nat.sub_add_cancel hlong]
    exact_mod_cast Nat.log2_self_le hm
  rw [hlast, zpow_add₀ two_ne_zero, zpow_natCast] at hcut ⊢
  calc _ ≤ ((shiftToTargetExponent .binary64 m e accuracy).1.mantissa + 1 : ℚ) *
        (2 ^ (m.log2 - 52) * 2 ^ e) := mul_le_mul_of_nonneg_right hrounded (by positivity)
    _ = (shiftToTargetExponent .binary64 m e accuracy).1.mantissa *
        (2 ^ (m.log2 - 52) * 2 ^ e) + 2 ^ (m.log2 - 52) * 2 ^ e := by ring
    _ ≤ m * 2 ^ e + m * (1 / 2 ^ 52) * 2 ^ e :=
        add_le_add hcut (mul_le_mul_of_nonneg_right hunit (by positivity))
    _ = m * 2 ^ e * raise := by rw [raise]; ring

/-- A number of at least 53 digits is cut to 53, and not raised much. -/
theorem roundWithAccuracy_worth {m : Nat} {e : Int} (hlong : 52 ≤ m.log2)
    (hleast : -1074 ≤ m.log2 - 52 + e) (sign : Sign) (accuracy : Accuracy) :
    ∃ (rounded : Nat) (last : Int) (hpos : 0 < rounded),
      roundWithAccuracy .binary64 sign m e accuracy = .finite sign rounded last hpos ∧
        rounded.log2 = 52 ∧ m.log2 - 52 + e ≤ last ∧ last ≤ m.log2 - 52 + e + 1 ∧
        (rounded : ℚ) * 2 ^ last ≤ m * 2 ^ e * raise := by
  obtain ⟨rounded, last, hpos, hround, hlog, hfrom, hto⟩ :=
    roundWithAccuracy_of_long hlong hleast sign accuracy
  refine ⟨rounded, last, hpos, hround, hlog, hfrom, hto, ?_⟩
  have hfirst := roundedMantissa_worth hlong hleast accuracy
  have hsecond := shiftToTargetExponent_worth
    (shiftToTargetExponent .binary64 m e accuracy).1.roundedMantissa
    (shiftToTargetExponent .binary64 m e accuracy).2 .exact
  unfold roundWithAccuracy at hround
  dsimp only at hround
  split at hround
  · contradiction
  · obtain ⟨-, rfl, rfl⟩ := UnpackedFloat.finite.inj hround
    exact hsecond.trans hfirst

/-- The last of 53 digits tells whether a number can be packed. -/
theorem exponent_le_of_worth_lt {m : Nat} {e : Int} (hlog : m.log2 = 52)
    (hworth : (m : ℚ) * 2 ^ e < 2 ^ 1024) : e ≤ 971 := by
  by_contra hlarge
  have hm : m ≠ 0 := by
    rintro rfl
    rw [Nat.log2_zero] at hlog
    omega
  have hdigits : (2 : ℚ) ^ (52 : Int) ≤ m := by
    exact_mod_cast ((Nat.log2_eq_iff hm).mp hlog).1
  have hpower : (2 : ℚ) ^ (972 : Int) ≤ 2 ^ e := zpow_le_zpow_right₀ one_le_two (by omega)
  have hproduct : (2 : ℚ) ^ (52 : Int) * 2 ^ (972 : Int) ≤ m * 2 ^ e :=
    mul_le_mul hdigits hpower (by positivity) (by positivity)
  rw [← zpow_add₀ two_ne_zero] at hproduct
  exact absurd hworth (not_lt_of_ge hproduct)

/-- Rounded digits that can be packed are up to what they were rounded from, raised. -/
theorem isUpTo_pack {m : Nat} {e : Int} (hlong : 52 ≤ m.log2) (hone : 0 ≤ m.log2 + e)
    (hworth : (m : ℚ) * 2 ^ e * raise < 2 ^ 1024) (sign : Sign) :
    IsUpTo (m * 2 ^ e * raise)
      (Float.Model.pack (roundWithAccuracy .binary64 sign m e .exact)).unpack := by
  obtain ⟨rounded, last, hpos, hround, hlog, hfrom, -, hraised⟩ :=
    roundWithAccuracy_worth (e := e) hlong (by omega) sign .exact
  have hlast := exponent_le_of_worth_lt hlog (hraised.trans_lt hworth)
  rw [hround, unpack_pack sign hpos hlog (by omega) hlast]
  exact ⟨hlog, by omega, hraised⟩

/-! The factors -/

theorem log2_shiftLeft {m : Nat} (hm : m ≠ 0) (n : Nat) : (m <<< n).log2 = m.log2 + n := by
  rw [Nat.shiftLeft_eq, Nat.log2_eq_iff (by positivity)]
  obtain ⟨hlow, hhigh⟩ := (Nat.log2_eq_iff hm).mp rfl
  have hpow (k : Nat) : 2 ^ (k + n) = 2 ^ k * 2 ^ n := pow_add 2 k n
  rw [hpow, Nat.add_right_comm, hpow]
  exact ⟨Nat.mul_le_mul_right _ hlow, Nat.mul_lt_mul_of_pos_right hhigh (Nat.two_pow_pos n)⟩

theorem shiftLeft_worth (m n : Nat) : ((m <<< n : Nat) : ℚ) * 2 ^ (-(n : Int)) = m := by
  rw [Nat.shiftLeft_eq, zpow_neg, zpow_natCast]
  push_cast
  exact mul_inv_cancel_right₀ (by positivity) _

theorem isUpTo_toFloat {n : UInt64} (hn : 0 < n.toNat) :
    IsUpTo (n.toNat * raise) n.toFloat.toModel.unpack := by
  show IsUpTo (n.toNat * raise)
    (Float.Model.pack (UnpackedFloat.normalize .binary64 (n.toNat : Int) 0 .positive)).unpack
  have hlt : n.toNat < 2 ^ 64 := n.toNat_lt
  have hsize : (n.toNat : ℚ) * raise < 2 ^ 1024 := by
    have hbound : (n.toNat : ℚ) < 2 ^ 64 := by exact_mod_cast hlt
    calc (n.toNat : ℚ) * raise ≤ 2 ^ 64 * 2 :=
          mul_le_mul hbound.le (by norm_num [raise]) raise_pos.le (by positivity)
      _ = 2 ^ 65 := by norm_num
      _ < 2 ^ 1024 := pow_lt_pow_right₀ one_lt_two (by decide)
  have hcompare : compare (n.toNat : Int) 0 = .gt := compare_gt_iff_gt.mpr (by omega)
  simp only [UnpackedFloat.normalize, hcompare, UnpackedFloat.round, decreaseExponent,
    targetExponent_eq, totalExponent, Int.toNat_natCast]
  generalize hshift : (0 - max ((n.toNat.log2 : Int) + 1 + 0 - 53) (-1074)).toNat = shift
  have hlog := log2_shiftLeft hn.ne' shift
  have hworth := shiftLeft_worth n.toNat shift
  rw [zero_sub, ← hworth]
  exact isUpTo_pack (by omega) (by omega) (hworth ▸ hsize) .positive

/-- A positive float of 53 binary digits and moderate size is exactly this number. -/
def IsExactly (v : ℚ) : UnpackedFloat → Prop
  | .finite sign m e _ =>
      sign = .positive ∧ m.log2 = 52 ∧ -52 ≤ e ∧ e ≤ 52 ∧ (m : ℚ) * 2 ^ e = v
  | _ => False

theorem IsExactly.exists_finite {v : ℚ} {u : UnpackedFloat} (hu : IsExactly v u) :
    ∃ m e hm, u = .finite .positive m e hm ∧ m.log2 = 52 ∧ -52 ≤ e ∧ e ≤ 52 ∧
      (m : ℚ) * 2 ^ e = v := by
  cases u with
  | zero | infinity | notANumber => cases hu
  | finite sign m e hm =>
      obtain ⟨rfl, hm'⟩ := hu
      exact ⟨m, e, hm, rfl, hm'⟩

theorem IsExactly.isUpTo {v : ℚ} {u : UnpackedFloat} (hu : IsExactly v u) :
    IsUpTo (v * raise) u := by
  obtain ⟨m, e, hm, rfl, hlog, hleast, -, rfl⟩ := hu.exists_finite
  exact ⟨hlog, hleast, le_mul_of_one_le_right (by positivity) one_le_raise⟩

/-- A power of ten that is not rounded. -/
def isExactPower (n : Nat) : Bool :=
  match (powerOfTen n).toModel.unpack with
  | .finite .positive m e _ =>
      m.log2 = 52 ∧ -52 ≤ e ∧ e ≤ 52 ∧ m * 2 ^ (e + 52).toNat = 10 ^ n * 2 ^ 52
  | _ => false

theorem isExactly_of_isExactPower {n : Nat} (hn : isExactPower n = true) :
    IsExactly (10 ^ n) (powerOfTen n).toModel.unpack := by
  unfold isExactPower at hn
  split at hn
  · rename_i m e hm hunpack
    simp only [decide_eq_true_eq] at hn
    obtain ⟨hlog, hleast, hbound, hexact⟩ := hn
    have hcast : (m : ℚ) * 2 ^ (e + 52).toNat = 10 ^ n * 2 ^ 52 := by exact_mod_cast hexact
    rw [← zpow_natCast (2 : ℚ) (e + 52).toNat, Int.toNat_of_nonneg (by omega),
      zpow_add₀ two_ne_zero, ← mul_assoc] at hcast
    rw [hunpack]
    exact ⟨rfl, hlog, hleast, hbound, mul_right_cancel₀ (by positivity) hcast⟩
  · contradiction

theorem isExactly_powerOfTen {n : Nat} (hn : n < 23) :
    IsExactly (10 ^ n) (powerOfTen n).toModel.unpack := by
  have hpowers : ∀ n < 23, isExactPower n = true := by decide +kernel
  exact isExactly_of_isExactPower (hpowers n hn)

theorem isUpTo_powerOfTen {n : Nat} (hn : n ≤ 308) :
    IsUpTo (10 ^ n * raise) (powerOfTen n).toModel.unpack := by
  by_cases hexact : n < 23
  · exact (isExactly_powerOfTen hexact).isUpTo
  · have hworth := shiftLeft_worth (10 ^ n) 53
    have hlog := log2_shiftLeft (m := 10 ^ n) (by positivity) 53
    have hsize : (10 : ℚ) ^ n * raise < 2 ^ 1024 := by
      have hpower : (10 : ℚ) ^ n ≤ 10 ^ 308 := pow_le_pow_right₀ (by norm_num) hn
      have hlast : 10 ^ 308 * (2 ^ 52 + 1) < 2 ^ 1024 * 2 ^ 52 := by decide +kernel
      have hraised : (10 : ℚ) ^ 308 * (2 ^ 52 + 1) < 2 ^ 1024 * 2 ^ 52 := by exact_mod_cast hlast
      have hfactor : raise = (2 ^ 52 + 1) / 2 ^ 52 := by norm_num [raise]
      calc (10 : ℚ) ^ n * raise ≤ 10 ^ 308 * raise :=
            mul_le_mul_of_nonneg_right hpower raise_pos.le
        _ = 10 ^ 308 * (2 ^ 52 + 1) / 2 ^ 52 := by rw [hfactor, mul_div_assoc]
        _ < 2 ^ 1024 := (div_lt_iff₀ (by positivity)).mpr hraised
    rw [powerOfTen_eq (by omega) hn, ← Nat.cast_ofNat, ← Nat.cast_pow, ← hworth]
    exact isUpTo_pack (by omega) (by omega) (by rw [hworth]; exact_mod_cast hsize) .positive

/-! Products -/

/-- A product is finite if it stays below `2 ^ 1024` when it is raised once more. -/
theorem isInf_mul {x y : Float} {a b : ℚ} (hx : IsUpTo a x.toModel.unpack)
    (hy : IsUpTo b y.toModel.unpack) (hsmall : a * b * raise < 2 ^ 1024) :
    (x * y).isInf = false := by
  show (Float.Model.pack (mul .binary64 x.toModel.unpack y.toModel.unpack)).unpack.isInf = false
  cases hxdef : x.toModel.unpack with
  | zero | infinity | notANumber => simp [hxdef, IsUpTo] at hx
  | finite sign₁ m₁ e₁ hm₁ =>
      cases hydef : y.toModel.unpack with
      | zero | infinity | notANumber => simp [hydef, IsUpTo] at hy
      | finite sign₂ m₂ e₂ hm₂ =>
          rw [hxdef] at hx
          rw [hydef] at hy
          obtain ⟨hlog₁, hleast₁, hx⟩ := hx
          obtain ⟨hlog₂, hleast₂, hy⟩ := hy
          have hlog : 104 ≤ (m₁ * m₂).log2 := by
            rw [Nat.le_log2 (Nat.mul_pos hm₁ hm₂).ne', (pow_add 2 52 52 : 2 ^ 104 = _)]
            exact Nat.mul_le_mul ((Nat.log2_eq_iff hm₁.ne').mp hlog₁).1
              ((Nat.log2_eq_iff hm₂.ne').mp hlog₂).1
          have hworth : ((m₁ * m₂ : Nat) : ℚ) * 2 ^ (e₁ + e₂) * raise ≤ a * b * raise := by
            have hproduct : ((m₁ * m₂ : Nat) : ℚ) * 2 ^ (e₁ + e₂) =
                m₁ * 2 ^ e₁ * (m₂ * 2 ^ e₂) := by
              rw [zpow_add₀ two_ne_zero]
              push_cast
              ring
            rw [hproduct]
            exact mul_le_mul_of_nonneg_right
              (mul_le_mul hx hy (by positivity) ((by positivity : (0 : ℚ) ≤ _).trans hx))
              raise_pos.le
          have hproduct := isUpTo_pack (e := e₁ + e₂) (by omega) (by omega)
            (hworth.trans_lt hsmall) (sign₁ * sign₂)
          rw [mul]
          cases hpacked : (Float.Model.pack (roundWithAccuracy .binary64 (sign₁ * sign₂) (m₁ * m₂)
            (e₁ + e₂) .exact)).unpack with
          | finite => rfl
          | zero | infinity | notANumber => simp [hpacked, IsUpTo] at hproduct

theorem grow_of_not_isInf {x : Float} {n : Nat} (hn : n ≤ 308)
    (hinf : (x * powerOfTen n).isInf = false) : grow x n = some (x * powerOfTen n) := by
  simp [grow, hn, hinf]

theorem exists_grow_zero (n : Nat) : ∃ y, grow (UInt64.ofNat 0).toFloat n = some y := by
  have hzero : (UInt64.ofNat 0).toFloat.toModel.unpack = .zero .positive := rfl
  by_cases hn : n ≤ 308
  · have hpower : (powerOfTen n).toModel.unpack.isFinite = true :=
      isFinite_of_isAtLeastOne (isAtLeastOne_powerOfTen hn)
    have hends : EndsBy 971 (mul .binary64 (UInt64.ofNat 0).toFloat.toModel.unpack
        (powerOfTen n).toModel.unpack) := by
      rw [hzero]
      cases hdef : (powerOfTen n).toModel.unpack with
      | zero | finite => trivial
      | infinity | notANumber => simp [hdef, isFinite] at hpower
    have hinf : ((UInt64.ofNat 0).toFloat * powerOfTen n).isInf = false :=
      (endsBy_unpack_pack hends (by decide) (by decide)).isInf
    exact ⟨_, grow_of_not_isInf hn hinf⟩
  · have hequal : ((UInt64.ofNat 0).toFloat == 0) = true := by decide +kernel
    exact ⟨_, by rw [grow, if_neg hn, if_pos hequal]⟩

/-- A significand times a power of ten has a result if the exact product is small enough. -/
theorem exists_grow {significand n : Nat} (hword : significand < UInt64.size)
    (hsmall : (significand : ℚ) * 10 ^ n * raise ^ 3 < 2 ^ 1024) :
    ∃ y, grow (UInt64.ofNat significand).toFloat n = some y := by
  have hofNat : (UInt64.ofNat significand).toNat = significand := UInt64.toNat_ofNat_of_lt hword
  have hraised : (significand : ℚ) * 10 ^ n ≤ significand * 10 ^ n * raise ^ 3 :=
    le_mul_of_one_le_right (by clear hsmall; positivity) (one_le_pow₀ one_le_raise)
  rcases Nat.eq_zero_or_pos significand with rfl | hpos
  · exact exists_grow_zero n
  · have hn : n ≤ 308 := by
      by_contra hlarge
      have hpower : (10 : ℚ) ^ 309 ≤ 10 ^ n := pow_le_pow_right₀ (by norm_num) (by omega)
      have hone : (1 : ℚ) ≤ significand := by exact_mod_cast hpos
      have hbound : 2 ^ 1024 < 10 ^ 309 := by decide +kernel
      have hhuge : (2 : ℚ) ^ 1024 < 10 ^ 309 := by exact_mod_cast hbound
      have hproduct : (10 : ℚ) ^ n ≤ significand * 10 ^ n :=
        le_mul_of_one_le_left (by positivity) hone
      exact absurd hsmall
        (not_lt_of_ge (hhuge.le.trans (hpower.trans (hproduct.trans hraised))))
    have hx := isUpTo_toFloat (n := UInt64.ofNat significand) (by omega)
    rw [hofNat] at hx
    have hinf := isInf_mul hx (isUpTo_powerOfTen hn) (by
      calc significand * raise * (10 ^ n * raise) * raise
          = (significand : ℚ) * 10 ^ n * raise ^ 3 := by ring
        _ < 2 ^ 1024 := hsmall)
    exact ⟨_, grow_of_not_isInf hn hinf⟩

end DocIndex.Decimal
