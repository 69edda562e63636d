import Mathlib

/-!
How words are read as binary64 numbers, and which operations on them have finite results. The
exponent of the last binary digit tells: rounding raises it by a carry at most, and packing takes
every exponent up to 971. So the quotient of a number of moderate size by one that is not less than
one is finite, and a product of finite numbers is finite unless it is infinite; it is never no
number at all.
-/

namespace DocIndex.Decimal

open Float.Model (Format UnpackedFloat totalExponent)
open Float.Model.UnpackedFloat

/-- A finite number whose last binary digit is worth `2 ^ bound` at most. -/
def EndsBy (bound : Int) : UnpackedFloat → Prop
  | .zero _ => True
  | .finite _ _ exponent _ => exponent ≤ bound
  | _ => False

theorem EndsBy.isFinite {bound : Int} {u : UnpackedFloat} (hu : EndsBy bound u) :
    u.isFinite = true := by
  cases u with
  | zero | finite => rfl
  | infinity | notANumber => cases hu

theorem EndsBy.isInf {bound : Int} {u : UnpackedFloat} (hu : EndsBy bound u) :
    u.isInf = false := by
  cases u with
  | zero | finite => rfl
  | infinity | notANumber => cases hu

theorem EndsBy.mono {bound larger : Int} {u : UnpackedFloat} (hu : EndsBy bound u)
    (hle : bound ≤ larger) : EndsBy larger u := by
  cases u with
  | zero => trivial
  | finite sign mantissa exponent hpos => exact Int.le_trans hu hle
  | infinity | notANumber => cases hu

/-! Rounding -/

theorem mantissa_shiftRight (em : ExtendedMantissa) (n : Nat) :
    (em >>> n).mantissa = em.mantissa / 2 ^ n := by
  induction n with
  | zero => exact (Nat.div_one _).symm
  | succ n ih =>
      have hstep : (em >>> (n + 1)).mantissa = (em >>> n).mantissa / 2 := rfl
      rw [hstep, ih, Nat.div_div_eq_div_mul, Nat.pow_succ]

theorem mantissa_ofMantissaAndAccuracy (m : Nat) (accuracy : Accuracy) :
    (ExtendedMantissa.ofMantissaAndAccuracy m accuracy).mantissa = m := by
  cases accuracy with
  | exact => rfl
  | inexact order => cases order <;> rfl

theorem roundedMantissa_le (em : ExtendedMantissa) : em.roundedMantissa ≤ em.mantissa + 1 := by
  have hparity := Nat.mod_lt em.mantissa (Nat.two_pos)
  rw [ExtendedMantissa.roundedMantissa]
  cases em.accuracy with
  | exact => exact Nat.le_succ _
  | inexact order =>
      cases order with
      | lt => exact Nat.le_succ _
      | eq => exact Nat.add_le_add_left (by omega) _
      | gt => exact Nat.le_refl _

theorem targetExponent_eq (e : Int) : Format.binary64.targetExponent e = max (e - 53) (-1074) := rfl

theorem shiftToTargetExponent_fst (m : Nat) (e : Int) (accuracy : Accuracy) :
    (shiftToTargetExponent .binary64 m e accuracy).1.mantissa =
      m / 2 ^ (Format.binary64.targetExponent (totalExponent m e) - e).toNat := by
  simp only [shiftToTargetExponent, shiftToExponent, mantissa_shiftRight,
    mantissa_ofMantissaAndAccuracy]

theorem shiftToTargetExponent_snd (m : Nat) (e : Int) (accuracy : Accuracy) :
    (shiftToTargetExponent .binary64 m e accuracy).2 =
      max e (max (m.log2 + 1 + e - 53) (-1074)) := by
  simp only [shiftToTargetExponent, shiftToExponent, targetExponent_eq, totalExponent]
  omega

theorem log2_le_of_le {m p : Nat} (hm : m ≤ 2 ^ p) : m.log2 ≤ p := by
  rw [Nat.log2_eq_log_two]
  exact (Nat.log_mono_right hm).trans_eq (Nat.log_pow Nat.one_lt_two p)

theorem log2_lt_of_lt {m p : Nat} (hp : 0 < p) (hm : m < 2 ^ p) : m.log2 < p := by
  by_cases hzero : m = 0
  · rw [hzero, Nat.log2_zero]
    exact hp
  · exact (Nat.log2_lt hzero).mpr hm

theorem div_two_pow_lt {m p : Nat} (hm : m < 2 ^ p) (n : Nat) : m / 2 ^ n < 2 ^ (p - n) := by
  rw [Nat.div_lt_iff_lt_mul (Nat.two_pow_pos n), ← Nat.pow_add]
  exact hm.trans_le (Nat.pow_le_pow_right Nat.two_pos (by omega))

theorem shiftLeft_lt {m p : Nat} (hm : m < 2 ^ p) (n : Nat) : m <<< n < 2 ^ (p + n) := by
  rw [Nat.shiftLeft_eq, Nat.pow_add]
  exact Nat.mul_lt_mul_of_pos_right hm (Nat.two_pow_pos n)

/-- Rounding may carry once, but no further than to the digit above the highest one. -/
theorem endsBy_roundWithAccuracy {m p : Nat} {e bound : Int} (hp : 0 < p) (hm : m < 2 ^ p)
    (he : e ≤ bound) (hleast : -1074 ≤ bound) (hhigh : p + e - 52 ≤ bound) (sign : Sign)
    (accuracy : Accuracy) :
    EndsBy bound (roundWithAccuracy .binary64 sign m e accuracy) := by
  have hlog : m.log2 < p := log2_lt_of_lt hp hm
  unfold roundWithAccuracy
  generalize hfirst : shiftToTargetExponent .binary64 m e accuracy = first
  obtain ⟨em, e₁⟩ := first
  have hmantissa := shiftToTargetExponent_fst m e accuracy
  have hexponent := shiftToTargetExponent_snd m e accuracy
  rw [hfirst] at hmantissa hexponent
  dsimp only at hmantissa hexponent ⊢
  generalize hshift : (Format.binary64.targetExponent (totalExponent m e) - e).toNat = shift
    at hmantissa
  have hrounded := roundedMantissa_le em
  have hsecond := shiftToTargetExponent_snd em.roundedMantissa e₁ .exact
  generalize shiftToTargetExponent .binary64 em.roundedMantissa e₁ .exact = second at hsecond ⊢
  split
  · trivial
  · show second.2 ≤ bound
    have hcarry : em.roundedMantissa ≤ 2 ^ (p - shift) := by
      have hdiv := div_two_pow_lt hm shift
      omega
    have hlogRounded := log2_le_of_le hcarry
    rw [targetExponent_eq, totalExponent] at hshift
    omega

/-! Words -/

/-- The digits of a finite number are those of a word: 53 of them, fewer at the least exponent. -/
def IsBinary64 : UnpackedFloat → Prop
  | .finite _ mantissa exponent _ => mantissa < 2 ^ 53 ∧ -1074 ≤ exponent ∧ exponent ≤ 971 ∧
      (mantissa < 2 ^ 52 → exponent = -1074)
  | _ => True

/-- How the three parts of a word are read as a float. -/
inductive Reads (sign : Sign) (exponent mantissa : Nat) : UnpackedFloat → Prop where
  | infinity (hlast : exponent = 2047) (hnone : mantissa = 0) :
      Reads sign exponent mantissa (.infinity sign)
  | notANumber (hlast : exponent = 2047) (hsome : mantissa ≠ 0) :
      Reads sign exponent mantissa .notANumber
  | zero (hfirst : exponent = 0) (hnone : mantissa = 0) : Reads sign exponent mantissa (.zero sign)
  | subnormal (hfirst : exponent = 0) {hpos : 0 < mantissa} :
      Reads sign exponent mantissa (.finite sign mantissa (-1074) hpos)
  | normal (hlow : 0 < exponent) (hhigh : exponent < 2047) {hpos : 0 < 2 ^ 52 + mantissa} :
      Reads sign exponent mantissa (.finite sign (2 ^ 52 + mantissa) (exponent - 1075) hpos)

theorem toNat_implicit (mantissa : BitVec 52) :
    (1#1 ++ mantissa).toNat = 2 ^ 52 + mantissa.toNat := by
  rw [BitVec.toNat_append, ← Nat.shiftLeft_add_eq_or_of_lt mantissa.isLt]
  rfl

theorem reads_unpack (bits : BitVec Format.binary64.numBits) :
    Reads (Sign.ofBitVec (unpackSign bits)) (unpackExponent bits).toNat (unpackMantissa bits).toNat
      (unpack .binary64 bits) := by
  have hlast : unpackExponent bits = -1#_ ↔ (unpackExponent bits).toNat = 2047 := BitVec.toNat_eq
  have hfirst : unpackExponent bits = 0#_ ↔ (unpackExponent bits).toNat = 0 := BitVec.toNat_eq
  have hnone : unpackMantissa bits = 0#_ ↔ (unpackMantissa bits).toNat = 0 := BitVec.toNat_eq
  have hbias : (Format.binary64.exponentBias : Int) +
      Format.binary64.mantissaBitsWithoutImplicit = 1075 := rfl
  unfold unpack
  simp only [hbias]
  by_cases hexponent : unpackExponent bits = -1#_
  · rw [if_pos hexponent]
    by_cases hmantissa : unpackMantissa bits = 0#_
    · rw [if_pos hmantissa]
      exact .infinity (hlast.mp hexponent) (hnone.mp hmantissa)
    · rw [if_neg hmantissa]
      exact .notANumber (hlast.mp hexponent) (mt hnone.mpr hmantissa)
  · rw [if_neg hexponent]
    have hhigh : (unpackExponent bits).toNat < 2047 := by
      have hlt : (unpackExponent bits).toNat < 2 ^ 11 := (unpackExponent bits).isLt
      have hne := mt hlast.mpr hexponent
      omega
    by_cases hzero : unpackExponent bits = 0#_
    · rw [if_pos hzero]
      by_cases hmantissa : unpackMantissa bits = 0#_
      · rw [dif_pos hmantissa]
        exact .zero (hfirst.mp hzero) (hnone.mp hmantissa)
      · rw [dif_neg hmantissa]
        simp only [hfirst.mp hzero]
        exact .subnormal rfl
    · rw [if_neg hzero]
      simp only [toNat_implicit (unpackMantissa bits)]
      exact .normal (Nat.pos_of_ne_zero (mt hfirst.mpr hzero)) hhigh

section Reads

variable {sign : Sign} {exponent mantissa : Nat} {u : UnpackedFloat}

theorem Reads.isBinary64 (hreads : Reads sign exponent mantissa u) (hmantissa : mantissa < 2 ^ 52) :
    IsBinary64 u := by
  cases hreads with
  | infinity | notANumber | zero => trivial
  | subnormal => exact ⟨hmantissa.trans (by decide), Int.le_refl _, by decide, fun _ => rfl⟩
  | normal =>
      simp only [IsBinary64]
      omega

theorem Reads.exponent_ne (hreads : Reads sign exponent mantissa u) (hfinite : u.isFinite = true) :
    exponent ≠ 2047 := by
  cases hreads with
  | infinity | notANumber => contradiction
  | zero hfirst | subnormal hfirst => omega
  | normal => omega

theorem Reads.endsBy (hreads : Reads sign exponent mantissa u) (hexponent : exponent ≠ 2047) :
    EndsBy (max (exponent - 1075) (-1074)) u := by
  cases hreads with
  | infinity hlast | notANumber hlast => exact absurd hlast hexponent
  | zero => trivial
  | subnormal => exact Int.le_max_right _ _
  | normal => exact Int.le_max_left _ _

theorem Reads.isNaN (hreads : Reads sign exponent mantissa u)
    (hnumber : exponent ≠ 2047 ∨ mantissa = 0) : u.isNaN = false := by
  cases hreads with
  | notANumber hlast hsome => exact absurd hnumber (by tauto)
  | infinity | zero | subnormal | normal => rfl

end Reads

theorem toNat_eq_parts (bits : BitVec Format.binary64.numBits) :
    bits.toNat = (unpackSign bits).toNat * 2 ^ 63 + (unpackExponent bits).toNat * 2 ^ 52 +
      (unpackMantissa bits).toNat := by
  have hsign : (unpackSign bits).toNat = bits.toNat >>> 63 % 2 ^ 1 := rfl
  have hexponent : (unpackExponent bits).toNat = bits.toNat >>> 52 % 2 ^ 11 := rfl
  have hmantissa : (unpackMantissa bits).toNat = bits.toNat >>> 0 % 2 ^ 52 := rfl
  have hlt : bits.toNat < 2 ^ 64 := bits.isLt
  rw [hsign, hexponent, hmantissa]
  simp only [Nat.shiftRight_eq_div_pow]
  omega

/-- What a sign counts in a word. -/
def signPart : Sign → Nat
  | .positive => 0
  | .negative => 2 ^ 63

theorem signPart_cases (sign : Sign) : signPart sign = 0 ∨ signPart sign = 2 ^ 63 := by
  cases sign with
  | positive => exact .inl rfl
  | negative => exact .inr rfl

/-- The parts of the word of a float tell what it is read as. -/
theorem exists_reads (x : Float) : ∃ (sign : Sign) (exponent mantissa : Nat),
    Reads sign exponent mantissa x.toModel.unpack ∧ exponent < 2 ^ 11 ∧ mantissa < 2 ^ 52 ∧
      x.toBits.toNat = signPart sign + exponent * 2 ^ 52 + mantissa := by
  let bits : BitVec Format.binary64.numBits := x.toModel.toBits.toBitVec
  refine ⟨Sign.ofBitVec (unpackSign bits), (unpackExponent bits).toNat,
    (unpackMantissa bits).toNat, reads_unpack bits, (unpackExponent bits).isLt,
    (unpackMantissa bits).isLt, (toNat_eq_parts bits).trans ?_⟩
  rcases BitVec.eq_zero_or_eq_one (unpackSign bits) with hsign | hsign <;> rw [hsign] <;> rfl

theorem isBinary64_unpack (x : Float) : IsBinary64 x.toModel.unpack :=
  (reads_unpack _).isBinary64 (unpackMantissa _).isLt

theorem endsBy_of_isFinite {x : Float} (hfinite : x.isFinite = true) :
    EndsBy 971 x.toModel.unpack := by
  have hword := isBinary64_unpack x
  have hunpack : x.toModel.unpack.isFinite = true := hfinite
  cases hu : x.toModel.unpack with
  | zero => trivial
  | finite sign m e hm =>
      rw [hu] at hword
      exact hword.2.2.1
  | infinity | notANumber => simp [hu, isFinite] at hunpack

/-! Packing -/

theorem pack_finite_of_lt {sign : Sign} {m : Nat} {e : Int} (hm : 0 < m) (he : 971 < e) :
    pack .binary64 (.finite sign m e hm) = packedInfinity .binary64 sign := by
  have hlarge : 2 ^ 11 ≤ (e + 1023 + 52).toNat + 1 := by omega
  exact if_pos hlarge

theorem unpackExponent_pack_finite_le (sign : Sign) {m : Nat} {e : Int} (hm : 0 < m)
    (he : e ≤ 971) :
    (unpackExponent (pack .binary64 (.finite sign m e hm))).toNat ≤ (e + 1075).toNat := by
  have hbias : Format.binary64.exponentBias = 1023 := rfl
  have hsmall : ¬ 2 ^ 11 ≤ (e + (1023 : Nat) + (52 : Nat)).toNat + 1 := by omega
  unfold pack
  dsimp only
  rw [hbias, if_neg hsmall]
  split
  · rw [unpackExponent_packComponents, BitVec.toNat_ofNat]
    exact (Nat.mod_le _ _).trans (by omega)
  · rw [unpackExponent_packComponents]
    exact Nat.zero_le _

/-- What is packed is as finite as before, if its exponent can be packed at all. -/
theorem endsBy_unpack_pack {u : UnpackedFloat} {bound : Int} (hu : EndsBy bound u)
    (hleast : -1074 ≤ bound) (hbound : bound ≤ 971) :
    EndsBy bound (Float.Model.pack u).unpack := by
  show EndsBy bound (unpack .binary64 (pack .binary64 u))
  cases u with
  | infinity sign => cases hu
  | notANumber => cases hu
  | zero sign =>
      have hexponent : (unpackExponent (pack .binary64 (.zero sign))).toNat = 0 :=
        congrArg BitVec.toNat unpackExponent_packComponents
      exact ((reads_unpack _).endsBy (by omega)).mono (by omega)
  | finite sign m e hm =>
      have he : e ≤ bound := hu
      have hle := unpackExponent_pack_finite_le sign hm (he.trans hbound)
      exact ((reads_unpack _).endsBy (by omega)).mono (by omega)

/-- Only what is no number is packed as no number. -/
theorem isNaN_unpack_pack {u : UnpackedFloat} (hu : u.isNaN = false) :
    (Float.Model.pack u).unpack.isNaN = false := by
  show (unpack .binary64 (pack .binary64 u)).isNaN = false
  apply (reads_unpack _).isNaN
  cases u with
  | notANumber => cases hu
  | infinity sign => exact .inr (congrArg BitVec.toNat unpackMantissa_packComponents)
  | zero sign => exact .inr (congrArg BitVec.toNat unpackMantissa_packComponents)
  | finite sign m e hm =>
      by_cases he : e ≤ 971
      · have hle := unpackExponent_pack_finite_le sign hm he
        exact .inl (by omega)
      · rw [pack_finite_of_lt hm (by omega)]
        exact .inr (congrArg BitVec.toNat unpackMantissa_packComponents)

/-! Operations -/

/-- A finite number that is not less than one. -/
def isAtLeastOne (x : Float) : Bool :=
  match x.toModel.unpack with
  | .finite _ m e _ => decide (1 ≤ totalExponent m e)
  | _ => false

theorem isFinite_of_isAtLeastOne {x : Float} (hx : isAtLeastOne x = true) : x.isFinite = true := by
  show x.toModel.unpack.isFinite = true
  unfold isAtLeastOne at hx
  split at hx
  · rename_i hunpack
    rw [hunpack]
    rfl
  · cases hx

/-- The quotient by a number that is not less than one is finite. -/
theorem endsBy_div {x y : Float} {bound : Int} (hx : EndsBy bound x.toModel.unpack)
    (hy : isAtLeastOne y = true) (hleast : -1074 ≤ bound) (hbound : bound < 971) :
    EndsBy (bound + 1) (x / y).toModel.unpack := by
  suffices hquotient : EndsBy (bound + 1) (div .binary64 x.toModel.unpack y.toModel.unpack) from
    endsBy_unpack_pack hquotient (by omega) (by omega)
  unfold isAtLeastOne at hy
  cases hydef : y.toModel.unpack with
  | zero | infinity | notANumber => simp [hydef] at hy
  | finite sign₂ m₂ e₂ hm₂ =>
      rw [hydef, decide_eq_true_eq, totalExponent] at hy
      cases hxdef : x.toModel.unpack with
      | infinity | notANumber =>
          rw [hxdef] at hx
          cases hx
      | zero sign₁ => trivial
      | finite sign₁ m₁ e₁ hm₁ =>
          rw [hxdef] at hx
          have he₁ : e₁ ≤ bound := hx
          have hword := isBinary64_unpack x
          rw [hxdef] at hword
          have hlt : m₁ < 2 ^ 53 := hword.1
          have hlog : m₁.log2 < 53 := log2_lt_of_lt (by decide) hlt
          simp only [div, divCore, targetExponent_eq, totalExponent]
          generalize htarget : min (e₁ - e₂) _ = target
          generalize hshift : (e₁ - e₂ - target).toNat = shift
          have hquotient : m₁ <<< shift / m₂ < 2 ^ (53 + shift - m₂.log2) := by
            have hle : m₁ <<< shift / m₂ ≤ m₁ <<< shift / 2 ^ m₂.log2 :=
              Nat.div_le_div_left (Nat.log2_self_le hm₂.ne') (Nat.two_pow_pos _)
            exact hle.trans_lt (div_two_pow_lt (shiftLeft_lt hlt shift) _)
          refine endsBy_roundWithAccuracy (p := max 1 (53 + shift - m₂.log2)) (by omega) ?_
            (by omega) (by omega) (by omega) _ _
          exact hquotient.trans_le (Nat.pow_le_pow_right Nat.two_pos (Nat.le_max_right _ _))

theorem endsBy_round {m : Nat} (hm : m < 2 ^ 64) (sign : Sign) :
    EndsBy 12 (UnpackedFloat.round .binary64 sign m 0) := by
  simp only [UnpackedFloat.round, decreaseExponent, targetExponent_eq, totalExponent]
  generalize hshift : (0 - max ((m.log2 : Int) + 1 + 0 - 53) (-1074)).toNat = shift
  exact endsBy_roundWithAccuracy (by omega) (shiftLeft_lt hm shift) (by omega) (by omega)
    (by omega) sign _

theorem endsBy_toFloat (n : UInt64) : EndsBy 12 n.toFloat.toModel.unpack := by
  refine endsBy_unpack_pack ?_ (by decide) (by decide)
  have hn : n.toNat < 2 ^ 64 := n.toNat_lt
  show EndsBy 12 (UnpackedFloat.normalize .binary64 (n.toNat : Int) 0 .positive)
  unfold UnpackedFloat.normalize
  split
  · exact endsBy_round (by omega) _
  · trivial
  · exact endsBy_round (by omega) _

theorem isNaN_mul {u v : UnpackedFloat} (hu : u.isFinite = true) (hv : v.isFinite = true) :
    (mul .binary64 u v).isNaN = false := by
  cases u with
  | infinity | notANumber => cases hu
  | zero sign₁ =>
      cases v with
      | infinity | notANumber => cases hv
      | zero | finite => rfl
  | finite sign₁ m₁ e₁ hm₁ =>
      cases v with
      | infinity | notANumber => cases hv
      | zero sign₂ => rfl
      | finite sign₂ m₂ e₂ hm₂ =>
          unfold mul roundWithAccuracy
          dsimp only
          split <;> rfl

/-- A product of finite numbers is finite unless it is too large. -/
theorem isFinite_mul {x y : Float} (hx : x.isFinite = true) (hy : y.isFinite = true)
    (hsmall : (x * y).isInf = false) : (x * y).isFinite = true := by
  have hnumber : (x * y).toModel.unpack.isNaN = false := isNaN_unpack_pack (isNaN_mul hx hy)
  have hbounded : (x * y).toModel.unpack.isInf = false := hsmall
  show (x * y).toModel.unpack.isFinite = true
  cases hunpack : (x * y).toModel.unpack with
  | zero | finite => rfl
  | infinity | notANumber => simp [hunpack, isInf, isNaN] at hbounded hnumber

theorem isFinite_neg {x : Float} (hx : x.isFinite = true) : (-x).isFinite = true := by
  have hends : EndsBy 971 x.toModel.unpack := endsBy_of_isFinite hx
  have hneg : EndsBy 971 x.toModel.unpack.neg := by
    cases hunpack : x.toModel.unpack with
    | zero | finite =>
        rw [hunpack] at hends
        exact hends
    | infinity | notANumber =>
        rw [hunpack] at hends
        cases hends
  exact (endsBy_unpack_pack hneg (by decide) (by decide)).isFinite

end DocIndex.Decimal
