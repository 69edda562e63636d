import DocIndex.Proofs.Decimal.Binary
import DocIndex.Search.Range

/-!
Two orders of floats. Numerically a float is worth its steps from zero: the floats of a sign follow
one another in equal steps of their words, infinity after all numbers. The place of a float among
all words orders by the same steps, but keeps the two zeros apart, `-0.0` below `0.0`.
-/

namespace DocIndex.Decimal

open Float.Model (Format UnpackedFloat)
open Float.Model.UnpackedFloat

/-! Steps from zero -/

/-- The number of steps from zero, without the sign; beyond infinity there is no number. -/
def magnitude : UnpackedFloat → Int
  | .zero _ => 0
  | .finite _ mantissa exponent _ => (exponent + 1074) * 2 ^ 52 + mantissa
  | .infinity _ => 2047 * 2 ^ 52
  | .notANumber => 2047 * 2 ^ 52 + 2 ^ 51

/-- The sign of a float; what is no number counts as positive. -/
def signOf : UnpackedFloat → Sign
  | .zero sign | .finite sign _ _ _ | .infinity sign => sign
  | .notANumber => .positive

/-- The number of steps from zero. -/
def steps (u : UnpackedFloat) : Int :=
  (signOf u).apply (magnitude u)

theorem steps_zero (sign : Sign) : steps (.zero sign) = 0 := by
  cases sign <;> rfl

section Finite

variable {sign other : Sign} {m n : Nat} {e f : Int} {hm : 0 < m} {hn : 0 < n}

theorem magnitude_pos (hu : IsBinary64 (.finite sign m e hm)) :
    0 < magnitude (.finite sign m e hm) := by
  obtain ⟨-, hlow, -, -⟩ := hu
  simp only [magnitude]
  omega

theorem magnitude_lt (hu : IsBinary64 (.finite sign m e hm)) :
    magnitude (.finite sign m e hm) < 2047 * 2 ^ 52 := by
  obtain ⟨hdigits, -, hhigh, -⟩ := hu
  simp only [magnitude]
  omega

theorem steps_pos (hu : IsBinary64 (.finite .positive m e hm)) :
    0 < steps (.finite .positive m e hm) :=
  magnitude_pos hu

theorem steps_neg (hu : IsBinary64 (.finite .negative m e hm)) :
    steps (.finite .negative m e hm) < 0 :=
  Int.neg_neg_of_pos (magnitude_pos hu)

theorem steps_lt_infinity (hu : IsBinary64 (.finite sign m e hm)) :
    steps (.finite sign m e hm) < steps (.infinity .positive) := by
  have hlt := magnitude_lt hu
  cases sign with
  | positive => exact hlt
  | negative => exact (steps_neg hu).trans (by decide)

theorem infinity_lt_steps (hu : IsBinary64 (.finite sign m e hm)) :
    steps (.infinity .negative) < steps (.finite sign m e hm) := by
  have hlt := magnitude_lt hu
  cases sign with
  | positive => exact lt_trans (by decide) (steps_pos hu)
  | negative => exact Int.neg_lt_neg hlt

/-- Where exponents differ, the greater one decides. -/
theorem compare_digits (hu : IsBinary64 (.finite sign m e hm))
    (hv : IsBinary64 (.finite other n f hn)) :
    (compare e f).then (compare m n) =
      compare (magnitude (.finite sign m e hm)) (magnitude (.finite other n f hn)) := by
  obtain ⟨hmdigits, helow, -, hmshort⟩ := hu
  obtain ⟨hndigits, hflow, -, hnshort⟩ := hv
  simp only [magnitude]
  rcases lt_trichotomy e f with hlt | rfl | hgt
  · have hsteps : (e + 1074) * 2 ^ 52 + m < (f + 1074) * 2 ^ 52 + n := by omega
    rw [compare_lt_iff_lt.mpr hlt, compare_lt_iff_lt.mpr hsteps]
    rfl
  · rw [compare_eq_iff_eq.mpr rfl]
    rcases lt_trichotomy m n with hlt | rfl | hgt
    · have hsteps : (e + 1074) * 2 ^ 52 + m < (e + 1074) * 2 ^ 52 + n := by omega
      rw [compare_lt_iff_lt.mpr hlt, compare_lt_iff_lt.mpr hsteps]
      rfl
    · rw [compare_eq_iff_eq.mpr rfl, compare_eq_iff_eq.mpr rfl]
      rfl
    · have hsteps : (e + 1074) * 2 ^ 52 + n < (e + 1074) * 2 ^ 52 + m := by omega
      rw [compare_gt_iff_gt.mpr hgt, compare_gt_iff_gt.mpr hsteps]
      rfl
  · have hsteps : (f + 1074) * 2 ^ 52 + n < (e + 1074) * 2 ^ 52 + m := by omega
    rw [compare_gt_iff_gt.mpr hgt, compare_gt_iff_gt.mpr hsteps]
    rfl

end Finite

theorem swap_compare_eq_compare_neg (a b : Int) : (compare a b).swap = compare (-a) (-b) := by
  rcases lt_trichotomy a b with hlt | rfl | hgt
  · rw [compare_lt_iff_lt.mpr hlt, compare_gt_iff_gt.mpr (Int.neg_lt_neg hlt), Ordering.swap]
  · rw [compare_eq_iff_eq.mpr rfl, compare_eq_iff_eq.mpr rfl, Ordering.swap]
  · rw [compare_gt_iff_gt.mpr hgt, compare_lt_iff_lt.mpr (Int.neg_lt_neg hgt), Ordering.swap]

/-- Numbers compare as their steps from zero do. -/
theorem compare_eq_compare_steps {u v : UnpackedFloat} (hu : IsBinary64 u) (hv : IsBinary64 v)
    (hunan : u.isNaN = false) (hvnan : v.isNaN = false) :
    u.compare v = some (compare (steps u) (steps v)) := by
  cases u with
  | notANumber => contradiction
  | infinity s =>
      cases v with
      | notANumber => contradiction
      | infinity t => cases s <;> cases t <;> rfl
      | zero t => cases s <;> cases t <;> rfl
      | finite t n f hn =>
          cases s with
          | positive => rw [compare_gt_iff_gt.mpr (steps_lt_infinity hv)]; rfl
          | negative => rw [compare_lt_iff_lt.mpr (infinity_lt_steps hv)]; rfl
  | zero s =>
      cases v with
      | notANumber => contradiction
      | infinity t => cases s <;> cases t <;> rfl
      | zero t => cases s <;> cases t <;> rfl
      | finite t n f hn =>
          rw [steps_zero]
          cases t with
          | positive => rw [compare_lt_iff_lt.mpr (steps_pos hv)]; rfl
          | negative => rw [compare_gt_iff_gt.mpr (steps_neg hv)]; rfl
  | finite s m e hm =>
      cases v with
      | notANumber => contradiction
      | infinity t =>
          cases t with
          | positive => rw [compare_lt_iff_lt.mpr (steps_lt_infinity hu)]; cases s <;> rfl
          | negative => rw [compare_gt_iff_gt.mpr (infinity_lt_steps hu)]; cases s <;> rfl
      | zero t =>
          rw [steps_zero]
          cases s with
          | positive => rw [compare_gt_iff_gt.mpr (steps_pos hu)]; rfl
          | negative => rw [compare_lt_iff_lt.mpr (steps_neg hu)]; rfl
      | finite t n f hn =>
          have hdigits := compare_digits hu hv
          cases s with
          | positive =>
              cases t with
              | positive => exact congrArg some hdigits
              | negative =>
                  rw [compare_gt_iff_gt.mpr ((steps_neg hv).trans (steps_pos hu))]
                  rfl
          | negative =>
              cases t with
              | positive =>
                  rw [compare_lt_iff_lt.mpr ((steps_neg hu).trans (steps_pos hv))]
                  rfl
              | negative =>
                  have hswapped := congrArg Ordering.swap hdigits
                  rw [swap_compare_eq_compare_neg] at hswapped
                  exact congrArg some hswapped

/-! Words -/

variable {sign : Sign} {exponent mantissa : Nat} {u : UnpackedFloat}

theorem Reads.signOf (hreads : Reads sign exponent mantissa u) (hnan : u.isNaN = false) :
    signOf u = sign := by
  cases hreads with
  | notANumber => contradiction
  | infinity | zero | subnormal | normal => rfl

theorem Reads.magnitude (hreads : Reads sign exponent mantissa u) (hnan : u.isNaN = false) :
    magnitude u = exponent * 2 ^ 52 + mantissa := by
  cases hreads with
  | notANumber => contradiction
  | infinity | zero | subnormal | normal =>
      simp only [Decimal.magnitude]
      omega

/-! Places -/

theorem floatRank_of_lt {x : Float} (hlt : x.toBits.toNat < 2 ^ 63) :
    floatRank x = x.toBits.toNat + 2 ^ 63 :=
  if_pos hlt

theorem floatRank_of_ge {x : Float} (hge : 2 ^ 63 ≤ x.toBits.toNat) :
    floatRank x = 2 ^ 64 - 1 - x.toBits.toNat :=
  if_neg (Nat.not_lt.mpr hge)

theorem floatRank_injective : Function.Injective floatRank := by
  intro x y hrank
  have hx := x.toBits.toNat_lt
  have hy := y.toBits.toNat_lt
  have hword : x.toBits.toNat = y.toBits.toNat := by
    rcases Nat.lt_or_ge x.toBits.toNat (2 ^ 63) with hxlow | hxhigh <;>
      rcases Nat.lt_or_ge y.toBits.toNat (2 ^ 63) with hylow | hyhigh
    · rw [floatRank_of_lt hxlow, floatRank_of_lt hylow] at hrank
      omega
    · rw [floatRank_of_lt hxlow, floatRank_of_ge hyhigh] at hrank
      omega
    · rw [floatRank_of_ge hxhigh, floatRank_of_lt hylow] at hrank
      omega
    · rw [floatRank_of_ge hxhigh, floatRank_of_ge hyhigh] at hrank
      omega
  have hbits := UInt64.toNat_inj.mp hword
  obtain ⟨⟨xbits, hxvalid⟩⟩ := x
  obtain ⟨⟨ybits, hyvalid⟩⟩ := y
  obtain rfl : xbits = ybits := hbits
  rfl

theorem magnitude_mem {u : UnpackedFloat} (hu : IsBinary64 u) (hnan : u.isNaN = false) :
    0 ≤ magnitude u ∧ magnitude u ≤ 2047 * 2 ^ 52 := by
  cases u with
  | notANumber => contradiction
  | zero | infinity => simp [magnitude]
  | finite => exact ⟨Int.le_of_lt (magnitude_pos hu), Int.le_of_lt (magnitude_lt hu)⟩

/-- The place of a number follows its steps from zero, from one of two zeros on. -/
theorem floatRank_cases {x : Float} (hnan : x.isNaN = false) :
    0 ≤ steps x.toModel.unpack ∧ steps x.toModel.unpack ≤ 2047 * 2 ^ 52 ∧
        (floatRank x : Int) = 2 ^ 63 + steps x.toModel.unpack ∨
      -2047 * 2 ^ 52 ≤ steps x.toModel.unpack ∧ steps x.toModel.unpack ≤ 0 ∧
        (floatRank x : Int) = 2 ^ 63 - 1 + steps x.toModel.unpack := by
  obtain ⟨sign, exponent, mantissa, hreads, hexponent, hmantissa, hword⟩ := exists_reads x
  have hmem := magnitude_mem (isBinary64_unpack x) hnan
  have hmagnitude := hreads.magnitude hnan
  rw [steps, hreads.signOf hnan]
  cases sign with
  | positive =>
      left
      rw [signPart] at hword
      rw [floatRank_of_lt (by omega), Sign.apply]
      omega
  | negative =>
      right
      rw [signPart] at hword
      rw [floatRank_of_ge (by omega), Sign.apply]
      omega

/-! The two orders -/

section Orders

variable {x y : Float}

theorem le_iff_steps (hx : x.isNaN = false) (hy : y.isNaN = false) :
    x ≤ y ↔ steps x.toModel.unpack ≤ steps y.toModel.unpack := by
  have hcompare := compare_eq_compare_steps (isBinary64_unpack x) (isBinary64_unpack y) hx hy
  have hle : x ≤ y ↔ (x.toModel.unpack.compare y.toModel.unpack).any (·.isLE) = true :=
    decide_eq_true_iff
  rw [hle, hcompare]
  exact Std.isLE_compare

theorem lt_iff_steps (hx : x.isNaN = false) (hy : y.isNaN = false) :
    x < y ↔ steps x.toModel.unpack < steps y.toModel.unpack := by
  have hcompare := compare_eq_compare_steps (isBinary64_unpack x) (isBinary64_unpack y) hx hy
  have hlt : x < y ↔ (x.toModel.unpack.compare y.toModel.unpack == some .lt) = true :=
    decide_eq_true_iff
  rw [hlt, hcompare, beq_iff_eq, Option.some.injEq]
  exact compare_lt_iff_lt

theorem beq_iff_steps (hx : x.isNaN = false) (hy : y.isNaN = false) :
    (x == y) = true ↔ steps x.toModel.unpack = steps y.toModel.unpack := by
  have hcompare := compare_eq_compare_steps (isBinary64_unpack x) (isBinary64_unpack y) hx hy
  have hbeq : (x == y) = (x.toModel.unpack.compare y.toModel.unpack == some .eq) := rfl
  rw [hbeq, hcompare]
  simp

theorem eq_zero_iff : x = 0.0 ↔ floatRank x = 2 ^ 63 := by
  have hzero : floatRank 0.0 = 2 ^ 63 := by decide +kernel
  rw [← hzero, floatRank_injective.eq_iff]

theorem eq_negZero_iff : x = -0.0 ↔ floatRank x = 2 ^ 63 - 1 := by
  have hzero : floatRank (-0.0) = 2 ^ 63 - 1 := by decide +kernel
  rw [← hzero, floatRank_injective.eq_iff]

/-- The places of numbers are ordered as the numbers are, but for the two zeros. -/
theorem floatRank_le_iff (hx : x.isNaN = false) (hy : y.isNaN = false) :
    floatRank x ≤ floatRank y ↔ x ≤ y ∧ ¬(x = 0.0 ∧ y = -0.0) := by
  have hxrank := floatRank_cases hx
  have hyrank := floatRank_cases hy
  rw [le_iff_steps hx hy, eq_zero_iff, eq_negZero_iff]
  omega

/-- Numbers are equal if they are the same float, or both zero. -/
theorem beq_iff (hx : x.isNaN = false) (hy : y.isNaN = false) :
    (x == y) = true ↔ x = y ∨ x = 0.0 ∧ y = -0.0 ∨ x = -0.0 ∧ y = 0.0 := by
  have hxrank := floatRank_cases hx
  have hyrank := floatRank_cases hy
  rw [beq_iff_steps hx hy, eq_zero_iff, eq_negZero_iff, eq_zero_iff, eq_negZero_iff,
    ← floatRank_injective.eq_iff]
  omega

theorem floatRank_infinity : floatRank infinity = 2 ^ 63 + 2047 * 2 ^ 52 := by
  decide +kernel

theorem floatRank_neg_infinity : floatRank (-infinity) = 2 ^ 63 - 1 - 2047 * 2 ^ 52 := by
  decide +kernel

/-- There is one word for what is no number. -/
theorem floatRank_of_isNaN (hx : x.isNaN = true) :
    floatRank x = 2 ^ 63 + 2047 * 2 ^ 52 + 2 ^ 51 := by
  let bits : BitVec Format.binary64.numBits := x.toModel.toBits.toBitVec
  have hreads : Reads _ (unpackExponent bits).toNat (unpackMantissa bits).toNat x.toModel.unpack :=
    reads_unpack bits
  have hunpack : x.toModel.unpack.isNaN = true := hx
  have hword : bits = packedNaN .binary64 := by
    cases hu : x.toModel.unpack with
    | infinity | zero | finite => simp [hu, isNaN] at hunpack
    | notANumber =>
        rw [hu] at hreads
        cases hreads with
        | notANumber hlast hsome =>
            exact x.toModel.valid.eq_packedNaN (BitVec.eq_of_toNat_eq hlast)
              fun hnone => hsome (congrArg BitVec.toNat hnone)
  have htoNat : x.toBits.toNat = 2047 * 2 ^ 52 + 2 ^ 51 := congrArg BitVec.toNat hword
  rw [floatRank_of_lt (by omega)]
  omega

/-- What is a number lies between the infinities; what is none lies above both. -/
theorem isNaN_eq_false_iff : x.isNaN = false ↔
    floatRank (-infinity) ≤ floatRank x ∧ floatRank x ≤ floatRank infinity := by
  rw [floatRank_infinity, floatRank_neg_infinity]
  cases hx : x.isNaN with
  | false =>
      have hrank := floatRank_cases hx
      refine iff_of_true rfl ?_
      omega
  | true =>
      have hrank := floatRank_of_isNaN hx
      refine iff_of_false Bool.true_eq_false_eq_False ?_
      omega

end Orders

end DocIndex.Decimal
