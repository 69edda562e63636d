import DocIndex.Proofs.Decimal.Exact
import DocIndex.Proofs.Decimal.Interval
import DocIndex.Word

/-!
Floats whose shortest decimals are read back. The digits of a decimal and the power of ten that they
are scaled by are rounded once, if they are exact themselves; and what the shortest decimal of a
float rounds to is the float.
-/

namespace DocIndex.Decimal

open Float.Model (Format UnpackedFloat)
open Float.Model.UnpackedFloat

theorem pack_unpack (x : Float) : Float.Model.pack x.toModel.unpack = x.toModel := by
  obtain ⟨⟨bits, hvalid⟩⟩ := x
  have hbits : pack .binary64 (unpack .binary64 bits.toBitVec) = bits.toBitVec :=
    pack_unpack_of_valid hvalid
  simp only [Float.Model.pack, Float.Model.unpack, hbits]

def wordSign (x : Float) : Sign :=
  if x.toBits.toNat < signWeight then .positive else .negative

namespace Binary

variable {x : Float}

/-- A finite float has the digits that its word tells, and is no zero unless these are none. -/
theorem unpack_eq_ofBits (hx : x.isFinite = true) (hpos : 0 < (ofBits x.toBits.toNat).mantissa) :
    x.toModel.unpack = .finite (wordSign x) (ofBits x.toBits.toNat).mantissa
      (ofBits x.toBits.toNat).exponent hpos := by
  obtain ⟨sign, exponent, mantissa, hreads, hexponent, hmantissa, hword⟩ := exists_reads x
  have hsign : sign = wordSign x := by
    unfold wordSign signWeight
    cases sign with
    | positive =>
        rw [signPart] at hword
        exact (if_pos (by omega)).symm
    | negative =>
        rw [signPart] at hword
        exact (if_neg (by omega)).symm
  have hpart := signPart_cases sign
  have hfraction : x.toBits.toNat % hiddenBit = mantissa := by
    unfold hiddenBit
    omega
  have hbiased : x.toBits.toNat / hiddenBit % 2048 = exponent := by
    unfold hiddenBit
    omega
  have hunpack : x.toModel.unpack.isFinite = true := hx
  rw [hsign] at hreads
  simp only [ofBits, hfraction, hbiased] at hpos ⊢
  generalize x.toModel.unpack = u at hreads hunpack ⊢
  cases hreads with
  | infinity | notANumber => contradiction
  | zero hfirst hnone => simp [hfirst, hnone] at hpos
  | subnormal hfirst => simp only [hfirst, if_true]
  | normal hlow =>
      simp only [if_neg hlow.ne']
      rfl

/-- Only the words of the two zeros have no digits. -/
theorem eq_zero_of_mantissa {bits : Nat} (hword : bits < 2 ^ 64)
    (hzero : (ofBits bits).mantissa = 0) : bits = 0 ∨ bits = 2 ^ 63 := by
  by_cases hfirst : bits / hiddenBit % 2048 = 0
  · simp only [ofBits, if_pos hfirst] at hzero
    unfold hiddenBit at *
    omega
  · simp only [ofBits, if_neg hfirst] at hzero
    unfold hiddenBit at *
    omega

/-- A float that is not among the least ones has 53 digits. -/
theorem isNormal_ofBits (hx : x.isFinite = true)
    (hleast : -1073 ≤ (ofBits x.toBits.toNat).exponent) : (ofBits x.toBits.toNat).IsNormal := by
  obtain ⟨hmantissa, -, hexponent⟩ := isFinite_ofBits hx
  generalize x.toBits.toNat = bits at *
  by_cases hfirst : bits / hiddenBit % 2048 = 0
  · simp [ofBits, hfirst] at hleast
  · have hfraction : bits % hiddenBit < hiddenBit := Nat.mod_lt _ (by decide)
    simp only [ofBits, if_neg hfirst] at hmantissa hexponent hleast ⊢
    refine ⟨Nat.le_add_right _ _, hmantissa, ?_, hleast, hexponent⟩
    unfold hiddenBit at *
    dsimp only
    rw [Bool.and_eq_true, decide_eq_true_eq, decide_eq_true_eq]
    omega

/-- Numbers that are not too small end at a digit that any float can have. -/
theorem Takes.le_exponent {b : Binary} {v : ℚ} (htakes : b.Takes v) (hfinite : b.IsFinite)
    (hv : 10 ^ (-22 : Int) ≤ v) : -1073 ≤ b.exponent := by
  have hdigits : (b.mantissa : ℚ) + 1 / 2 ≤ 2 ^ (54 : Int) := by
    have hcast : (b.mantissa : ℚ) ≤ 2 ^ 53 := by exact_mod_cast hfinite.mantissa_lt.le
    exact (add_le_add_left hcast _).trans (by norm_num)
  have hupper : v ≤ 2 ^ (54 + b.exponent) := by
    rw [zpow_add₀ two_ne_zero, ← div_le_iff₀ (by positivity)]
    exact htakes.isNearest.ge.trans hdigits
  have hpower : (2 : ℚ) ^ (-74 : Int) < 2 ^ (54 + b.exponent) :=
    lt_of_lt_of_le (by norm_num) (hv.trans hupper)
  have hexponent := (zpow_lt_zpow_iff_right₀ one_lt_two).mp hpower
  omega

theorem Takes.pos {b : Binary} {v : ℚ} (htakes : b.Takes v) (hb : 0 < b.mantissa) : 0 < v := by
  have hone : (1 : ℚ) ≤ b.mantissa := by exact_mod_cast hb
  have hratio : 0 < v / 2 ^ b.exponent := by linarith [htakes.isNearest.le]
  exact (div_pos_iff_of_pos_right (by positivity)).mp hratio

/-- The float of a word, up to its sign. -/
theorem IsFloat.eq_of_ofBits {y : Float} (hx : x.isFinite = true)
    (hnormal : (ofBits x.toBits.toNat).IsNormal) (hy : (ofBits x.toBits.toNat).IsFloat y) :
    (if x.toBits.toNat < signWeight then y else -y) = x := by
  obtain ⟨hpos, hunpack⟩ := hy.unpack hnormal
  obtain ⟨_, hmodel⟩ := hy
  have hword := pack_unpack x ▸ congrArg Float.Model.pack (unpack_eq_ofBits hx hpos)
  unfold wordSign at hword
  split
  · rename_i hsign
    rw [if_pos hsign] at hword
    exact congrArg Float.ofModel (hmodel.trans hword.symm)
  · rename_i hsign
    have hneg : (-y).toModel = Float.Model.pack y.toModel.unpack.neg := rfl
    rw [if_neg hsign] at hword
    rw [hunpack] at hneg
    exact congrArg Float.ofModel (hneg.trans hword.symm)

end Binary

theorem shortest_takes {x : Float} (hx : x.isFinite = true)
    (hpos : 0 < (Binary.ofBits x.toBits.toNat).mantissa) :
    (Binary.ofBits x.toBits.toNat).Takes (shortest x).worth := by
  rw [shortest, if_neg hpos.ne']
  exact Binary.shortest_takes (Binary.isFinite_ofBits hx)

theorem shortest_worth_pos {x : Float} (hx : x.isFinite = true)
    (hpos : 0 < (Binary.ofBits x.toBits.toNat).mantissa) : 0 < (shortest x).worth :=
  (shortest_takes hx hpos).pos hpos

/-- The shortest decimal of a float is read back as the float, if its parts are exact. -/
theorem scale_shortest {x : Float} (hx : x.isFinite = true) {significand : Nat}
    (hpos : 0 < significand) (hsmall : significand < 2 ^ 53) {exponent : Int}
    (hexponent : exponent.natAbs ≤ 22)
    (hworth : (significand : ℚ) * 10 ^ exponent = (shortest x).worth) :
    ∃ y, scale significand exponent = some y ∧
      (if x.toBits.toNat < signWeight then y else -y) = x := by
  have hfinite := Binary.isFinite_ofBits hx
  have hone : (1 : ℚ) ≤ significand := by exact_mod_cast hpos
  have hleast : (10 : ℚ) ^ (-22 : Int) ≤ significand * 10 ^ exponent :=
    (zpow_le_zpow_right₀ (by norm_num) (by omega)).trans
      (le_mul_of_one_le_left (by positivity) hone)
  have hmantissa : 0 < (Binary.ofBits x.toBits.toNat).mantissa := by
    by_contra hzero
    rw [shortest, if_pos (by omega)] at hworth
    have hnone : Scaled.worth ⟨0, 0⟩ = 0 := by simp [Scaled.worth]
    rw [hnone] at hworth
    rw [hworth] at hleast
    norm_num at hleast
  have htakes := shortest_takes hx hmantissa
  rw [← hworth] at htakes
  have hnormal := Binary.isNormal_ofBits hx (htakes.le_exponent hfinite hleast)
  obtain ⟨y, hscale, hy⟩ := htakes.scale hnormal hpos hsmall hexponent
  exact ⟨y, hscale, hy.eq_of_ofBits hx hnormal⟩

end DocIndex.Decimal
