import DocIndex.Decimal.Shortest
import DocIndex.Proofs.Decimal.Finite

/-!
Rounding to the nearest number of 53 binary digits. A number is cut after the last digit that stays,
and two bits tell how what was cut off compares with a half; so the digits that stay become those of
the nearest number, of two such numbers the even one. Each number of 53 digits is what all reals of
an interval around it are rounded to.
-/

namespace DocIndex.Decimal

open Float.Model (Format UnpackedFloat totalExponent)
open Float.Model.UnpackedFloat

/-! Cutting digits off -/

/-- A number that was cut: one bit is worth a half, the other one tells whether more is missing. -/
def IsCut (em : ExtendedMantissa) (v : ℚ) : Prop :=
  ∃ rest : ℚ, v = em.mantissa + em.roundBit.toNat / 2 + rest ∧ 0 ≤ rest ∧ rest < 1 / 2 ∧
    (em.stickyBit = false ↔ rest = 0)

theorem isCut_exact (m : Nat) : IsCut (.ofMantissaAndAccuracy m .exact) m :=
  ⟨0, by simp [ExtendedMantissa.ofMantissaAndAccuracy], le_refl 0, by norm_num, by
    simp [ExtendedMantissa.ofMantissaAndAccuracy]⟩

/-- Where the exact quotient lies is told by the whole one and the remainder. -/
theorem isCut_accuracyOfFraction (m : Nat) {d : Nat} (hd : 0 < d) :
    IsCut (.ofMantissaAndAccuracy (m / d) (accuracyOfFraction (m % d) d)) (m / d : ℚ) := by
  have hpos : (0 : ℚ) < d := by exact_mod_cast hd
  have hquotient : (m : ℚ) / d = (m / d : Nat) + (m % d : Nat) / d := by
    rw [add_div' _ _ _ hpos.ne', div_left_inj' hpos.ne', mul_comm]
    exact_mod_cast (Nat.div_add_mod m d).symm
  have hlt : ((m % d : Nat) : ℚ) < d := by exact_mod_cast Nat.mod_lt m hd
  rw [hquotient]
  generalize m / d = q at *
  generalize m % d = r at *
  have hhalf : (r : ℚ) / d - 1 / 2 = (2 * r - d) / (2 * d) := by
    field_simp
  unfold accuracyOfFraction
  split
  · rename_i hzero
    rw [hzero, Nat.cast_zero, zero_div, add_zero]
    exact isCut_exact q
  · rename_i hsome
    have hrest : (0 : ℚ) < r / d := div_pos (by exact_mod_cast Nat.pos_of_ne_zero hsome) hpos
    rcases lt_trichotomy (2 * r) d with hless | hequal | hmore
    · rw [compare_lt_iff_lt.mpr hless]
      have hcast : (2 : ℚ) * r < d := by exact_mod_cast hless
      refine ⟨r / d, by simp [ExtendedMantissa.ofMantissaAndAccuracy], hrest.le, ?_, by
        simpa [ExtendedMantissa.ofMantissaAndAccuracy] using hrest.ne'⟩
      rw [div_lt_div_iff₀ hpos two_pos]
      linarith
    · rw [compare_eq_iff_eq.mpr hequal]
      have hcast : (2 : ℚ) * r = d := by exact_mod_cast hequal
      refine ⟨0, ?_, le_refl 0, by norm_num, by simp [ExtendedMantissa.ofMantissaAndAccuracy]⟩
      simp only [ExtendedMantissa.ofMantissaAndAccuracy, Bool.toNat_true, Nat.cast_one]
      rw [hcast, sub_self, zero_div] at hhalf
      linarith
    · rw [compare_gt_iff_gt.mpr hmore]
      have hcast : (d : ℚ) < 2 * r := by exact_mod_cast hmore
      have hsome : (0 : ℚ) < r / d - 1 / 2 := by
        rw [hhalf]
        exact div_pos (by linarith) (by linarith)
      have hone : (r : ℚ) / d < 1 := (div_lt_one hpos).mpr hlt
      refine ⟨r / d - 1 / 2, ?_, hsome.le, by linarith, by
        simpa [ExtendedMantissa.ofMantissaAndAccuracy] using hsome.ne'⟩
      simp only [ExtendedMantissa.ofMantissaAndAccuracy, Bool.toNat_true, Nat.cast_one]
      ring

section IsCut

variable {em : ExtendedMantissa} {v : ℚ}

/-- The last digit becomes the bit that is worth a half, and this bit becomes a part of the rest. -/
theorem IsCut.shiftRightOne (hcut : IsCut em v) : IsCut em.shiftRightOne (v / 2) := by
  obtain ⟨m, round, sticky⟩ := em
  obtain ⟨rest, hv, hnonneg, hlt, hzero⟩ := hcut
  have hdigits : (m : ℚ) = 2 * (m / 2 : Nat) + (m % 2 : Nat) := by
    exact_mod_cast (Nat.div_add_mod m 2).symm
  have hlast : (m % 2 != 0).toNat = m % 2 := by
    rcases Nat.mod_two_eq_zero_or_one m with hparity | hparity <;> rw [hparity] <;> rfl
  refine ⟨round.toNat / 4 + rest / 2, ?_, by positivity, ?_, ?_⟩
  · simp only [ExtendedMantissa.shiftRightOne, hlast]
    linarith
  · cases round <;> simp only [Bool.toNat_false, Bool.toNat_true] <;> push_cast <;> linarith
  · cases round with
    | false => simpa [ExtendedMantissa.shiftRightOne] using hzero
    | true =>
        simp only [ExtendedMantissa.shiftRightOne, Bool.true_or, Bool.true_eq_false, false_iff,
          Bool.toNat_true]
        intro hnone
        push_cast at hnone
        linarith

theorem IsCut.shiftRight (hcut : IsCut em v) (n : Nat) : IsCut (em >>> n) (v / 2 ^ n) := by
  induction n with
  | zero => rwa [pow_zero, div_one]
  | succ n ih =>
      rw [pow_succ, ← div_div]
      exact ih.shiftRightOne

theorem IsCut.mantissa_le (hcut : IsCut em v) : (em.mantissa : ℚ) ≤ v := by
  obtain ⟨rest, rfl, hnonneg, -, -⟩ := hcut
  rw [add_assoc]
  exact le_add_of_nonneg_right (by positivity)

theorem IsCut.lt_succ (hcut : IsCut em v) : v < em.mantissa + 1 := by
  obtain ⟨rest, rfl, -, hlt, -⟩ := hcut
  have hbit : (em.roundBit.toNat : ℚ) ≤ 1 := by exact_mod_cast em.roundBit.toNat_le
  linarith

end IsCut

/-! The nearest whole number -/

/-- No other whole number is nearer, and no even one is as near. -/
structure IsNearest (n : Nat) (v : ℚ) : Prop where
  le : (n : ℚ) - 1 / 2 ≤ v
  ge : v ≤ n + 1 / 2
  between : n % 2 = 1 → (n : ℚ) - 1 / 2 < v ∧ v < n + 1 / 2

theorem IsNearest.le_of_nearest {n k : Nat} {v : ℚ} (hn : IsNearest n v) (hk : IsNearest k v) :
    k ≤ n := by
  by_contra hlt
  have hstep : (n : ℚ) + 1 ≤ k := by exact_mod_cast Nat.not_le.mp hlt
  have hle := hk.le
  have hge := hn.ge
  -- The number lies half way between two neighbours, one of which is odd.
  have hnext : k = n + 1 := by
    have hclose : (k : ℚ) ≤ n + 1 := by linarith
    exact_mod_cast le_antisymm hclose hstep
  rcases Nat.mod_two_eq_zero_or_one n with heven | hodd
  · have hafter := (hk.between (by omega)).1
    linarith
  · have hbefore := (hn.between hodd).2
    linarith

theorem IsNearest.unique {n k : Nat} {v : ℚ} (hn : IsNearest n v) (hk : IsNearest k v) : n = k :=
  Nat.le_antisymm (hk.le_of_nearest hn) (hn.le_of_nearest hk)

theorem isNearest_roundedMantissa {em : ExtendedMantissa} {v : ℚ} (hcut : IsCut em v) :
    IsNearest em.roundedMantissa v := by
  obtain ⟨m, round, sticky⟩ := em
  obtain ⟨rest, rfl, hnonneg, hlt, hzero⟩ := hcut
  cases round with
  | false =>
      have hrounded : ExtendedMantissa.roundedMantissa ⟨m, false, sticky⟩ = m := by
        cases sticky <;> rfl
      rw [hrounded, Bool.toNat_false, Nat.cast_zero, zero_div, add_zero]
      exact ⟨by linarith, by linarith, fun _ => ⟨by linarith, by linarith⟩⟩
  | true =>
      rw [Bool.toNat_true, Nat.cast_one]
      cases sticky with
      | false =>
          obtain rfl : rest = 0 := hzero.mp rfl
          have hrounded : ExtendedMantissa.roundedMantissa ⟨m, true, false⟩ = m + m % 2 := rfl
          have hle : (m : ℚ) ≤ (m + m % 2 : Nat) := by exact_mod_cast Nat.le_add_right m (m % 2)
          have hge : ((m + m % 2 : Nat) : ℚ) ≤ m + 1 := by
            exact_mod_cast Nat.add_le_add_left (by omega : m % 2 ≤ 1) m
          rw [hrounded]
          exact ⟨by linarith, by linarith, fun hodd => by omega⟩
      | true =>
          have hsome : rest ≠ 0 := fun hnone => by simp [hnone] at hzero
          have hpos := lt_of_le_of_ne hnonneg hsome.symm
          have hrounded : ExtendedMantissa.roundedMantissa ⟨m, true, true⟩ = m + 1 := rfl
          have hcast : ((m + 1 : Nat) : ℚ) = m + 1 := Nat.cast_succ m
          rw [hrounded]
          exact ⟨by linarith, by linarith, fun _ => ⟨by linarith, by linarith⟩⟩

/-! Numbers of 53 digits -/

/-- The interval of the reals that round to a number; it is shorter below a power of two. -/
structure Binary.Takes (b : Binary) (v : ℚ) : Prop where
  isNearest : IsNearest b.mantissa (v / 2 ^ b.exponent)
  near : b.nearBelow = true → (b.mantissa : ℚ) - 1 / 4 ≤ v / 2 ^ b.exponent

/-- A number of 53 digits that ends above the last digit that any float has. -/
structure Binary.IsNormal (b : Binary) : Prop where
  le_mantissa : 2 ^ 52 ≤ b.mantissa
  mantissa_lt : b.mantissa < 2 ^ 53
  nearBelow_iff : b.nearBelow = true ↔ b.mantissa = 2 ^ 52
  le_exponent : -1073 ≤ b.exponent
  exponent_le : b.exponent ≤ 971

namespace Binary

variable {b : Binary} {v w : ℚ} {e : Int}

/-- A number of 53 digits ends at the last digit of what it rounds to, or one place below. -/
theorem Takes.exponent_eq (hb : b.IsNormal) (htakes : b.Takes v) (hv : v = w * 2 ^ e)
    (hlow : 2 ^ 52 ≤ w) (hhigh : w < 2 ^ 53) :
    w = v / 2 ^ b.exponent ∧ e = b.exponent ∨
      w = 2 * (v / 2 ^ b.exponent) ∧ e = b.exponent - 1 := by
  have hfull : (2 : ℚ) ^ 52 ≤ b.mantissa := by exact_mod_cast hb.le_mantissa
  have hdigits : (b.mantissa : ℚ) + 1 ≤ 2 ^ 53 := by exact_mod_cast hb.mantissa_lt
  have hfrom := htakes.isNearest.le
  have hto := htakes.isNearest.ge
  have hratio : v / 2 ^ b.exponent = w * 2 ^ (e - b.exponent) := by
    rw [hv, mul_div_assoc, ← zpow_sub₀ two_ne_zero]
  rw [hratio] at hfrom hto ⊢
  have hpos : (0 : ℚ) < 2 ^ (e - b.exponent) := by positivity
  have hbelow : e - b.exponent < 1 := by
    have hpower : (2 : ℚ) ^ (e - b.exponent) < 2 ^ (1 : Int) := by nlinarith
    exact (zpow_lt_zpow_iff_right₀ one_lt_two).mp hpower
  have habove : -2 < e - b.exponent := by
    have hpower : (2 : ℚ) ^ (-2 : Int) < 2 ^ (e - b.exponent) := by
      have hquarter : (2 : ℚ) ^ (-2 : Int) = 1 / 4 := by norm_num
      rw [hquarter]
      nlinarith
    exact (zpow_lt_zpow_iff_right₀ one_lt_two).mp hpower
  rcases (by omega : e - b.exponent = 0 ∨ e - b.exponent = -1) with hsame | hnext
  · left
    rw [hsame, zpow_zero, mul_one]
    exact ⟨rfl, by omega⟩
  · right
    rw [hnext, zpow_neg_one]
    exact ⟨by ring, by omega⟩

/-- So the nearest whole number is that of its digits, or twice the least one of 53 digits. -/
theorem Takes.isNearest_of_eq (hb : b.IsNormal) (htakes : b.Takes v) (hv : v = w * 2 ^ e)
    (hlow : 2 ^ 52 ≤ w) (hhigh : w < 2 ^ 53) :
    IsNearest b.mantissa w ∧ e = b.exponent ∨
      IsNearest (2 ^ 53) w ∧ b.mantissa = 2 ^ 52 ∧ e = b.exponent - 1 := by
  rcases htakes.exponent_eq hb hv hlow hhigh with ⟨hw, he⟩ | ⟨hw, he⟩
  · exact .inl ⟨hw ▸ htakes.isNearest, he⟩
  · right
    have hfrom := htakes.isNearest.le
    have hleast : b.mantissa = 2 ^ 52 := by
      have hdigits : (b.mantissa : ℚ) < (2 ^ 52 + 1 : Nat) := by
        push_cast
        linarith
      have hlt := Nat.cast_lt.mp hdigits
      have hge := hb.le_mantissa
      omega
    have hnear := htakes.near (hb.nearBelow_iff.mpr hleast)
    have hcast : (b.mantissa : ℚ) = 2 ^ 52 := by exact_mod_cast congrArg (Nat.cast (R := ℚ)) hleast
    refine ⟨⟨?_, ?_, fun hodd => absurd hodd (by decide)⟩, hleast, he⟩
    · push_cast
      linarith
    · push_cast
      linarith

theorem IsNormal.pos (hb : b.IsNormal) : 0 < b.mantissa :=
  lt_of_lt_of_le (by decide) hb.le_mantissa

theorem IsNormal.log2_mantissa (hb : b.IsNormal) : b.mantissa.log2 = 52 :=
  (Nat.log2_eq_iff hb.pos.ne').mpr ⟨hb.le_mantissa, hb.mantissa_lt⟩

/-- What is rounded from the interval of a number becomes this number. -/
theorem Takes.roundWithAccuracy (hb : b.IsNormal) {m : Nat} {accuracy : Accuracy}
    (hlong : 52 ≤ m.log2) (hcut : IsCut (.ofMantissaAndAccuracy m accuracy) w)
    (htakes : b.Takes (w * 2 ^ e)) (sign : Sign) :
    ∃ hpos, UnpackedFloat.roundWithAccuracy .binary64 sign m e accuracy =
      .finite sign b.mantissa b.exponent hpos := by
  obtain ⟨hlow, hhigh⟩ := div_two_pow_mem hlong
  generalize hshift : m.log2 - 52 = shift at hlow hhigh
  generalize hem : ExtendedMantissa.ofMantissaAndAccuracy m accuracy >>> shift = em
  have hmantissa : em.mantissa = m / 2 ^ shift := by
    rw [← hem, mantissa_shiftRight, mantissa_ofMantissaAndAccuracy]
  have hcutShort : IsCut em (w / 2 ^ shift) := hem ▸ hcut.shiftRight shift
  have hworth : w * 2 ^ e = w / 2 ^ shift * 2 ^ (e + shift) := by
    rw [zpow_add₀ two_ne_zero, zpow_natCast]
    field_simp
  have hfrom : (2 : ℚ) ^ 52 ≤ w / 2 ^ shift := by
    have hcast : (2 : ℚ) ^ 52 ≤ em.mantissa := by exact_mod_cast hmantissa ▸ hlow
    exact hcast.trans hcutShort.mantissa_le
  have hto : w / 2 ^ shift < 2 ^ 53 := by
    have hcast : (em.mantissa : ℚ) + 1 ≤ 2 ^ 53 := by exact_mod_cast hmantissa ▸ hhigh
    exact hcutShort.lt_succ.trans_le hcast
  have hplaces := htakes.isNearest_of_eq hb hworth hfrom hto
  have hleast : -1074 ≤ e + shift := by
    have hexponent := hb.le_exponent
    rcases hplaces with ⟨-, he⟩ | ⟨-, -, he⟩ <;> omega
  have hfirst : shiftToTargetExponent .binary64 m e accuracy = (em, e + shift) := by
    have htarget : (Format.binary64.targetExponent (totalExponent m e) - e).toNat = shift := by
      rw [targetExponent_eq, totalExponent]
      omega
    rw [shiftToTargetExponent, shiftToExponent, htarget, hem]
  have hrounded := isNearest_roundedMantissa hcutShort
  refine ⟨hb.pos, roundWithAccuracy_eq hfirst ?_ hb.pos sign⟩
  rcases hplaces with ⟨hnearest, he⟩ | ⟨hnearest, hdigits, he⟩
  · rw [hrounded.unique hnearest, ← he]
    exact shiftToTargetExponent_of_normal hb.log2_mantissa hleast
  · have hcarry := shiftToTargetExponent_of_carry hleast
    rw [hrounded.unique hnearest, hdigits]
    exact ⟨hcarry.1, by omega⟩

theorem takes_self (b : Binary) : b.Takes (b.mantissa * 2 ^ b.exponent) := by
  have hdigits : (b.mantissa : ℚ) * 2 ^ b.exponent / 2 ^ b.exponent = b.mantissa :=
    mul_div_cancel_right₀ _ (by positivity)
  constructor
  · rw [hdigits]
    exact ⟨by linarith, by linarith, fun _ => ⟨by linarith, by linarith⟩⟩
  · rw [hdigits]
    intro
    linarith

end Binary

/-- A number of 53 digits is not changed by rounding. -/
theorem roundWithAccuracy_of_normal {m : Nat} {e : Int} (hlog : m.log2 = 52) (hleast : -1073 ≤ e)
    (hbound : e ≤ 971) (sign : Sign) :
    ∃ hpos, roundWithAccuracy .binary64 sign m e .exact = .finite sign m e hpos := by
  have hm : m ≠ 0 := by
    rintro rfl
    rw [Nat.log2_zero] at hlog
    omega
  obtain ⟨hlow, hhigh⟩ := (Nat.log2_eq_iff hm).mp hlog
  let b : Binary := ⟨m, e, m = 2 ^ 52⟩
  exact b.takes_self.roundWithAccuracy ⟨hlow, hhigh, decide_eq_true_iff, hleast, hbound⟩
    hlog.ge (isCut_exact m) sign

end DocIndex.Decimal
