import DocIndex.Proofs.Decimal.Rounding

/-!
The shortest decimal of a number lies in the interval of the reals that round to this number. Grids
that are fine enough have a point there, and a grid as fine is tried before the search ends.
-/

namespace DocIndex.Decimal

open Float.Model (Format)
open Float.Model.UnpackedFloat

def Scaled.worth (n : Scaled) : ℚ :=
  n.digits * 10 ^ n.exponent

/-! Grids -/

theorem powerOfTwo_worth (n : Int) :
    ((powerOfTwo n).1 : ℚ) = 2 ^ n * (powerOfTwo n).2 ∧ 0 < (powerOfTwo n).2 := by
  cases n with
  | ofNat n => simp [powerOfTwo]
  | negSucc n =>
      refine ⟨?_, Nat.two_pow_pos _⟩
      simp [powerOfTwo, zpow_negSucc]

/-- The whole part of `10 ^ p`, if it is one. -/
def gridStep (p : Int) : Nat :=
  match p with
  | .ofNat n => Nat.pow 10 n
  | .negSucc _ => 1

/-- What makes `10 ^ p` whole. -/
def gridScale (p : Int) : Nat :=
  match p with
  | .ofNat _ => 1
  | .negSucc n => Nat.pow 10 (n + 1)

theorem gridStep_worth (p : Int) : (gridStep p : ℚ) = 10 ^ p * gridScale p ∧ 0 < gridScale p := by
  cases p with
  | ofNat n => simp [gridStep, gridScale]
  | negSucc n =>
      refine ⟨?_, Nat.pow_pos (by decide)⟩
      simp [gridStep, gridScale, zpow_negSucc]

/-- Powers of ten next to powers of two: `10 ^ 3 < 2 ^ 10` and `2 ^ 33 < 10 ^ 10`. -/
theorem ten_zpow_lt {q e : Int} (hup : 0 ≤ q → 10 * q < 3 * e) (hdown : q < 0 → 33 * q < 10 * e) :
    (10 : ℚ) ^ q < 2 ^ e := by
  rcases lt_or_ge q 0 with hq | hq
  · refine lt_of_pow_lt_pow_left₀ 10 (by positivity) ?_
    calc ((10 : ℚ) ^ q) ^ 10 = (10 ^ 10) ^ q := by
          rw [← zpow_natCast, ← zpow_natCast, zpow_comm]
      _ ≤ (2 ^ 33) ^ q := by
          rw [← inv_le_inv₀ (by positivity) (by positivity), ← zpow_neg, ← zpow_neg]
          exact zpow_le_zpow_left₀ (by omega) (by positivity) (by norm_num)
      _ = 2 ^ (33 * q) := by rw [zpow_mul]; norm_cast
      _ < 2 ^ (10 * e) := zpow_lt_zpow_right₀ one_lt_two (hdown hq)
      _ = (2 ^ e) ^ 10 := by rw [mul_comm, zpow_mul]; norm_cast
  · refine lt_of_pow_lt_pow_left₀ 3 (by positivity) ?_
    calc ((10 : ℚ) ^ q) ^ 3 = (10 ^ 3) ^ q := by
          rw [← zpow_natCast, ← zpow_natCast, zpow_comm]
      _ ≤ (2 ^ 10) ^ q := zpow_le_zpow_left₀ hq (by norm_num) (by norm_num)
      _ = 2 ^ (10 * q) := by rw [zpow_mul]; norm_cast
      _ < 2 ^ (3 * e) := zpow_lt_zpow_right₀ one_lt_two (hup hq)
      _ = (2 ^ e) ^ 3 := by rw [mul_comm, zpow_mul]; norm_cast

namespace Binary

variable {b : Binary} {p : Int} {digits : Nat}

/-- A quarter of a unit of the last digit, on a grid. -/
def gridUnit (b : Binary) (p : Int) : Nat :=
  (powerOfTwo (b.exponent - 2)).1 * gridScale p

theorem onGrid_eq (b : Binary) (p : Int) : b.onGrid p =
    (4 * b.mantissa * b.gridUnit p, (4 * b.mantissa - if b.nearBelow then 1 else 2) * b.gridUnit p,
      (4 * b.mantissa + 2) * b.gridUnit p, gridStep p * (powerOfTwo (b.exponent - 2)).2) :=
  rfl

/-- The step of the grid, in quarters of a unit of the last digit. -/
theorem step_worth (b : Binary) (p : Int) : ((b.onGrid p).2.2.2 : ℚ) =
    4 * (10 ^ p / 2 ^ b.exponent) * b.gridUnit p ∧ 0 < b.gridUnit p := by
  obtain ⟨htwo, hden⟩ := powerOfTwo_worth (b.exponent - 2)
  obtain ⟨hten, hscale⟩ := gridStep_worth p
  have hunit : (b.gridUnit p : ℚ) =
      2 ^ b.exponent / 4 * ((powerOfTwo (b.exponent - 2)).2 * gridScale p) := by
    rw [gridUnit, Nat.cast_mul, htwo, zpow_sub₀ two_ne_zero]
    ring
  have hpos : (0 : ℚ) < b.gridUnit p := by
    rw [hunit]
    positivity
  refine ⟨?_, by exact_mod_cast hpos⟩
  rw [hunit, onGrid_eq, Nat.cast_mul, hten]
  field_simp

theorem point_worth (b : Binary) (p : Int) (digits : Nat) :
    ((digits * (b.onGrid p).2.2.2 : Nat) : ℚ) =
      4 * (digits * 10 ^ p / 2 ^ b.exponent) * b.gridUnit p := by
  rw [Nat.cast_mul, (b.step_worth p).1]
  ring

/-- Points of a grid compare with multiples of the unit as what they are worth. -/
theorem mul_unit_le_iff {k : Nat} : k * b.gridUnit p ≤ digits * (b.onGrid p).2.2.2 ↔
    (k : ℚ) ≤ 4 * (digits * 10 ^ p / 2 ^ b.exponent) := by
  have hpos : (0 : ℚ) < b.gridUnit p := by exact_mod_cast (b.step_worth p).2
  rw [← Nat.cast_le (α := ℚ), point_worth, Nat.cast_mul]
  exact mul_le_mul_iff_of_pos_right hpos

theorem le_mul_unit_iff {k : Nat} : digits * (b.onGrid p).2.2.2 ≤ k * b.gridUnit p ↔
    4 * (digits * 10 ^ p / 2 ^ b.exponent) ≤ (k : ℚ) := by
  have hpos : (0 : ℚ) < b.gridUnit p := by exact_mod_cast (b.step_worth p).2
  rw [← Nat.cast_le (α := ℚ), point_worth, Nat.cast_mul]
  exact mul_le_mul_iff_of_pos_right hpos

/-- A point of a grid that is hit lies between the ends, which count if the mantissa is even. -/
theorem mem_of_hit? (hhit : b.hit? p = some digits) :
    (b.onGrid p).2.1 ≤ digits * (b.onGrid p).2.2.2 ∧
      digits * (b.onGrid p).2.2.2 ≤ (b.onGrid p).2.2.1 ∧
      (b.mantissa % 2 = 1 → (b.onGrid p).2.1 < digits * (b.onGrid p).2.2.2 ∧
        digits * (b.onGrid p).2.2.2 < (b.onGrid p).2.2.1) := by
  unfold hit? at hhit
  generalize b.onGrid p = grid at hhit ⊢
  obtain ⟨value, low, high, step⟩ := grid
  dsimp only at hhit ⊢
  have hinside {x : Nat} (hx : (if b.mantissa % 2 = 0 then decide (low ≤ x) && decide (x ≤ high)
      else decide (low < x) && decide (x < high)) = true) :
      low ≤ x ∧ x ≤ high ∧ (b.mantissa % 2 = 1 → low < x ∧ x < high) := by
    split at hx <;> simp only [Bool.and_eq_true, decide_eq_true_eq] at hx <;> omega
  split at hhit
  · rename_i hlower hupper
    obtain rfl := Option.some.inj hhit
    split
    · exact hinside hlower
    · exact hinside hupper
  · rename_i hlower _
    obtain rfl := Option.some.inj hhit
    exact hinside hlower
  · rename_i _ hupper
    obtain rfl := Option.some.inj hhit
    exact hinside hupper
  · contradiction

/-- A point of a grid that is hit rounds to the number. -/
theorem takes_of_hit? (hhit : b.hit? p = some digits) :
    b.Takes (digits * 10 ^ p) := by
  obtain ⟨hlow, hhigh, hstrict⟩ := mem_of_hit? hhit
  have hlow := mul_unit_le_iff.mp hlow
  have hhigh := le_mul_unit_iff.mp hhigh
  have hends : (4 * b.mantissa - if b.nearBelow then 1 else 2 : ℚ) ≤
      (4 * b.mantissa - if b.nearBelow then 1 else 2 : Nat) := by
    rw [sub_le_iff_le_add]
    exact_mod_cast Nat.sub_le_iff_le_add.mp (Nat.le_refl _)
  push_cast at hhigh
  have hmost : (if b.nearBelow then 1 else 2 : ℚ) ≤ 2 := by split <;> norm_num
  refine ⟨⟨by linarith, by linarith, fun hodd => ?_⟩, fun hnear => ?_⟩
  · obtain ⟨hafter, hbefore⟩ := hstrict hodd
    have hafter := (lt_iff_lt_of_le_iff_le le_mul_unit_iff).mp hafter
    have hbefore := (lt_iff_lt_of_le_iff_le mul_unit_le_iff).mp hbefore
    push_cast at hbefore
    exact ⟨by linarith, by linarith⟩
  · rw [if_pos hnear] at hends
    linarith

/-- A grid whose step is less than half a unit of the last digit is hit. -/
theorem exists_hit? (hfine : (10 : ℚ) ^ p < 2 ^ (b.exponent - 1)) :
    ∃ digits, b.hit? p = some digits := by
  obtain ⟨hworth, hunit⟩ := b.step_worth p
  have hpos : (0 : ℚ) < b.gridUnit p := by exact_mod_cast hunit
  have hratio : (10 : ℚ) ^ p / 2 ^ b.exponent < 1 / 2 := by
    rw [div_lt_iff₀ (by positivity), one_div, ← zpow_neg_one, ← zpow_add₀ two_ne_zero,
      neg_add_eq_sub]
    exact hfine
  have hshort : (b.onGrid p).2.2.2 < 2 * b.gridUnit p := by
    rw [← Nat.cast_lt (α := ℚ), hworth]
    push_cast
    nlinarith
  have hstep : 0 < (b.onGrid p).2.2.2 := by
    rw [← Nat.cast_pos (α := ℚ), hworth]
    positivity
  unfold hit?
  rw [onGrid_eq] at hshort hstep ⊢
  dsimp only at hshort hstep ⊢
  generalize gridStep p * (powerOfTwo (b.exponent - 2)).2 = step at hshort hstep ⊢
  generalize b.gridUnit p = unit at hunit hshort ⊢
  have hlow : (4 * b.mantissa - if b.nearBelow then 1 else 2) * unit ≤ 4 * b.mantissa * unit :=
    Nat.mul_le_mul_right _ (Nat.sub_le _ _)
  have hhigh : (4 * b.mantissa + 2) * unit = 4 * b.mantissa * unit + 2 * unit := Nat.add_mul _ _ _
  generalize 4 * b.mantissa * unit = value at hlow hhigh ⊢
  rw [hhigh]
  -- The next point of the grid above the number is near enough.
  have hupper : value < (value / step + 1) * step := by
    rw [Nat.mul_comm]
    exact Nat.lt_mul_div_succ value hstep
  have hnext : (value / step + 1) * step ≤ value + step := by
    rw [Nat.add_mul, Nat.one_mul]
    exact Nat.add_le_add_right (Nat.div_mul_le_self value step) step
  generalize (value / step + 1) * step = point at hupper hnext ⊢
  have hinside : (if b.mantissa % 2 = 0 then
      decide ((4 * b.mantissa - if b.nearBelow then 1 else 2) * unit ≤ point) &&
        decide (point ≤ value + 2 * unit)
      else decide ((4 * b.mantissa - if b.nearBelow then 1 else 2) * unit < point) &&
        decide (point < value + 2 * unit)) = true := by
    split <;> simp only [Bool.and_eq_true, decide_eq_true_eq] <;> omega
  rw [hinside]
  split <;> first | exact ⟨_, rfl⟩ | contradiction

/-- A search that comes to such a grid gives a point that is hit. -/
theorem search_hits {fuel : Nat} (hfine : (10 : ℚ) ^ (p - fuel) < 2 ^ (b.exponent - 1)) :
    ∃ q digits, b.hit? q = some digits ∧ b.search (fuel + 1) p = ⟨digits, q⟩ := by
  induction fuel generalizing p with
  | zero =>
      rw [Nat.cast_zero, sub_zero] at hfine
      obtain ⟨digits, hhit⟩ := exists_hit? hfine
      exact ⟨p, digits, hhit, by rw [search, hhit]⟩
  | succ fuel ih =>
      rw [search]
      cases hhit : b.hit? p with
      | some digits => exact ⟨p, digits, hhit, rfl⟩
      | none =>
          have hnext : p - (fuel + 1 : Nat) = p - 1 - fuel := by omega
          rw [hnext] at hfine
          exact ih hfine

/-- The fields of a binary number are those of a finite word. -/
structure IsFinite (b : Binary) : Prop where
  mantissa_lt : b.mantissa < 2 ^ 53
  le_exponent : -1074 ≤ b.exponent
  exponent_le : b.exponent ≤ 971

theorem isFinite_ofBits {x : Float} (hx : x.isFinite = true) :
    (ofBits x.toBits.toNat).IsFinite := by
  obtain ⟨sign, exponent, mantissa, hreads, hexponent, hmantissa, hword⟩ := exists_reads x
  have hnormal := hreads.exponent_ne hx
  have hsign := signPart_cases sign
  rw [ofBits, hiddenBit]
  split
  · constructor <;> dsimp only <;> omega
  · constructor <;> dsimp only <;> omega

/-- The shortest decimal of a number rounds to this number. -/
theorem shortest_takes (hfinite : b.IsFinite) : b.Takes b.shortest.worth := by
  have hlog : b.mantissa.log2 < 53 := log2_lt_of_lt (by decide) hfinite.mantissa_lt
  have hleast := hfinite.le_exponent
  have hgreatest := hfinite.exponent_le
  rw [shortest]
  generalize hstart : ((b.mantissa.log2 : Int) + 1 + b.exponent) * 30103 / 100000 + 1 = start
  have hfine : (10 : ℚ) ^ (start - (23 : Nat)) < 2 ^ (b.exponent - 1) :=
    ten_zpow_lt (by omega) (by omega)
  obtain ⟨q, digits, hhit, hsearch⟩ := search_hits hfine
  rw [hsearch]
  exact takes_of_hit? hhit

end Binary

end DocIndex.Decimal
