import Autotune.Number.Decimal
import Autotune.Proofs.Number.Binary
import Mathlib.Algebra.Order.Field.Power
import Mathlib.Algebra.Order.Field.Rat
import Mathlib.Tactic.NormNum
import Mathlib.Tactic.Positivity
import Mathlib.Tactic.Ring

/-!
# Shortest digits

A rational number `Magnitude.Rounds` to a magnitude when it lies between the midpoints to both
neighbours; the midpoints themselves belong to the neighbour with the even significand.  What
`Magnitude.readsBack` decides on natural numbers is just that (`readsBack_iff`).

* `Magnitude.Rounds.unique`: a number rounds to at most one magnitude;
* `digitsFor_rounds`: the shortest digits of a magnitude round to it, because the last grid that is
  tried is finer than a quarter of its last place.
-/

namespace Autotune.Number

/-! ### The numbers that round to a magnitude -/

/-- The midpoint to the next smaller number. -/
def Magnitude.low (m : Magnitude) : ℚ :=
  (4 * m.significand - if m.narrow then 1 else 2 : ℕ) * 2 ^ (m.exponent - 2)

/-- The midpoint to the next larger number. -/
def Magnitude.high (m : Magnitude) : ℚ := (4 * m.significand + 2 : ℕ) * 2 ^ (m.exponent - 2)

/-- A number rounds to the magnitude: it lies between the midpoints, which themselves round to the
magnitude exactly when its significand is even. -/
def Magnitude.Rounds (m : Magnitude) (v : ℚ) : Prop :=
  if m.significand % 2 = 0 then m.low ≤ v ∧ v ≤ m.high else m.low < v ∧ v < m.high

/-- The number that a decimal stands for. -/
def Decimal.value (d : Decimal) : ℚ := d.digits * 10 ^ d.exponent

/-- An integer power is the quotient of two natural ones, of which one is trivial. -/
lemma pow_toNat {b : ℚ} (positive : 0 < b) (n : ℤ) : b ^ n.toNat = b ^ n * b ^ (-n).toNat := by
  obtain h | h := le_total 0 n
  · rw [Int.toNat_eq_zero.mpr (Int.neg_nonpos_of_nonneg h), pow_zero, mul_one, ← zpow_natCast,
      Int.toNat_of_nonneg h]
  · rw [Int.toNat_eq_zero.mpr h, pow_zero, ← zpow_natCast,
      Int.toNat_of_nonneg (Int.neg_nonneg_of_nonpos h), ← zpow_add₀ positive.ne',
      Int.add_right_neg, zpow_zero]

/-- The two sides of a grid are brought to a common denominator. -/
lemma exists_scale (m : Magnitude) (exponent : ℤ) :
    ∃ scale : ℚ, 0 < scale ∧ ((m.grid exponent).quarter : ℚ) = 2 ^ (m.exponent - 2) * scale ∧
      ((m.grid exponent).step : ℚ) = 10 ^ exponent * scale := by
  refine ⟨2 ^ (-(m.exponent - 2)).toNat * 10 ^ (-exponent).toNat, by positivity, ?_, ?_⟩
  · simp only [Magnitude.grid, Nat.pow_eq, Nat.cast_mul, Nat.cast_pow, Nat.cast_ofNat]
    rw [pow_toNat two_pos, mul_assoc]
  · simp only [Magnitude.grid, Nat.pow_eq, Nat.cast_mul, Nat.cast_pow, Nat.cast_ofNat]
    rw [pow_toNat (by norm_num : (0 : ℚ) < 10) exponent]
    ring

/-- **What reads back is what rounds.** -/
theorem readsBack_iff (m : Magnitude) (d : Decimal) :
    m.readsBack d.exponent d.digits = true ↔ m.Rounds d.value := by
  obtain ⟨scale, positive, quarter, step⟩ := exists_scale m d.exponent
  have value : ((d.digits * (m.grid d.exponent).step : ℕ) : ℚ) = d.value * scale := by
    rw [Nat.cast_mul, step, Decimal.value, mul_assoc]
  have bound (n : ℕ) : ((n * (m.grid d.exponent).quarter : ℕ) : ℚ) =
      n * 2 ^ (m.exponent - 2) * scale := by
    rw [Nat.cast_mul, quarter, mul_assoc]
  unfold Magnitude.readsBack Magnitude.Rounds
  dsimp only
  split
  · simp only [Bool.and_eq_true, decide_eq_true_eq]
    rw [← Nat.cast_le (α := ℚ), ← Nat.cast_le (α := ℚ), value, bound, bound,
      mul_le_mul_iff_left₀ positive, mul_le_mul_iff_left₀ positive, Magnitude.low, Magnitude.high]
  · simp only [Bool.and_eq_true, decide_eq_true_eq]
    rw [← Nat.cast_lt (α := ℚ), ← Nat.cast_lt (α := ℚ), value, bound, bound,
      mul_lt_mul_iff_left₀ positive, mul_lt_mul_iff_left₀ positive, Magnitude.low, Magnitude.high]

/-! ### Each number rounds to one magnitude -/

variable {m m' : Magnitude} {v : ℚ}

lemma Magnitude.Rounds.le (h : m.Rounds v) : m.low ≤ v ∧ v ≤ m.high := by
  unfold Rounds at h
  split at h
  · exact h
  · exact ⟨h.1.le, h.2.le⟩

lemma Magnitude.Rounds.lt (h : m.Rounds v) (odd : m.significand % 2 = 1) :
    m.low < v ∧ v < m.high := by
  unfold Rounds at h
  split at h
  · omega
  · exact h

lemma Magnitude.midpoints (h : m.Valid) (h' : m'.Valid) {k : ℕ}
    (exponent : m.exponent + k = m'.exponent) (less : m.size < m'.size) :
    4 * m.significand + 2 < (4 * m'.significand - if m'.narrow then 1 else 2) * 2 ^ k ∨
      4 * m.significand + 2 = (4 * m'.significand - if m'.narrow then 1 else 2) * 2 ^ k ∧
        (m.significand % 2 = 1 ∨ m'.significand % 2 = 1) := by
  obtain ⟨lt, least, -, normal, -⟩ := h
  obtain ⟨-, -, -, normal', narrow'⟩ := h'
  cases k with
  | zero =>
    simp only [size] at less
    split <;> omega
  | succ k =>
    -- the midpoints can only meet below a power of two
    have two : 2 ≤ 2 ^ (k + 1) := Nat.le_self_pow (by omega) 2
    have doubled := Nat.mul_le_mul_left (4 * m'.significand - if m'.narrow then 1 else 2) two
    split at doubled <;> split <;> grind

/-- The midpoints between different magnitudes are in order.  Where they meet, one of the
significands is odd. -/
lemma Magnitude.high_le_low (h : m.Valid) (h' : m'.Valid) (less : m.size < m'.size) :
    m.high < m'.low ∨
      m.high = m'.low ∧ (m.significand % 2 = 1 ∨ m'.significand % 2 = 1) := by
  have later : m.exponent ≤ m'.exponent := by
    obtain ⟨-, least, -, normal, -⟩ := h
    obtain ⟨lt', least', -, -, -⟩ := h'
    simp only [size] at less
    omega
  obtain ⟨k, exponent⟩ := Int.le.dest later
  have unit : (0 : ℚ) < 2 ^ (m.exponent - 2) := by positivity
  have low : m'.low = ((4 * m'.significand - if m'.narrow then 1 else 2) * 2 ^ k : ℕ) *
      2 ^ (m.exponent - 2) := by
    rw [Magnitude.low, ← exponent, add_sub_right_comm, zpow_add₀ two_ne_zero, zpow_natCast]
    push_cast
    ring
  rw [low, high, mul_lt_mul_iff_left₀ unit, mul_left_inj' unit.ne', Nat.cast_lt, Nat.cast_inj]
  exact midpoints h h' exponent less

lemma Magnitude.Rounds.not_rounds (h : m.Valid) (h' : m'.Valid) (less : m.size < m'.size)
    (hv : m.Rounds v) : ¬ m'.Rounds v := by
  intro hv'
  have above := hv.le.2
  have below := hv'.le.1
  obtain apart | ⟨meet, odd | odd⟩ := high_le_low h h' less
  · exact absurd (apart.trans_le below) above.not_gt
  · exact absurd ((hv.lt odd).2.trans_eq meet) below.not_gt
  · exact absurd (meet.trans_lt (hv'.lt odd).1) above.not_gt

/-- **Each number rounds to at most one magnitude.** -/
theorem Magnitude.Rounds.unique (h : m.Valid) (h' : m'.Valid) (hv : m.Rounds v)
    (hv' : m'.Rounds v) : m = m' := by
  obtain less | same | less := Nat.lt_trichotomy m.size m'.size
  · exact absurd hv' (hv.not_rounds h h' less)
  · exact h.eq_of_size h' same
  · exact absurd hv (hv'.not_rounds h' h less)

/-! ### The fewest digits read back -/

lemma onGrid?_eq_some {exponent : ℤ} {digits : ℕ} (h : m.onGrid? exponent = some digits) :
    m.Rounds (Decimal.value ⟨digits, exponent⟩) := by
  rw [← readsBack_iff]
  unfold Magnitude.onGrid? at h
  dsimp only at h
  split at h
  · split at h <;> cases h <;> assumption
  · cases h; assumption
  · cases h; assumption
  · cases h

lemma onGrid?_isSome {exponent : ℤ} (positive : 0 < m.significand)
    (fine : (10 : ℚ) ^ exponent ≤ 2 ^ (m.exponent - 2)) : (m.onGrid? exponent).isSome := by
  obtain ⟨scale, hscale, quarter, step⟩ := exists_scale m exponent
  have small : (m.grid exponent).step ≤ (m.grid exponent).quarter := by
    rw [← Nat.cast_le (α := ℚ), quarter, step]
    exact mul_le_mul_of_nonneg_right fine hscale.le
  have hstep : 0 < (m.grid exponent).step := by
    rw [← Nat.cast_pos (α := ℚ), step]
    positivity
  -- the number below the magnitude is less than a quarter unit away
  have below := Nat.div_mul_le_self (4 * m.significand * (m.grid exponent).quarter)
    (m.grid exponent).step
  have above := Nat.lt_div_mul_add (a := 4 * m.significand * (m.grid exponent).quarter) hstep
  have reads : m.readsBack exponent
      (4 * m.significand * (m.grid exponent).quarter / (m.grid exponent).step) = true := by
    have narrow : (4 * m.significand - if m.narrow then 1 else 2) * (m.grid exponent).quarter +
        (m.grid exponent).quarter ≤ 4 * m.significand * (m.grid exponent).quarter := by
      rw [← Nat.succ_mul]
      refine Nat.mul_le_mul_right _ ?_
      split <;> omega
    have wide : 4 * m.significand * (m.grid exponent).quarter <
        (4 * m.significand + 2) * (m.grid exponent).quarter :=
      Nat.mul_lt_mul_of_pos_right (by omega) (hstep.trans_le small)
    unfold Magnitude.readsBack
    dsimp only
    split <;> rw [Bool.and_eq_true, decide_eq_true_eq, decide_eq_true_eq] <;> constructor <;> omega
  unfold Magnitude.onGrid?
  dsimp only
  rw [reads]
  split <;> simp_all

lemma firstOnGrid_rounds {exponent : ℤ} {steps k : ℕ} (hk : k ≤ steps)
    (found : (m.onGrid? (exponent - k)).isSome) :
    m.Rounds (m.firstOnGrid exponent steps).value := by
  induction steps generalizing exponent k with
  | zero =>
    obtain rfl : k = 0 := Nat.le_zero.mp hk
    obtain ⟨digits, here⟩ := Option.isSome_iff_exists.mp found
    rw [Nat.cast_zero, sub_zero] at here
    rw [Magnitude.firstOnGrid, here]
    exact onGrid?_eq_some here
  | succ steps ih =>
    cases here : m.onGrid? exponent with
    | some digits =>
      rw [Magnitude.firstOnGrid, here]
      exact onGrid?_eq_some here
    | none =>
      rw [Magnitude.firstOnGrid, here]
      cases k with
      | zero => simp [here] at found
      | succ k =>
        refine ih (Nat.le_of_succ_le_succ hk) ?_
        rwa [Nat.cast_succ, add_comm, ← sub_sub] at found

/-- Powers of ten below powers of two, as `10 ^ 3 ≤ 2 ^ 10` and `2 ^ 53 ≤ 10 ^ 16`. -/
lemma ten_zpow_le {a b : ℤ} (large : 0 ≤ a → 10 * a ≤ 3 * b) (small : a ≤ 0 → 53 * a ≤ 16 * b) :
    (10 : ℚ) ^ a ≤ 2 ^ b := by
  obtain ha | ha := le_total 0 a
  · obtain ⟨n, rfl⟩ := Int.eq_ofNat_of_zero_le ha
    have cubes : ((10 : ℚ) ^ (n : ℤ)) ^ 3 ≤ (2 ^ b) ^ 3 := calc
      ((10 : ℚ) ^ (n : ℤ)) ^ 3 = (10 ^ 3) ^ n := by
        rw [zpow_natCast, ← pow_mul, ← pow_mul, mul_comm]
      _ ≤ (2 ^ 10) ^ n := pow_le_pow_left₀ (by norm_num) (by norm_num) n
      _ = 2 ^ (10 * (n : ℤ)) := by rw [← pow_mul]; exact_mod_cast rfl
      _ ≤ 2 ^ (3 * b) := zpow_le_zpow_right₀ one_le_two (large ha)
      _ = (2 ^ b) ^ 3 := by rw [mul_comm, zpow_mul]; norm_cast
    exact le_of_pow_le_pow_left₀ (by decide) (by positivity) cubes
  · obtain ⟨n, rfl⟩ := Int.exists_eq_neg_ofNat ha
    have powers : ((10 : ℚ) ^ (-(n : ℤ))) ^ 16 ≤ (2 ^ b) ^ 16 := calc
      ((10 : ℚ) ^ (-(n : ℤ))) ^ 16 = ((10 ^ 16) ^ n)⁻¹ := by
        rw [zpow_neg, zpow_natCast, inv_pow, ← pow_mul, ← pow_mul, mul_comm]
      _ ≤ ((2 ^ 53) ^ n)⁻¹ :=
        inv_anti₀ (by positivity) (pow_le_pow_left₀ (by norm_num) (by norm_num) n)
      _ = 2 ^ (53 * -(n : ℤ)) := by rw [← pow_mul, mul_neg, zpow_neg]; exact_mod_cast rfl
      _ ≤ 2 ^ (16 * b) := zpow_le_zpow_right₀ one_le_two (small ha)
      _ = (2 ^ b) ^ 16 := by rw [mul_comm, zpow_mul]; norm_cast
    exact le_of_pow_le_pow_left₀ (by decide) (by positivity) powers

/-- **The shortest digits of a magnitude round to it.** -/
theorem digitsFor_rounds (h : m.Valid) (positive : 0 < m.significand) :
    m.Rounds m.digitsFor.value := by
  have log : m.significand.log2 ≤ 52 := by
    exact Nat.le_of_lt_succ ((Nat.log2_lt positive.ne').mpr h.lt)
  -- twenty grids below the bound, a step is less than a quarter unit
  refine firstOnGrid_rounds le_rfl (onGrid?_isSome positive (ten_zpow_le ?_ ?_))
  · obtain ⟨-, least, most, -, -⟩ := h
    unfold Magnitude.decimalBound
    omega
  · obtain ⟨-, least, most, -, -⟩ := h
    unfold Magnitude.decimalBound
    omega

end Autotune.Number
