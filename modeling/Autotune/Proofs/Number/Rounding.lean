import Autotune.Proofs.Number.Finite
import Mathlib.Algebra.Order.Field.Power
import Mathlib.Algebra.Order.Field.Rat
import Mathlib.Tactic.FieldSimp
import Mathlib.Tactic.Linarith
import Mathlib.Tactic.Positivity
import Mathlib.Tactic.Ring

/-!
# Rounding

The finite numbers are the points `point z` of a grid that gets coarser as one moves away from zero:
`z` counts the points from zero on, and `point z` is the rational number that stands there.  Rounding
takes an exact result to a point of the grid.  It never jumps over a point, and it moves the result by
at most half of the distance between two points (`Rounds`).

* `Tells`: the two residual bits tell all that rounding has to know of an exact result;
* `rounds_roundWithAccuracy`, `rounds_normalize`: a rounded result is the exact one, `Rounds`-wise.
-/

namespace Autotune.Number

open Float.Model (Format UnpackedFloat totalExponent)
open Float.Model.UnpackedFloat

/-! ### The bits that are dropped -/

/-- What a mantissa and its residual bits say about the exact number: its whole part is the mantissa,
and the bits tell how the rest compares with one half. -/
def Tells (x : ℚ) : ExtendedMantissa → Prop
  | ⟨m, false, false⟩ => x = m
  | ⟨m, false, true⟩ => m < x ∧ x < m + 1 / 2
  | ⟨m, true, false⟩ => x = m + 1 / 2
  | ⟨m, true, true⟩ => m + 1 / 2 < x ∧ x < m + 1

variable {x v : ℚ} {m k : ℕ} {e : ℤ} {s : Sign} {u : UnpackedFloat}

lemma tells_ofNat (m : ℕ) : Tells m (.ofMantissaAndAccuracy m .exact) := rfl

/-- The accuracy of a quotient tells what the division leaves. -/
lemma tells_div (m : ℕ) {n : ℕ} (pos : 0 < n) :
    Tells ((m : ℚ) / n) (.ofMantissaAndAccuracy (m / n) (accuracyOfFraction (m % n) n)) := by
  have divisor : (0 : ℚ) < n := by exact_mod_cast pos
  have split : (m : ℚ) / n = (m / n : ℕ) + (m % n : ℕ) / n := by
    rw [eq_comm, ← sub_eq_zero]
    have whole : (m : ℚ) = n * (m / n : ℕ) + (m % n : ℕ) := by exact_mod_cast (Nat.div_add_mod m n).symm
    rw [whole]
    field_simp
    ring
  have small : ((m % n : ℕ) : ℚ) / n < 1 := by
    rw [div_lt_one divisor]
    exact_mod_cast Nat.mod_lt m pos
  rw [split, accuracyOfFraction]
  by_cases none : m % n = 0
  · rw [if_pos none, none]
    show _ = _
    simp
  have rest : (0 : ℚ) < ((m % n : ℕ) : ℚ) / n := by
    have positive : (0 : ℚ) < (m % n : ℕ) := by exact_mod_cast Nat.pos_of_ne_zero none
    positivity
  rw [if_neg none]
  cases order : compare (2 * (m % n)) n with
  | lt =>
    have below : (2 : ℚ) * (m % n : ℕ) < n := by exact_mod_cast Nat.compare_eq_lt.mp order
    have half : ((m % n : ℕ) : ℚ) / n < 1 / 2 := by
      rw [div_lt_div_iff₀ divisor two_pos]
      linarith
    exact ⟨by linarith, by linarith⟩
  | eq =>
    have same : (2 : ℚ) * (m % n : ℕ) = n := by exact_mod_cast Nat.compare_eq_eq.mp order
    have half : ((m % n : ℕ) : ℚ) / n = 1 / 2 := by
      rw [div_eq_div_iff divisor.ne' two_ne_zero]
      linarith
    show _ = _
    rw [half]
  | gt =>
    have above : (n : ℚ) < 2 * (m % n : ℕ) := by exact_mod_cast Nat.compare_eq_gt.mp order
    have half : 1 / 2 < ((m % n : ℕ) : ℚ) / n := by
      rw [div_lt_div_iff₀ two_pos divisor]
      linarith
    exact ⟨by linarith, by linarith⟩

namespace Tells

variable {em : ExtendedMantissa}

lemma shiftRightOne (h : Tells x em) : Tells (x / 2) em.shiftRightOne := by
  obtain ⟨m, half, rest⟩ := em
  have whole : (m : ℚ) = 2 * (m / 2 : ℕ) + (m % 2 : ℕ) := by exact_mod_cast (Nat.div_add_mod m 2).symm
  obtain even | odd := Nat.mod_two_eq_zero_or_one m
  · have shifted : (ExtendedMantissa.mk m half rest).shiftRightOne = ⟨m / 2, false, half || rest⟩ := by
      rw [ExtendedMantissa.shiftRightOne]
      simp [even]
    rw [even, Nat.cast_zero, add_zero] at whole
    rw [shifted]
    cases half <;> cases rest <;> simp only [Tells, Bool.or_self, Bool.or_true, Bool.true_or] at h ⊢ <;>
      first | (constructor <;> linarith) | linarith
  · have shifted : (ExtendedMantissa.mk m half rest).shiftRightOne = ⟨m / 2, true, half || rest⟩ := by
      rw [ExtendedMantissa.shiftRightOne]
      simp [odd]
    rw [odd, Nat.cast_one] at whole
    rw [shifted]
    cases half <;> cases rest <;> simp only [Tells, Bool.or_self, Bool.or_true, Bool.true_or] at h ⊢ <;>
      first | (constructor <;> linarith) | linarith

lemma shiftRight (h : Tells x em) (k : ℕ) : Tells (x / 2 ^ k) (em >>> k) := by
  induction k with
  | zero =>
    rw [pow_zero, div_one]
    exact h
  | succ k ih =>
    rw [pow_succ, ← div_div]
    exact ih.shiftRightOne

lemma rounded_close (h : Tells x em) : |(em.roundedMantissa : ℚ) - x| ≤ 1 / 2 := by
  obtain ⟨m, half, rest⟩ := em
  rw [abs_le]
  cases half with
  | false =>
    have down (b : Bool) : (ExtendedMantissa.mk m false b).roundedMantissa = m := by cases b <;> rfl
    rw [down]
    cases rest <;> simp only [Tells] at h <;> constructor <;> linarith
  | true =>
    cases rest with
    | false =>
      have tie : (ExtendedMantissa.mk m true false).roundedMantissa = m + m % 2 := rfl
      rw [tie]
      obtain even | odd := Nat.mod_two_eq_zero_or_one m
      · simp only [Tells, even, add_zero] at h ⊢
        constructor <;> linarith
      · simp only [Tells, odd, Nat.cast_add, Nat.cast_one] at h ⊢
        constructor <;> linarith
    | true =>
      have up : (ExtendedMantissa.mk m true true).roundedMantissa = m + 1 := rfl
      rw [up]
      simp only [Tells, Nat.cast_add, Nat.cast_one] at h ⊢
      constructor <;> linarith

lemma rounded_le (h : Tells x em) {n : ℕ} (le : x ≤ n) : em.roundedMantissa ≤ n := by
  have close := (abs_le.mp h.rounded_close).2
  have below : (em.roundedMantissa : ℚ) < (n + 1 : ℕ) := by
    push_cast
    linarith
  exact Nat.lt_succ_iff.mp (by exact_mod_cast below)

lemma le_rounded (h : Tells x em) {n : ℕ} (le : n ≤ x) : n ≤ em.roundedMantissa := by
  have close := (abs_le.mp h.rounded_close).1
  have above : (n : ℚ) < (em.roundedMantissa + 1 : ℕ) := by
    push_cast
    linarith
  exact Nat.lt_succ_iff.mp (by exact_mod_cast above)

lemma mantissa_le (h : Tells x em) : em.mantissa ≤ x ∧ x < em.mantissa + 1 := by
  obtain ⟨m, half, rest⟩ := em
  cases half <;> cases rest <;> simp only [Tells] at h ⊢ <;> constructor <;> linarith

end Tells

/-! ### The grid of finite numbers -/

/-- How many times the least positive number goes into the one of a given size. -/
def quanta (n : ℕ) : ℕ := if n < 2 ^ 52 then n else (n % 2 ^ 52 + 2 ^ 52) * 2 ^ (n / 2 ^ 52 - 1)

/-- The size of a number is made up of its exponent and its mantissa. -/
lemma quanta_eq (hm : m < 2 ^ 53) (normal : k = 0 ∨ 2 ^ 52 ≤ m) :
    quanta (k * 2 ^ 52 + m) = m * 2 ^ k := by
  by_cases low : m < 2 ^ 52
  · obtain rfl : k = 0 := normal.resolve_right (Nat.not_le.mpr low)
    rw [Nat.zero_mul, Nat.zero_add, quanta, if_pos low, Nat.pow_zero, Nat.mul_one]
  · have rest : (k * 2 ^ 52 + m) % 2 ^ 52 + 2 ^ 52 = m := by omega
    have steps : (k * 2 ^ 52 + m) / 2 ^ 52 - 1 = k := by omega
    rw [quanta, if_neg (by omega), rest, steps]

lemma quanta_strictMono : StrictMono quanta := by
  refine strictMono_nat_of_lt_succ fun n => ?_
  by_cases low : n + 1 < 2 ^ 52
  · rw [quanta, quanta, if_pos low, if_pos (by omega)]
    omega
  by_cases first : n + 1 = 2 ^ 52
  · rw [first, quanta, if_pos (by omega)]
    show n < (0 + 2 ^ 52) * 2 ^ 0
    omega
  -- within a binade the mantissa grows, and the next binade starts above
  obtain ⟨k, m, hm, normal, rfl⟩ : ∃ k m, m < 2 ^ 53 ∧ 2 ^ 52 ≤ m ∧ n = k * 2 ^ 52 + m :=
    ⟨n / 2 ^ 52 - 1, n % 2 ^ 52 + 2 ^ 52, by omega, by omega, by omega⟩
  rw [quanta_eq hm (.inr normal)]
  have positive : 0 < 2 ^ k := Nat.two_pow_pos k
  by_cases inside : m + 1 < 2 ^ 53
  · rw [Nat.add_assoc, quanta_eq inside (.inr (by omega))]
    exact Nat.mul_lt_mul_of_pos_right (Nat.lt_succ_self m) positive
  · have next : k * 2 ^ 52 + m + 1 = (k + 1) * 2 ^ 52 + 2 ^ 52 := by omega
    rw [next, quanta_eq (by omega) (.inr (Nat.le_refl _))]
    calc m * 2 ^ k < 2 ^ 53 * 2 ^ k := Nat.mul_lt_mul_of_pos_right hm positive
      _ = 2 ^ 52 * 2 ^ (k + 1) := by omega

/-- The rational number at a point of the grid. -/
def point (z : ℤ) : ℚ := z.sign * quanta z.natAbs * 2 ^ (-1074 : ℤ)

lemma point_natCast (n : ℕ) : point n = quanta n * 2 ^ (-1074 : ℤ) := by
  rw [point, Int.natAbs_natCast]
  obtain rfl | positive := Nat.eq_zero_or_pos n
  · rw [quanta]
    simp
  · rw [Int.sign_natCast_of_ne_zero positive.ne', Int.cast_one, one_mul]

lemma point_neg (z : ℤ) : point (-z) = -point z := by
  rw [point, point, Int.sign_neg, Int.natAbs_neg, Int.cast_neg, neg_mul, neg_mul]

lemma point_eq (hm : m < 2 ^ 53) (normal : k = 0 ∨ 2 ^ 52 ≤ m) :
    point (k * 2 ^ 52 + m : ℕ) = m * 2 ^ ((k : ℤ) - 1074) := by
  rw [point_natCast, quanta_eq hm normal, sub_eq_add_neg, zpow_add₀ two_ne_zero, zpow_natCast,
    Nat.cast_mul, Nat.cast_pow, Nat.cast_ofNat, mul_assoc]

lemma point_lt {y z : ℤ} (h : y < z) : point y < point z := by
  have natural {m n : ℕ} (h : m < n) : point m < point n := by
    rw [point_natCast, point_natCast]
    have more : (quanta m : ℚ) < quanta n := by exact_mod_cast quanta_strictMono h
    exact mul_lt_mul_of_pos_right more (by positivity)
  have origin : point ((0 : ℕ) : ℤ) = 0 := by
    rw [point_natCast, quanta]
    simp
  obtain ⟨m, rfl | rfl⟩ := y.eq_nat_or_neg
  · obtain ⟨n, rfl⟩ := Int.eq_ofNat_of_zero_le (by omega : 0 ≤ z)
    exact natural (by omega)
  · obtain ⟨n, rfl | rfl⟩ := z.eq_nat_or_neg
    · rw [point_neg]
      by_cases zero : m = 0
      · subst zero
        rw [origin, neg_zero, ← origin]
        exact natural (by omega)
      · have above : point ((0 : ℕ) : ℤ) < point m := natural (by omega)
        have low : point ((0 : ℕ) : ℤ) ≤ point n := by
          obtain rfl | positive := Nat.eq_zero_or_pos n
          · exact le_refl _
          · exact (natural positive).le
        rw [origin] at above low
        linarith
    · rw [point_neg, point_neg, neg_lt_neg_iff]
      exact natural (by omega)

lemma point_le_iff {y z : ℤ} : point y ≤ point z ↔ y ≤ z := by
  have ascending : StrictMono point := fun _ _ => point_lt
  exact ascending.le_iff_le

lemma point_injective : Function.Injective point := by
  have ascending : StrictMono point := fun _ _ => point_lt
  exact ascending.injective

@[simp] lemma point_zero : point 0 = 0 := by
  rw [point]
  simp

lemma exists_parts {w : ℤ} (nonneg : 0 ≤ w) :
    ∃ m k : ℕ, m < 2 ^ 53 ∧ point w = m * 2 ^ ((k : ℤ) - 1074) := by
  obtain ⟨n, rfl⟩ := Int.eq_ofNat_of_zero_le nonneg
  by_cases low : n < 2 ^ 52
  · have parts := point_eq (m := n) (k := 0) (by omega) (.inl rfl)
    rw [Nat.zero_mul, Nat.zero_add] at parts
    exact ⟨n, 0, by omega, parts⟩
  · have size : (n / 2 ^ 52 - 1) * 2 ^ 52 + (n % 2 ^ 52 + 2 ^ 52) = n := by omega
    have parts := point_eq (m := n % 2 ^ 52 + 2 ^ 52) (k := n / 2 ^ 52 - 1) (by omega)
      (.inr (by omega))
    rw [size] at parts
    exact ⟨n % 2 ^ 52 + 2 ^ 52, n / 2 ^ 52 - 1, by omega, parts⟩

/-! ### Rounding to the grid -/

/-- The point `z` of the grid is what the number `v` is rounded to: no point is between the two, and
the distance is at most half of the one to the next point. -/
structure Rounds (v : ℚ) (z : ℤ) : Prop where
  le_of_le : ∀ w, v ≤ point w → z ≤ w
  le_of_ge : ∀ w, point w ≤ v → w ≤ z
  close : |point z - v| ≤ max (|v| / 2 ^ 53) (2 ^ (-1075 : ℤ))

lemma Rounds.neg {z : ℤ} (h : Rounds v z) : Rounds (-v) (-z) where
  le_of_le w le := by
    have other := h.le_of_ge (-w) (by rw [point_neg]; linarith)
    omega
  le_of_ge w le := by
    have other := h.le_of_le (-w) (by rw [point_neg]; linarith)
    omega
  close := by
    rw [point_neg, neg_sub_neg, abs_sub_comm, abs_neg]
    exact h.close

lemma rounds_point (z : ℤ) : Rounds (point z) z where
  le_of_le _ le := point_le_iff.mp le
  le_of_ge _ le := point_le_iff.mp le
  close := by
    rw [sub_self, abs_zero]
    positivity

/-- A number in a binade of the grid is rounded to a multiple of the distance of its points. -/
lemma Tells.rounds {y : ℚ} {t : ℤ} {em : ExtendedMantissa} {p : ℕ} (h : Tells y em) (low : -1074 ≤ t)
    (normal : t = -1074 ∨ 2 ^ 52 ≤ y) (result : point p = em.roundedMantissa * 2 ^ t) :
    Rounds (y * 2 ^ t) p := by
  have step : (0 : ℚ) < 2 ^ t := by positivity
  have nonneg : 0 ≤ y := by
    have whole := h.mantissa_le.1
    have start : (0 : ℚ) ≤ em.mantissa := Nat.cast_nonneg _
    linarith
  -- a point is a multiple of the distance, or it is below the binade
  have grid {w : ℤ} (hw : 0 ≤ w) :
      (∃ n : ℕ, point w = n * 2 ^ t) ∨ 2 ^ 52 ≤ y ∧ point w < 2 ^ 52 * 2 ^ t := by
    obtain ⟨m, k, hm, parts⟩ := exists_parts hw
    obtain above | below := le_or_gt t ((k : ℤ) - 1074)
    · refine .inl ⟨m * 2 ^ ((k : ℤ) - 1074 - t).toNat, ?_⟩
      have exponent : (k : ℤ) - 1074 = ((k : ℤ) - 1074 - t).toNat + t := by omega
      rw [parts]
      nth_rewrite 1 [exponent]
      rw [zpow_add₀ two_ne_zero, zpow_natCast]
      push_cast
      ring
    · refine .inr ⟨normal.resolve_left (by omega), ?_⟩
      have mantissa : (m : ℚ) < 2 ^ 53 := by exact_mod_cast hm
      have exponent : (2 : ℚ) ^ ((k : ℤ) - 1074) ≤ 2 ^ (t - 1) :=
        zpow_le_zpow_right₀ one_le_two (by omega)
      have half : (2 : ℚ) ^ (t - 1) * 2 = 2 ^ t := by
        rw [zpow_sub_one₀ two_ne_zero]
        field_simp
      calc point w = m * 2 ^ ((k : ℤ) - 1074) := parts
        _ < 2 ^ 53 * 2 ^ ((k : ℤ) - 1074) := mul_lt_mul_of_pos_right mantissa (by positivity)
        _ ≤ 2 ^ 53 * 2 ^ (t - 1) := mul_le_mul_of_nonneg_left exponent (by positivity)
        _ = 2 ^ 52 * 2 ^ t := by rw [← half]; ring
  refine ⟨fun w le => ?_, fun w le => ?_, ?_⟩
  · have hw : 0 ≤ w := by
      rw [← point_le_iff, point_zero]
      exact le_trans (by positivity) le
    rw [← point_le_iff, result]
    obtain ⟨n, multiple⟩ | ⟨large, below⟩ := grid hw
    · rw [multiple] at le ⊢
      have rounded := h.rounded_le (le_of_mul_le_mul_right le step)
      have rounded' : (em.roundedMantissa : ℚ) ≤ n := by exact_mod_cast rounded
      exact mul_le_mul_of_nonneg_right rounded' step.le
    · have binade := mul_le_mul_of_nonneg_right large step.le
      linarith
  · by_cases hw : 0 ≤ w
    · rw [← point_le_iff, result]
      obtain ⟨n, multiple⟩ | ⟨large, below⟩ := grid hw
      · rw [multiple] at le ⊢
        have rounded := h.le_rounded (le_of_mul_le_mul_right le step)
        have rounded' : (n : ℚ) ≤ em.roundedMantissa := by exact_mod_cast rounded
        exact mul_le_mul_of_nonneg_right rounded' step.le
      · have rounded : 2 ^ 52 ≤ em.roundedMantissa := h.le_rounded (by exact_mod_cast large)
        have rounded' : (2 : ℚ) ^ 52 ≤ em.roundedMantissa := by exact_mod_cast rounded
        have binade := mul_le_mul_of_nonneg_right rounded' step.le
        linarith
    · omega
  · have moved : |point p - y * 2 ^ t| ≤ 1 / 2 * 2 ^ t := by
      rw [result, ← sub_mul, abs_mul, abs_of_pos step]
      exact mul_le_mul_of_nonneg_right h.rounded_close step.le
    refine moved.trans ?_
    obtain rfl | large := normal
    · refine le_max_of_le_right (le_of_eq ?_)
      rw [show (-1075 : ℤ) = -1074 - 1 from rfl, zpow_sub_one₀ two_ne_zero]
      ring
    · refine le_max_of_le_left ?_
      rw [abs_of_nonneg (by positivity), le_div_iff₀ (by positivity)]
      have binade := mul_le_mul_of_nonneg_right large step.le
      linarith

/-! ### Rounded results -/

/-- A rounded result before it is packed, by its sign and its size.  There is no greatest one yet. -/
inductive Canonical : UnpackedFloat → Sign → ℕ → Prop
  | zero (s : Sign) : Canonical (.zero s) s 0
  | finite (s : Sign) (m k : ℕ) (pos : 0 < m) (hm : m < 2 ^ 53) (normal : k = 0 ∨ 2 ^ 52 ≤ m) :
      Canonical (.finite s m ((k : ℤ) - 1074) pos) s (k * 2 ^ 52 + m)

/-- A number with a sign. -/
def signed (s : Sign) (x : ℚ) : ℚ :=
  match s with
  | .negative => -x
  | .positive => x

lemma Rounds.signed {z : ℤ} (h : Rounds v z) (s : Sign) : Rounds (signed s v) (s.apply z) := by
  cases s with
  | negative => exact h.neg
  | positive => exact h

/-- The last step of rounding. -/
lemma canonical_put {n : ℕ} {j : ℤ} (small : n < 2 ^ 53) (low : -1074 ≤ j)
    (normal : j = -1074 ∨ 2 ^ 52 ≤ n) (s : Sign) :
    ∃ p, Canonical (if h : n = 0 then .zero s else .finite s n j (Nat.pos_of_ne_zero h)) s p ∧
      point p = n * 2 ^ j := by
  obtain ⟨k, rfl⟩ : ∃ k : ℕ, j = k - 1074 := ⟨(j + 1074).toNat, by omega⟩
  have normal' : k = 0 ∨ 2 ^ 52 ≤ n := by omega
  refine ⟨k * 2 ^ 52 + n, ?_, point_eq small normal'⟩
  cases n with
  | zero =>
    obtain rfl : k = 0 := by omega
    exact .zero s
  | succ n => exact .finite s (n + 1) k _ small normal'

lemma excess_of_lt {t : ℤ} (small : m < 2 ^ 53) (low : -1074 ≤ t) : excess m t = 0 := by
  have bits : m.log2 ≤ 52 := by
    obtain rfl | pos := Nat.eq_zero_or_pos m
    · exact Nat.zero_le _
    · exact Nat.lt_succ_iff.mp (log2_lt_of_lt small pos)
  unfold excess totalExponent
  omega

lemma excess_two_pow {t : ℤ} (low : -1074 ≤ t) : excess (2 ^ 53) t = 1 := by
  unfold excess totalExponent
  rw [Nat.log2_two_pow]
  omega

/-- **Rounding takes an exact result to the grid**, if no bits are missing below the ones it keeps. -/
theorem rounds_roundWithAccuracy {a : Accuracy} (s : Sign)
    (bits : e ≤ max (totalExponent m e - 53) (-1074)) (h : Tells x (.ofMantissaAndAccuracy m a)) :
    ∃ n, Canonical (roundWithAccuracy .binary64 s m e a) s n ∧ Rounds (x * 2 ^ e) n := by
  let t := e + excess m e
  let em := (shiftToTargetExponent .binary64 m e a).1
  have place : t = max (totalExponent m e - 53) (-1074) := by
    show e + (excess m e : ℤ) = _
    unfold excess
    omega
  have low : -1074 ≤ t := by omega
  have tells : Tells (x / 2 ^ excess m e) em := h.shiftRight (excess m e)
  have whole : em.mantissa = m / 2 ^ excess m e := mantissa_shiftToTargetExponent m e a
  have total : totalExponent m e = (m.log2 : ℤ) + 1 + e := rfl
  have fits : em.mantissa < 2 ^ 53 := by
    rw [whole, Nat.div_lt_iff_lt_mul (Nat.two_pow_pos _), ← Nat.pow_add]
    refine Nat.lt_of_lt_of_le Nat.lt_log2_self (Nat.pow_le_pow_right two_pos ?_)
    omega
  have normal : t = -1074 ∨ 2 ^ 52 ≤ em.mantissa := by
    by_cases least : t = -1074
    · exact .inl least
    · have size : m.log2 = 52 + excess m e := by omega
      refine .inr ?_
      rw [whole, Nat.le_div_iff_mul_le (Nat.two_pow_pos _), ← Nat.pow_add, ← size]
      refine Nat.log2_self_le fun zero => ?_
      rw [zero, Nat.log2_zero] at size
      omega
  have above : em.mantissa ≤ em.roundedMantissa := tells.le_rounded tells.mantissa_le.1
  have below : em.roundedMantissa ≤ em.mantissa + 1 := roundedMantissa_le em
  -- a mantissa that was rounded up to `2 ^ 53` moves to the next exponent
  obtain ⟨p, canonical, position⟩ : ∃ p : ℕ,
      Canonical (roundWithAccuracy .binary64 s m e a) s p ∧ point p = em.roundedMantissa * 2 ^ t := by
    let final := (shiftToTargetExponent .binary64 em.roundedMantissa t .exact).1.mantissa
    have reduced : final = em.roundedMantissa / 2 ^ excess em.roundedMantissa t :=
      mantissa_shiftToTargetExponent em.roundedMantissa t .exact
    have result {n : ℕ} {j : ℤ} (mantissa : final = n) (exponent : t + excess em.roundedMantissa t = j)
        (small : n < 2 ^ 53) (least : -1074 ≤ j) (normal : j = -1074 ∨ 2 ^ 52 ≤ n) :
        ∃ p : ℕ, Canonical (roundWithAccuracy .binary64 s m e a) s p ∧ point p = n * 2 ^ j := by
      subst mantissa exponent
      exact canonical_put small least normal s
    obtain small | large := Nat.lt_or_ge em.roundedMantissa (2 ^ 53)
    · have kept : excess em.roundedMantissa t = 0 := excess_of_lt small low
      refine result ?_ ?_ small low (by omega)
      · rw [reduced, kept, Nat.pow_zero, Nat.div_one]
      · rw [kept]
        omega
    · have full : em.roundedMantissa = 2 ^ 53 := by omega
      have moved : excess em.roundedMantissa t = 1 := by rw [full, excess_two_pow low]
      obtain ⟨p, canonical, position⟩ := result (n := 2 ^ 52) (j := t + 1)
        (by rw [reduced, moved, full]; rfl) (by rw [moved]; rfl) (by omega) (by omega)
        (.inr (Nat.le_refl _))
      refine ⟨p, canonical, ?_⟩
      rw [position, full, zpow_add_one₀ two_ne_zero]
      push_cast
      ring
  have value : x / 2 ^ excess m e * 2 ^ t = x * 2 ^ e := by
    have exponent : (2 : ℚ) ^ t = 2 ^ e * 2 ^ excess m e := by
      rw [zpow_add₀ two_ne_zero, zpow_natCast]
    rw [exponent]
    field_simp
  refine ⟨p, canonical, ?_⟩
  rw [← value]
  refine tells.rounds low (normal.imp_right fun large => ?_) position
  have large' : (2 : ℚ) ^ 52 ≤ em.mantissa := by exact_mod_cast large
  exact large'.trans tells.mantissa_le.1

lemma log2_shiftLeft (pos : 0 < m) (k : ℕ) : (m <<< k).log2 = m.log2 + k := by
  have moved : 0 < m * 2 ^ k := Nat.mul_pos pos (Nat.two_pow_pos k)
  rw [Nat.shiftLeft_eq, Nat.log2_eq_iff moved.ne', Nat.pow_add, Nat.add_right_comm, Nat.pow_add]
  exact ⟨Nat.mul_le_mul_right _ (Nat.log2_self_le pos.ne'),
    Nat.mul_lt_mul_of_pos_right Nat.lt_log2_self (Nat.two_pow_pos k)⟩

lemma shiftLeft_mul (m k : ℕ) (e : ℤ) : ((m <<< k : ℕ) : ℚ) * 2 ^ (e - k) = m * 2 ^ e := by
  rw [Nat.shiftLeft_eq, zpow_sub₀ two_ne_zero, zpow_natCast]
  push_cast
  field_simp

theorem rounds_round (s : Sign) (pos : 0 < m) (e : ℤ) :
    ∃ n, Canonical (UnpackedFloat.round .binary64 s m e) s n ∧ Rounds (m * 2 ^ e) n := by
  let shift := (e - Format.binary64.targetExponent (totalExponent m e)).toNat
  have bits : e - shift ≤ max (totalExponent (m <<< shift) (e - shift) - 53) (-1074) := by
    have moved := log2_shiftLeft pos shift
    have goal : shift = (e - max (totalExponent m e - 53) (-1074)).toNat := rfl
    unfold totalExponent at goal ⊢
    omega
  have rounds := rounds_roundWithAccuracy (a := .exact) s bits (tells_ofNat _)
  rw [shiftLeft_mul] at rounds
  exact rounds

/-- **A signed mantissa is rounded to the grid.** -/
theorem rounds_normalize (m e : ℤ) (zero : Sign) :
    ∃ s n, Canonical (UnpackedFloat.normalize .binary64 m e zero) s n ∧
      Rounds (m * 2 ^ e) (s.apply n) := by
  unfold UnpackedFloat.normalize
  cases order : compare m 0 with
  | eq =>
    refine ⟨zero, 0, .zero zero, ?_⟩
    have origin : zero.apply ((0 : ℕ) : ℤ) = 0 := by cases zero <;> rfl
    rw [origin, Int.compare_eq_eq.mp order, Int.cast_zero, zero_mul, ← point_zero]
    exact rounds_point 0
  | lt =>
    obtain ⟨n, rfl⟩ : ∃ n : ℕ, m = -(n : ℤ) :=
      ⟨m.natAbs, by have := Int.compare_eq_lt.mp order; omega⟩
    have pos : 0 < n := by have := Int.compare_eq_lt.mp order; omega
    obtain ⟨p, canonical, rounds⟩ := rounds_round .negative pos e
    refine ⟨.negative, p, ?_, ?_⟩
    · rwa [Int.neg_neg, Int.toNat_natCast]
    · rw [Int.cast_neg, Int.cast_natCast, neg_mul]
      exact rounds.neg
  | gt =>
    obtain ⟨n, rfl⟩ := Int.eq_ofNat_of_zero_le (Int.compare_eq_gt.mp order).le
    have pos : 0 < n := by have := Int.compare_eq_gt.mp order; omega
    obtain ⟨p, canonical, rounds⟩ := rounds_round .positive pos e
    exact ⟨.positive, p, canonical, rounds⟩

end Autotune.Number
