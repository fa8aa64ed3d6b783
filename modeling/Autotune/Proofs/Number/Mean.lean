import Autotune.Number.Binary
import Autotune.Proofs.Number.Value

/-!
# The mean of equal numbers

The mean of copies of one number is their sum from left to right, rounded at each step, divided by
their number.  So it need not be the number itself.

* `mean_of_equal`, `mean_replicate`: it is, if all multiples up to the sum are numbers;
* `mean_replicate_close`: if the sum is not too large, what it is off by grows with the number of
  copies, by half of the distance of two numbers for each.
-/

namespace Autotune.Number

variable {x y w : Float} {n k : ℕ}

/-! ### Exact sums -/

/-- All multiples of a number are numbers, up to a given one. -/
def HasMultiples (x : Float) (n : ℕ) : Prop :=
  ∀ k ≤ n, ∃ w : Float, w.isFinite = true ∧ value w = k * value x

lemma sum_concat (xs : List Float) (x : Float) : sum (xs ++ [x]) = sum xs + x :=
  List.foldl_concat ..

lemma sum_replicate_succ (n : ℕ) (x : Float) :
    sum (List.replicate (n + 1) x) = sum (List.replicate n x) + x := by
  rw [List.replicate_succ', sum_concat]

lemma sum_nil : (sum []).isFinite = true ∧ value (sum []) = 0 := by
  have start : (-0.0 : Float).isFinite = true ∧ value (-0.0) = 0 := ⟨by decide, rfl⟩
  exact start

lemma sum_of_equal {xs : List Float} (same : ∀ y ∈ xs, y.isFinite = true ∧ value y = value x)
    (multiples : HasMultiples x xs.length) :
    (sum xs).isFinite = true ∧ value (sum xs) = xs.length * value x := by
  induction xs using List.reverseRecOn with
  | nil =>
    rw [List.length_nil, Nat.cast_zero, zero_mul]
    exact sum_nil
  | append_singleton xs y ih =>
    have length : (xs ++ [y]).length = xs.length + 1 := List.length_append
    obtain ⟨finite, before⟩ := ih (fun y hy => same y (List.mem_append_left _ hy))
      fun k le => multiples k (by omega)
    obtain ⟨finite', last⟩ := same y (List.mem_append_right _ List.mem_cons_self)
    obtain ⟨w, number, exact⟩ := multiples _ (Nat.le_refl _)
    have next := nearest_add finite finite'
    have total : value (sum xs) + value y = value w := by
      rw [before, last, exact, length]
      push_cast
      ring
    rw [total] at next
    rw [sum_concat, ← exact]
    exact next.value_eq number

lemma mean_of_equal {xs : List Float} (same : ∀ y ∈ xs, y.isFinite = true ∧ value y = value x)
    (finite : x.isFinite = true) (pos : 0 < xs.length) (small : xs.length < 2 ^ 53)
    (multiples : HasMultiples x xs.length) :
    (mean xs).isFinite = true ∧ value (mean xs) = value x := by
  obtain ⟨finite', total⟩ := sum_of_equal same multiples
  obtain ⟨number, count⟩ := value_ofNat small
  have positive : (xs.length : ℚ) ≠ 0 := by exact_mod_cast pos.ne'
  have quotient := nearest_div finite' number (by rwa [count])
  rw [total, count, mul_div_cancel_left₀ _ positive] at quotient
  exact quotient.value_eq finite

/-! ### Sums of zeros -/

lemma eq_zero_of_value (finite : x.isFinite = true) (zero : value x = 0) : x = 0.0 ∨ x = -0.0 := by
  have place : level x = 0 := by
    rw [value_eq_point finite, ← point_zero] at zero
    exact point_injective zero
  have key : totalKey x = 0 ∨ totalKey x = -1 := by
    rw [level] at place
    split at place <;> omega
  exact key.imp (fun key => totalKey_injective (key.trans (by decide)))
    fun key => totalKey_injective (key.trans (by decide))

lemma sum_replicate_zero (start : -0.0 + x = x) (twice : x + x = x) (n : ℕ) :
    sum (List.replicate (n + 1) x) = x := by
  induction n with
  | zero => exact start
  | succ n ih => rw [sum_replicate_succ, ih, twice]

lemma zero_div_ofNat (pos : 0 < n) (small : n < 2 ^ 53) (zero : x = 0.0 ∨ x = -0.0) :
    x / Float.ofNat n = x := by
  have positive : 0 < value (Float.ofNat n) := by
    rw [(value_ofNat small).2]
    exact_mod_cast pos
  show Float.ofModel (.pack (.div .binary64 x.toModel.unpack (Float.ofNat n).toModel.unpack)) = x
  rw [value] at positive
  generalize (Float.ofNat n).toModel.unpack = u at positive
  cases u with
  | zero | infinity | notANumber => exact absurd positive (lt_irrefl 0)
  | finite s m e pos' =>
    cases s with
    | negative =>
      have negative : rational (.finite .negative m e pos') < 0 := by
        show -((m : ℚ) * 2 ^ e) < 0
        have mantissa : (0 : ℚ) < m := by exact_mod_cast pos'
        rw [neg_lt_zero]
        positivity
      exact absurd positive negative.not_gt
    | positive => obtain rfl | rfl := zero <;> rfl

/-! ### Means -/

/-- **The mean of copies of a number is the number**, if no sum of them has to be rounded. -/
theorem mean_replicate (finite : x.isFinite = true) (pos : 0 < n) (small : n < 2 ^ 53)
    (multiples : HasMultiples x n) : mean (List.replicate n x) = x := by
  by_cases zero : value x = 0
  · have zero' := eq_zero_of_value finite zero
    obtain ⟨n, rfl⟩ := Nat.exists_eq_succ_of_ne_zero pos.ne'
    have whole : sum (List.replicate (n + 1) x) = x := by
      obtain rfl | rfl := zero' <;> exact sum_replicate_zero (by decide +kernel) (by decide +kernel) n
    rw [mean, List.length_replicate, whole, zero_div_ofNat pos small zero']
  · have copies : ∀ y ∈ List.replicate n x, y.isFinite = true ∧ value y = value x := by
      intro y hy
      rw [List.eq_of_mem_replicate hy]
      exact ⟨finite, rfl⟩
    rw [← List.length_replicate (n := n) (a := x)] at pos small multiples
    obtain ⟨finite', same⟩ := mean_of_equal copies finite pos small multiples
    exact eq_of_value finite' finite same zero

/-! ### When nothing is rounded -/

lemma hasMultiples_of_zero (zero : value x = 0) (n : ℕ) : HasMultiples x n := by
  intro k _
  exact ⟨0, rfl, by rw [zero, mul_zero]; rfl⟩

lemma hasMultiples_one (finite : x.isFinite = true) : HasMultiples x 1 := by
  intro k le
  obtain rfl | rfl : k = 0 ∨ k = 1 := by omega
  · exact ⟨0, rfl, by rw [Nat.cast_zero, zero_mul]; rfl⟩
  · exact ⟨x, finite, by rw [Nat.cast_one, one_mul]⟩

lemma exists_point_double (z : ℤ) : ∃ w, point w = 2 * point z := by
  have natural (n : ℕ) : ∃ w, point w = 2 * point n := by
    obtain ⟨m, k, small, parts⟩ := exists_parts (Int.natCast_nonneg n)
    obtain ⟨p, double⟩ := exists_point (j := (k : ℤ) - 1074 + 1) small (by omega)
    refine ⟨p, ?_⟩
    rw [double, parts, zpow_add_one₀ two_ne_zero]
    ring
  obtain ⟨n, rfl | rfl⟩ := z.eq_nat_or_neg
  · exact natural n
  · obtain ⟨w, double⟩ := natural n
    exact ⟨-w, by rw [point_neg, point_neg, double, mul_neg]⟩

lemma hasMultiples_two (finite : x.isFinite = true) (twice : (x + x).isFinite = true) :
    HasMultiples x 2 := by
  intro k le
  obtain low | rfl : k ≤ 1 ∨ k = 2 := by omega
  · exact hasMultiples_one finite k low
  obtain ⟨z, double⟩ := exists_point_double (level x)
  rw [← value_eq_point finite, two_mul] at double
  refine ⟨x + x, twice, ?_⟩
  rw [(nearest_add finite finite).exact z double.symm twice, Nat.cast_ofNat, two_mul]

/-- A mantissa that is short enough leaves room for all multiples. -/
lemma hasMultiples_of_short {s : Float.Model.UnpackedFloat.Sign} {m : ℕ} {j : ℤ}
    (short : value x = signed s (m * 2 ^ j)) (room : n * m < 2 ^ 53) (low : -1074 ≤ j)
    (high : j ≤ 971) : HasMultiples x n := by
  intro k le
  have small : k * m < 2 ^ 53 := Nat.lt_of_le_of_lt (Nat.mul_le_mul_right m le) room
  obtain ⟨w, finite, same⟩ := exists_value s small low high
  refine ⟨w, finite, ?_⟩
  rw [same, short, Nat.cast_mul, mul_assoc]
  cases s with
  | negative => exact (mul_neg _ _).symm
  | positive => rfl

lemma hasMultiples_ofNat {m : ℕ} (room : n * m < 2 ^ 53) (pos : 0 < n) :
    HasMultiples (Float.ofNat m) n := by
  have small : m < 2 ^ 53 := Nat.lt_of_le_of_lt (Nat.le_mul_of_pos_left m pos) room
  refine hasMultiples_of_short (s := .positive) (m := m) (j := 0) ?_ room (by decide) (by decide)
  rw [(value_ofNat small).2, zpow_zero, mul_one]
  rfl

/-! ### What rounding adds up to -/

lemma exists_multiple (finite : x.isFinite = true) : ∃ z : ℤ, value x = z * 2 ^ (-1074 : ℤ) := by
  refine ⟨(level x).sign * quanta (level x).natAbs, ?_⟩
  rw [value_eq_point finite, point, Int.cast_mul, Int.cast_natCast]

lemma point_of_small {z : ℤ} (small : z.natAbs < 2 ^ 52) : point z = z * 2 ^ (-1074 : ℤ) := by
  rw [point, quanta, if_pos small, ← Int.cast_natCast, ← Int.cast_mul, Int.sign_mul_natAbs]

lemma half_least : (2 : ℚ) ^ (-1075 : ℤ) * 2 = 2 ^ (-1074 : ℤ) := by
  rw [show (-1075 : ℤ) = -1074 - 1 from rfl, zpow_sub_one₀ two_ne_zero, inv_mul_cancel_right₀ two_ne_zero]

/-- A sum is off by half of the distance of two numbers at most, also where numbers are closest to each
other: there it is exact. -/
lemma close_add (hx : x.isFinite = true) (hy : y.isFinite = true) (finite : (x + y).isFinite = true) :
    |value (x + y) - (value x + value y)| ≤ |value x + value y| / 2 ^ 53 := by
  have near := nearest_add hx hy
  obtain ⟨z, first⟩ := exists_multiple hx
  obtain ⟨z', second⟩ := exists_multiple hy
  have total : value x + value y = (z + z' : ℤ) * 2 ^ (-1074 : ℤ) := by
    rw [first, second, Int.cast_add, add_mul]
  obtain small | large := Nat.lt_or_ge (z + z').natAbs (2 ^ 52)
  · rw [near.exact _ (total.trans (point_of_small small).symm) finite, sub_self, abs_zero]
    positivity
  · refine (near.close finite).trans (max_le (le_refl _) ?_)
    have step : (0 : ℚ) < 2 ^ (-1074 : ℤ) := by positivity
    have large' : (2 : ℚ) ^ 52 ≤ |((z + z' : ℤ) : ℚ)| := by
      rw [← Int.cast_abs, Int.abs_eq_natAbs]
      exact_mod_cast large
    have normal := mul_le_mul_of_nonneg_right large' step.le
    rw [le_div_iff₀ (by positivity), total, abs_mul, abs_of_pos step]
    linarith [half_least]

lemma isFinite_of_moderate {v : ℚ} (near : Nearest v x) (moderate : |v| ≤ 2 * 2 ^ (1022 : ℤ)) :
    x.isFinite = true := by
  have power : (2 : ℚ) * 2 ^ (1022 : ℤ) = (2 ^ 52 : ℕ) * 2 ^ (971 : ℤ) := by
    rw [Nat.cast_pow, Nat.cast_ofNat, ← zpow_natCast, ← zpow_add₀ two_ne_zero,
      ← zpow_one_add₀ two_ne_zero]
    rfl
  obtain ⟨a, finite, low⟩ := exists_value (m := 2 ^ 52) (j := 971) .negative (by decide) (by decide)
    (by decide)
  obtain ⟨b, finite', high⟩ := exists_value (m := 2 ^ 52) (j := 971) .positive (by decide) (by decide)
    (by decide)
  have least : value a = -(2 * 2 ^ (1022 : ℤ)) := by
    rw [power]
    exact low
  have greatest : value b = 2 * 2 ^ (1022 : ℤ) := by
    rw [power]
    exact high
  obtain ⟨above, below⟩ := abs_le.mp moderate
  exact near.isFinite finite finite' (least.trans_le above) (below.trans_eq greatest.symm)

/-- **A sum of copies is off by half of the distance of two numbers for each**, if it is not too
large. -/
lemma close_sum_replicate (finite : x.isFinite = true) (small : n < 2 ^ 53)
    (moderate : n * |value x| ≤ 2 ^ (1022 : ℤ)) :
    (sum (List.replicate n x)).isFinite = true ∧
      |value (sum (List.replicate n x)) - n * value x| ≤ n * (n - 1) / 2 ^ 53 * |value x| := by
  induction n with
  | zero =>
    rw [List.replicate_zero, sum_nil.2]
    exact ⟨sum_nil.1, by simp⟩
  | succ n ih =>
    have size : (0 : ℚ) ≤ |value x| := abs_nonneg _
    have count : (0 : ℚ) ≤ n := Nat.cast_nonneg n
    have few : (n : ℚ) ≤ 2 ^ 53 := by exact_mod_cast (Nat.lt_of_succ_lt small).le
    rw [Nat.cast_succ] at moderate ⊢
    have fewer : n * |value x| ≤ (n + 1) * |value x| :=
      mul_le_mul_of_nonneg_right (le_add_of_nonneg_right zero_le_one) size
    obtain ⟨finite', before⟩ := ih (Nat.lt_of_succ_lt small) (fewer.trans moderate)
    generalize sum_of : sum (List.replicate n x) = s at finite' before
    have next : sum (List.replicate (n + 1) x) = s + x := by rw [sum_replicate_succ, sum_of]
    rw [next]
    have near := nearest_add finite' finite
    obtain rfl | some : n = 0 ∨ 1 ≤ n := by omega
    · have exact : Nearest (value x) (s + x) := by
        rw [List.replicate_zero] at sum_of
        rwa [← sum_of, sum_nil.2, zero_add, sum_of] at near
      obtain ⟨finite'', same⟩ := exact.value_eq finite
      refine ⟨finite'', ?_⟩
      rw [same]
      simp
    -- the sum so far and the copy, before they are rounded
    · let total := value s + value x
      have some' : (1 : ℚ) ≤ n := by exact_mod_cast some
      have rest : (n : ℚ) * (n - 1) / 2 ^ 53 ≤ n - 1 := by
        rw [div_le_iff₀ (by positivity), mul_comm]
        exact mul_le_mul_of_nonneg_left few (by linarith)
      have off : |total - (n + 1) * value x| ≤ n * (n - 1) / 2 ^ 53 * |value x| := by
        rwa [show total - (n + 1) * value x = value s - n * value x by ring]
      have exact : |(n + 1) * value x| = (n + 1) * |value x| := by
        rw [abs_mul, abs_of_nonneg (by linarith)]
      have bound : |total| ≤ (n + 1) * |value x| + n * (n - 1) / 2 ^ 53 * |value x| := by
        have apart := abs_sub_abs_le_abs_sub total ((n + 1) * value x)
        linarith
      have rest' := mul_le_mul_of_nonneg_right rest size
      have finite'' : (s + x).isFinite = true := by
        refine isFinite_of_moderate near (bound.trans ?_)
        linarith
      refine ⟨finite'', ?_⟩
      have rounded := close_add finite' finite finite''
      calc |value (s + x) - (n + 1) * value x|
          ≤ |value (s + x) - total| + |total - (n + 1) * value x| := abs_sub_le _ _ _
        _ ≤ ((n + 1) * |value x| + n * (n - 1) / 2 ^ 53 * |value x|) / 2 ^ 53 +
            n * (n - 1) / 2 ^ 53 * |value x| :=
          add_le_add (rounded.trans (div_le_div_of_nonneg_right bound (by positivity))) off
        _ ≤ ((n + 1) * |value x| + (n - 1) * |value x|) / 2 ^ 53 +
            n * (n - 1) / 2 ^ 53 * |value x| := by
          refine add_le_add_left (div_le_div_of_nonneg_right ?_ (by positivity)) _
          exact add_le_add_right rest' _
        _ = (n + 1) * (n + 1 - 1) / 2 ^ 53 * |value x| := by ring

/-- **The mean of copies of a number is off by half of the distance of two numbers for each**, and once
more for the division, if their sum is not too large. -/
theorem mean_replicate_close (finite : x.isFinite = true) (pos : 0 < n) (small : n < 2 ^ 53)
    (moderate : n * |value x| ≤ 2 ^ (1022 : ℤ)) :
    (mean (List.replicate n x)).isFinite = true ∧
      |value (mean (List.replicate n x)) - value x| ≤
        (n + 1) / 2 ^ 53 * |value x| + 2 ^ (-1075 : ℤ) := by
  obtain ⟨finite', total⟩ := close_sum_replicate finite small moderate
  obtain ⟨number, count⟩ := value_ofNat small
  have some : (1 : ℚ) ≤ n := by exact_mod_cast pos
  have few : (n : ℚ) ≤ 2 ^ 53 := by exact_mod_cast small.le
  have size : (0 : ℚ) ≤ |value x| := abs_nonneg _
  have near := nearest_div finite' number (by rw [count]; linarith)
  rw [count] at near
  rw [mean, List.length_replicate]
  generalize sum (List.replicate n x) = s at finite' total near
  have off : |value s / n - value x| ≤ (n - 1) / 2 ^ 53 * |value x| := by
    have quotient : value s / n - value x = (value s - n * value x) / n := by
      field_simp
    rw [quotient, abs_div, Nat.abs_cast, div_le_iff₀ (by linarith)]
    refine total.trans (le_of_eq ?_)
    ring
  have rest : ((n : ℚ) - 1) / 2 ^ 53 * |value x| ≤ 1 * |value x| := by
    refine mul_le_mul_of_nonneg_right ?_ size
    rw [div_le_one (by positivity)]
    linarith
  have bound : |value s / n| ≤ 2 * |value x| := by
    have apart := abs_sub_abs_le_abs_sub (value s / n) (value x)
    linarith
  have single : 1 * |value x| ≤ n * |value x| := mul_le_mul_of_nonneg_right some size
  have finite'' : (s / Float.ofNat n).isFinite = true := by
    refine isFinite_of_moderate near (bound.trans ?_)
    linarith
  refine ⟨finite'', ?_⟩
  have tiny : (0 : ℚ) ≤ 2 ^ (-1075 : ℤ) := by positivity
  calc |value (s / Float.ofNat n) - value x|
      ≤ |value (s / Float.ofNat n) - value s / n| + |value s / n - value x| := abs_sub_le _ _ _
    _ ≤ (|value s / n| / 2 ^ 53 + 2 ^ (-1075 : ℤ)) + (n - 1) / 2 ^ 53 * |value x| := by
      refine add_le_add ((near.close finite'').trans (max_le ?_ ?_)) off
      · exact le_add_of_nonneg_right tiny
      · exact le_add_of_nonneg_left (by positivity)
    _ ≤ (2 * |value x| / 2 ^ 53 + 2 ^ (-1075 : ℤ)) + (n - 1) / 2 ^ 53 * |value x| := by
      refine add_le_add_left (add_le_add_left (div_le_div_of_nonneg_right bound ?_) _) _
      positivity
    _ = (n + 1) / 2 ^ 53 * |value x| + 2 ^ (-1075 : ℤ) := by ring

end Autotune.Number
