import Autotune.Proofs.Number.Order

/-!
# The number line

The numeric order takes the two zeros for one number.  `level` is the place of a number on the line
of numbers, where both zeros stand at `0`; below them stand the negative numbers and above them the
positive ones.

* `lt_iff_level`, `le_iff_level`: numbers are ordered as their levels are;
* `eq_or_zeros_of_level`: at one level stands one number only, the zeros apart;
* `level_least`, `level_greatest`: the smaller and the greater of two numbers.
-/

namespace Autotune.Number

open Float.Model.UnpackedFloat (Sign)

variable {a b x : Float}

/-- The place of a number on the line of numbers. -/
def level (x : Float) : Int := if totalKey x < 0 then totalKey x + 1 else totalKey x

lemma sized_level (h : x.isNaN = false) :
    ∃ s n, Sized x.toModel.unpack s n ∧ level x = s.apply n := by
  obtain ⟨s, n, sized, key⟩ := sized_unpack x h
  refine ⟨s, n, sized, ?_⟩
  rw [level, key]
  cases s with
  | positive => simp only [place, Sign.apply]; omega
  | negative => simp only [place, Sign.apply]; omega

/-! ### The numeric order -/

theorem lt_iff_level (ha : a.isNaN = false) (hb : b.isNaN = false) : a < b ↔ level a < level b := by
  obtain ⟨s, m, sized, here⟩ := sized_level ha
  obtain ⟨t, n, sized', there⟩ := sized_level hb
  rw [lt_iff_compare, sized.compare_eq sized', Option.some_inj, Int.compare_eq_lt, here, there]

theorem le_iff_level (ha : a.isNaN = false) (hb : b.isNaN = false) : a ≤ b ↔ level a ≤ level b := by
  obtain ⟨s, m, sized, here⟩ := sized_level ha
  obtain ⟨t, n, sized', there⟩ := sized_level hb
  have order : a ≤ b ↔ (a.toModel.unpack.compare b.toModel.unpack).any (·.isLE) = true := by
    show (decide (Float.Model.UnpackedFloat.le _ _ = true)) = true ↔ _
    rw [decide_eq_true_iff]
    rfl
  rw [order, sized.compare_eq sized', here, there, Option.any_some, Int.isLE_compare]

lemma lt_asymm (h : a < b) : ¬ b < a := by
  obtain ⟨ha, hb⟩ := not_isNaN_of_lt h
  rw [lt_iff_level ha hb] at h
  rw [lt_iff_level hb ha]
  omega

/-- **At one level stands one number, or the two zeros.** -/
theorem eq_or_zeros_of_level (h : level a = level b) :
    a = b ∨ ∃ s t, a.toModel.unpack = .zero s ∧ b.toModel.unpack = .zero t := by
  have zero {x : Float} (key : totalKey x = 0 ∨ totalKey x = -1) :
      ∃ s, x.toModel.unpack = .zero s := by
    obtain key | key := key
    · obtain rfl : x = 0.0 := totalKey_injective (key.trans (by decide))
      exact ⟨.positive, rfl⟩
    · obtain rfl : x = -0.0 := totalKey_injective (key.trans (by decide))
      exact ⟨.negative, rfl⟩
  by_cases same : totalKey a = totalKey b
  · exact .inl (totalKey_injective same)
  · have keys : (totalKey a = 0 ∨ totalKey a = -1) ∧ (totalKey b = 0 ∨ totalKey b = -1) := by
      simp only [level] at h
      split at h <;> split at h <;> omega
    obtain ⟨s, hs⟩ := zero keys.1
    obtain ⟨t, ht⟩ := zero keys.2
    exact .inr ⟨s, t, hs, ht⟩

lemma not_pos_of_zero {s : Sign} (zero : x.toModel.unpack = .zero s) : ¬ 0 < x := by
  intro pos
  have origin : (0 : Float).toModel.unpack = .zero .positive := rfl
  rw [lt_iff_compare, origin, zero] at pos
  cases pos

/-! ### The smaller and the greater number -/

lemma isNaN_least (ha : a.isNaN = false) (hb : b.isNaN = false) : (least a b).isNaN = false := by
  unfold least
  split_ifs <;> assumption

lemma isNaN_greatest (ha : a.isNaN = false) (hb : b.isNaN = false) :
    (greatest a b).isNaN = false := by
  unfold greatest
  split_ifs <;> assumption

lemma level_least (ha : a.isNaN = false) (hb : b.isNaN = false) :
    level (least a b) = min (level a) (level b) := by
  simp only [least, ha, Bool.false_eq_true, if_false]
  split
  case isTrue below =>
    have below := (le_iff_level hb ha).mp below
    omega
  case isFalse above =>
    have above := mt (le_iff_level hb ha).mpr above
    omega

lemma level_greatest (ha : a.isNaN = false) (hb : b.isNaN = false) :
    level (greatest a b) = max (level a) (level b) := by
  simp only [greatest, ha, Bool.false_eq_true, if_false]
  split
  case isTrue below =>
    have below := (le_iff_level ha hb).mp below
    omega
  case isFalse above =>
    have above := mt (le_iff_level ha hb).mpr above
    omega

end Autotune.Number
