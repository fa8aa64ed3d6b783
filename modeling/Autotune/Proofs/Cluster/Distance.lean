import Autotune.Cluster.Feature
import Autotune.Proofs.Number.Arithmetic
import Mathlib.Data.List.Zip

/-!
# Distances of clusters

Two clusters are measured against an input at once, because the normalized distance of either of
them depends on both.

* `isNaN_squaredDistance`: the plain distance of finite features is a number, so that plain
  distances can always be compared;
* `measure_swap`: it makes no difference which of the two clusters is named first.
-/

namespace Autotune

open Number

variable {origin a b : List Float}

/-- **The squared distance of finite features is a number.** -/
theorem isNaN_squaredDistance (finite : ∀ x ∈ origin, x.isFinite = true)
    (finite' : ∀ x ∈ a, x.isFinite = true) : (squaredDistance origin a).isNaN = false := by
  refine isNaN_sum fun y hy => ?_
  obtain ⟨⟨o, x⟩, member, rfl⟩ := List.mem_map.mp hy
  obtain ⟨ho, hx⟩ := List.of_mem_zip member
  exact unsigned_square (isNaN_sub (finite o ho) (finite' x hx))

/-! ### Normalized distances -/

/-- The squared difference of a coordinate and the origin, in the unit interval that these two span
together with another coordinate. -/
def scaledSquare (o x y : Float) : Float :=
  ((unitScale o x y).1 - (unitScale o x y).2.1) * ((unitScale o x y).1 - (unitScale o x y).2.1)

/-- The squared distance of `a` from the origin beside `b`. -/
def scaledDistance (origin a b : List Float) : Float :=
  Number.sum ((origin.zip (a.zip b)).map fun (o, x, y) => scaledSquare o x y)

section

variable {o x y : Float}

lemma level_unitScale_swap (ho : o.isNaN = false) (hx : x.isNaN = false) (hy : y.isNaN = false) :
    level (unitScale o y x).1 = level (unitScale o x y).1 ∧
      level (unitScale o y x).2.1 = level (unitScale o x y).2.2 := by
  have low : level (least (least o y) x) = level (least (least o x) y) := by
    rw [level_least (isNaN_least ho hy) hx, level_least ho hy,
      level_least (isNaN_least ho hx) hy, level_least ho hx]
    omega
  have high : level (greatest (greatest o y) x) = level (greatest (greatest o x) y) := by
    rw [level_greatest (isNaN_greatest ho hy) hx, level_greatest ho hy,
      level_greatest (isNaN_greatest ho hx) hy, level_greatest ho hx]
    omega
  have width := level_sub high low
  have scaled (z : Float) :
      level (if 0 < greatest (greatest o y) x - least (least o y) x then
          (z - least (least o y) x) / (greatest (greatest o y) x - least (least o y) x) else 0) =
        level (if 0 < greatest (greatest o x) y - least (least o x) y then
          (z - least (least o x) y) / (greatest (greatest o x) y - least (least o x) y)
        else 0) := by
    obtain same | ⟨s, t, zero, zero'⟩ := eq_or_zeros_of_level width
    · rw [same]
      split
      case isTrue pos => exact level_div (level_sub rfl low) pos
      case isFalse => rfl
    · rw [if_neg (not_pos_of_zero zero), if_neg (not_pos_of_zero zero')]
  exact ⟨scaled o, scaled y⟩

lemma scaledSquare_swap (ho : o.isNaN = false) (hx : x.isNaN = false) (hy : y.isNaN = false) :
    scaledSquare o y x = ((unitScale o x y).1 - (unitScale o x y).2.2) *
      ((unitScale o x y).1 - (unitScale o x y).2.2) := by
  obtain ⟨first, second⟩ := level_unitScale_swap ho hx hy
  exact square_eq (level_sub first second)

end

/-- **Each cluster has its distance beside the other.** -/
theorem measure_normalized (ho : ∀ x ∈ origin, x.isNaN = false) (ha : ∀ x ∈ a, x.isNaN = false)
    (hb : ∀ x ∈ b, x.isNaN = false) :
    FeatureDistance.normalized.measure origin a b =
      (scaledDistance origin a b, scaledDistance origin b a) := by
  have swapped : origin.zip (b.zip a) = (origin.zip (a.zip b)).map (Prod.map id Prod.swap) := by
    rw [← List.zip_swap a b, List.zip_map_right]
  have second : (origin.zip (a.zip b)).map (fun (o, x, y) =>
        ((unitScale o x y).1 - (unitScale o x y).2.2) *
          ((unitScale o x y).1 - (unitScale o x y).2.2)) =
      (origin.zip (b.zip a)).map fun (o, x, y) => scaledSquare o x y := by
    rw [swapped, List.map_map]
    refine List.map_congr_left fun ⟨o, x, y⟩ member => ?_
    obtain ⟨here, others⟩ := List.of_mem_zip member
    obtain ⟨first, other⟩ := List.of_mem_zip others
    exact (scaledSquare_swap (ho o here) (ha x first) (hb y other)).symm
  simp only [FeatureDistance.measure, squaredDistance, List.zip_map', List.map_map]
  rw [scaledDistance, scaledDistance, ← second]
  rfl

/-- **It makes no difference which of two clusters is named first.** -/
theorem measure_swap (distance : FeatureDistance) (ho : ∀ x ∈ origin, x.isNaN = false)
    (ha : ∀ x ∈ a, x.isNaN = false) (hb : ∀ x ∈ b, x.isNaN = false) :
    distance.measure origin b a = (distance.measure origin a b).swap := by
  cases distance with
  | euclidean => rfl
  | normalized => rw [measure_normalized ho hb ha, measure_normalized ho ha hb, Prod.swap_prod_mk]

end Autotune
