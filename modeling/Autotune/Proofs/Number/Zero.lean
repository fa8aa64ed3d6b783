import Autotune.Proofs.Number.Product
import Autotune.Proofs.Number.Value

/-!
# Adding nothing

A finite multiple of zero is a zero (`mul_of_zero`), and a zero that is added changes nothing but
the sign of a zero, so the sum stays at the `level` of the other number (`level_add_of_zero`).
Numbers at one level compare alike (`lt_of_level`, `le_of_level`).

Next to a finite number, a sum is NaN only if the other number is (`isNaN_add`).
-/

namespace Autotune.Number

open Float.Model (Format UnpackedFloat)
open Float.Model.UnpackedFloat

variable {a b c d k x z : Float}

/-! ### Finite numbers -/

lemma isInf_of_isFinite (h : x.isFinite = true) : x.isInf = false := by
  have finite : x.toModel.unpack.isFinite = true := h
  rw [← Bool.not_eq_true, isInf_iff]
  rintro ⟨s, infinite⟩
  rw [infinite] at finite
  cases finite

lemma isFinite_of_isInf (number : x.isNaN = false) (h : x.isInf = false) : x.isFinite = true := by
  have number : x.toModel.unpack.isNaN = false := number
  have bounded : x.toModel.unpack.isInf = false := h
  show x.toModel.unpack.isFinite = true
  generalize x.toModel.unpack = u at number bounded
  cases u with
  | notANumber => cases number
  | infinity => cases bounded
  | zero | finite => rfl

/-! ### Numbers at one level -/

lemma isNaN_of_level (h : level a = level b) : a.isNaN = b.isNaN := by
  obtain rfl | ⟨s, t, ha, hb⟩ := eq_or_zeros_of_level h
  · rfl
  · show a.toModel.unpack.isNaN = b.toModel.unpack.isNaN
    rw [ha, hb]
    rfl

lemma beq_of_level (h : level a = level b) (number : b.isNaN = false) : (a == b) = true := by
  have number' : a.isNaN = false := (isNaN_of_level h).trans number
  obtain ⟨s, m, sized, place⟩ := sized_level number'
  obtain ⟨t, n, sized', place'⟩ := sized_level number
  have same : compare (s.apply m) (t.apply n) = .eq := by
    rw [← place, ← place', h]
    exact Int.compare_eq_eq.mpr rfl
  show (a.toModel.unpack.compare b.toModel.unpack == some .eq) = true
  rw [sized.compare_eq sized', same]
  rfl

lemma not_isNaN_of_le (h : a ≤ b) : a.isNaN = false ∧ b.isNaN = false := by
  have order : (a.toModel.unpack.compare b.toModel.unpack).any (·.isLE) = true := by
    have le : decide (UnpackedFloat.le a.toModel.unpack b.toModel.unpack = true) = true := h
    exact of_decide_eq_true le
  show a.toModel.unpack.isNaN = false ∧ b.toModel.unpack.isNaN = false
  generalize a.toModel.unpack = u at order
  generalize b.toModel.unpack = v at order
  cases u with
  | notANumber => cases order
  | _ =>
    cases v with
    | notANumber => cases order
    | _ => exact ⟨rfl, rfl⟩

lemma lt_of_level (left : level a = level b) (right : level c = level d) : a < c ↔ b < d := by
  have forward {a b c d : Float} (left : level a = level b) (right : level c = level d)
      (h : a < c) : b < d := by
    obtain ⟨ha, hc⟩ := not_isNaN_of_lt h
    rw [lt_iff_level ha hc, left, right] at h
    exact (lt_iff_level ((isNaN_of_level left).symm.trans ha)
      ((isNaN_of_level right).symm.trans hc)).mpr h
  exact ⟨forward left right, forward left.symm right.symm⟩

lemma le_of_level (left : level a = level b) (right : level c = level d) : a ≤ c ↔ b ≤ d := by
  have forward {a b c d : Float} (left : level a = level b) (right : level c = level d)
      (h : a ≤ c) : b ≤ d := by
    obtain ⟨ha, hc⟩ := not_isNaN_of_le h
    rw [le_iff_level ha hc, left, right] at h
    exact (le_iff_level ((isNaN_of_level left).symm.trans ha)
      ((isNaN_of_level right).symm.trans hc)).mpr h
  exact ⟨forward left right, forward left.symm right.symm⟩

lemma abs_of_level (h : level a = level b) : a.abs = b.abs := by
  obtain rfl | ⟨s, t, ha, hb⟩ := eq_or_zeros_of_level h
  · rfl
  · show Float.ofModel (.pack a.toModel.unpack.abs) = .ofModel (.pack b.toModel.unpack.abs)
    rw [ha, hb]
    cases s <;> cases t <;> rfl

lemma level_div_of_ne (h : level a = level b) (nonzero : (c == 0) = false) :
    level (a / c) = level (b / c) := by
  refine ((like_of_level h).div fun s zero => ?_).level_pack
  rw [(beq_zero_iff c).mpr ⟨s, zero⟩] at nonzero
  cases nonzero

/-! ### Zeros -/

lemma unpack_pack_zero (s : Sign) : unpack .binary64 (pack .binary64 (.zero s)) = .zero s := by
  cases s <;> rfl

/-- **A finite multiple of zero is a zero.** -/
theorem mul_of_zero (zero : (k == 0) = true) (finite : d.isFinite = true) :
    (k * d == 0) = true := by
  obtain ⟨s, zero⟩ := (beq_zero_iff k).mp zero
  have finite : d.toModel.unpack.isFinite = true := finite
  have product : (k * d).toModel.unpack =
      unpack .binary64 (pack .binary64 (mul .binary64 k.toModel.unpack d.toModel.unpack)) := rfl
  rw [beq_zero_iff, product, zero]
  generalize d.toModel.unpack = u at finite
  cases u with
  | notANumber | infinity => cases finite
  | zero t | finite t => exact ⟨s * t, unpack_pack_zero _⟩

/-- **A zero that is added changes nothing but the sign of a zero.** -/
theorem level_add_of_zero (zero : (z == 0) = true) : level (x + z) = level x := by
  obtain ⟨s, zero⟩ := (beq_zero_iff z).mp zero
  have sum : x + z = .ofModel (.pack (add .binary64 x.toModel.unpack (.zero s))) := by
    rw [← zero]
    rfl
  have like : Like (add .binary64 x.toModel.unpack (.zero s)) x.toModel.unpack := by
    cases x.toModel.unpack with
    | zero t => exact .inr (by cases t <;> cases s <;> exact ⟨_, _, rfl, rfl⟩)
    | notANumber | infinity | finite => exact .inl rfl
  rw [sum, like.level_pack, pack_unpack]

lemma add_one_of_level (h : level a = level b) : a + 1 = b + 1 := by
  obtain rfl | ⟨s, t, ha, hb⟩ := eq_or_zeros_of_level h
  · rfl
  · show Float.ofModel (.pack (add .binary64 a.toModel.unpack (1 : Float).toModel.unpack)) =
      .ofModel (.pack (add .binary64 b.toModel.unpack (1 : Float).toModel.unpack))
    rw [ha, hb]
    rfl

lemma mul_eq_of_zero (zero : (k == 0) = true) (finite : c.isFinite = true)
    (finite' : d.isFinite = true) (sign : sign? c.toModel.unpack = sign? d.toModel.unpack) :
    k * c = k * d := by
  obtain ⟨s, zero⟩ := (beq_zero_iff k).mp zero
  have product {u : UnpackedFloat} (finite : u.isFinite = true) :
      ∃ t, sign? u = some t ∧ mul .binary64 (.zero s) u = .zero (s * t) := by
    cases u with
    | notANumber | infinity => cases finite
    | zero t | finite t => exact ⟨t, rfl, rfl⟩
  obtain ⟨t, signC, left⟩ := product (u := c.toModel.unpack) finite
  obtain ⟨t', signD, right⟩ := product (u := d.toModel.unpack) finite'
  obtain rfl : t = t' := Option.some_inj.mp (signC.symm.trans (sign.trans signD))
  show Float.ofModel (.pack (mul .binary64 k.toModel.unpack c.toModel.unpack)) =
    .ofModel (.pack (mul .binary64 k.toModel.unpack d.toModel.unpack))
  rw [zero, left, right]

/-! ### Sums that are NaN -/

/-- **Next to a finite number, a sum is NaN only if the other number is.** -/
theorem isNaN_add (finite : a.isFinite = true) (b : Float) : (a + b).isNaN = b.isNaN := by
  have finite : a.toModel.unpack.isFinite = true := finite
  have sum : (sign? (add .binary64 a.toModel.unpack b.toModel.unpack)).isNone =
      (sign? b.toModel.unpack).isNone := by
    generalize a.toModel.unpack = u at finite
    cases u with
    | notANumber | infinity => cases finite
    | zero s =>
      cases b.toModel.unpack with
      | zero t => cases s <;> cases t <;> rfl
      | notANumber | infinity | finite => rfl
    | finite s m e pos =>
      cases b.toModel.unpack with
      | finite t n f pos' =>
        refine (Option.isNone_eq_false_iff.mpr ?_).trans rfl
        exact isSome_sign?_normalize ..
      | notANumber | infinity | zero => rfl
  rw [isNaN_eq_isNone b, ← sum, ← sign?_pack, isNaN_eq_isNone]
  rfl

end Autotune.Number
