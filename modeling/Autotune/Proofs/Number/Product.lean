import Autotune.Proofs.Number.Arithmetic
import Mathlib.Data.List.Induction

/-!
# When a product is a number

A product of two numbers is a number, unless one of them is infinite and the other one is zero
(`isNaN_mul_iff`).  A long product is taken from left to right, and a partial product may overflow to
infinity or vanish on the way; so a product of numbers is NaN exactly when that happens before a
factor of the other kind (`isNaN_product_iff`).
-/

namespace Autotune.Number

open Float.Model (Format UnpackedFloat)
open Float.Model.UnpackedFloat

variable {a b x : Float} {xs : List Float}

/-- Of the two factors, one is infinite and the other one is zero. -/
def Clash (a b : Float) : Prop :=
  a.isInf = true ∧ (b == 0) = true ∨ (a == 0) = true ∧ b.isInf = true

instance : Decidable (Clash a b) :=
  inferInstanceAs (Decidable (a.isInf = true ∧ (b == 0) = true ∨ (a == 0) = true ∧ b.isInf = true))

lemma isInf_iff (x : Float) : x.isInf = true ↔ ∃ s, x.toModel.unpack = .infinity s := by
  show x.toModel.unpack.isInf = true ↔ _
  cases x.toModel.unpack with
  | infinity s => exact ⟨fun _ => ⟨s, rfl⟩, fun _ => rfl⟩
  | notANumber | zero | finite => exact ⟨nofun, nofun⟩

lemma beq_zero_iff (x : Float) : (x == 0) = true ↔ ∃ s, x.toModel.unpack = .zero s := by
  have origin : (0 : Float).toModel.unpack = .zero .positive := rfl
  show (x.toModel.unpack.compare (0 : Float).toModel.unpack == some .eq) = true ↔ _
  rw [origin]
  cases x.toModel.unpack with
  | zero s => exact ⟨fun _ => ⟨s, rfl⟩, fun _ => rfl⟩
  | notANumber => exact ⟨nofun, nofun⟩
  | infinity s => cases s <;> exact ⟨nofun, nofun⟩
  | finite s => cases s <;> exact ⟨nofun, nofun⟩

lemma clash_iff (a b : Float) :
    Clash a b ↔
      (∃ s t, a.toModel.unpack = .infinity s ∧ b.toModel.unpack = .zero t) ∨
        ∃ s t, a.toModel.unpack = .zero s ∧ b.toModel.unpack = .infinity t := by
  simp only [Clash, isInf_iff, beq_zero_iff, exists_and_left, exists_and_right]

/-- Unpacked numbers have a product, unless zero meets infinity. -/
lemma sign?_mul_eq_none (spec : Format) {u v : UnpackedFloat} (hu : sign? u ≠ none)
    (hv : sign? v ≠ none) :
    sign? (mul spec u v) = none ↔
      (∃ s t, u = .infinity s ∧ v = .zero t) ∨ ∃ s t, u = .zero s ∧ v = .infinity t := by
  cases u with
  | notANumber => exact absurd rfl hu
  | infinity s =>
    cases v with
    | notANumber => exact absurd rfl hv
    | zero t => exact ⟨fun _ => .inl ⟨s, t, rfl, rfl⟩, fun _ => rfl⟩
    | infinity | finite => exact ⟨nofun, by rintro (⟨_, _, -, ⟨⟩⟩ | ⟨_, _, ⟨⟩, -⟩)⟩
  | zero s =>
    cases v with
    | notANumber => exact absurd rfl hv
    | infinity t => exact ⟨fun _ => .inr ⟨s, t, rfl, rfl⟩, fun _ => rfl⟩
    | zero | finite => exact ⟨nofun, by rintro (⟨_, _, ⟨⟩, -⟩ | ⟨_, _, -, ⟨⟩⟩)⟩
  | finite s m e =>
    cases v with
    | notANumber => exact absurd rfl hv
    | infinity | zero => exact ⟨nofun, by rintro (⟨_, _, ⟨⟩, -⟩ | ⟨_, _, ⟨⟩, -⟩)⟩
    | finite t m' e' =>
      refine ⟨fun none => ?_, by rintro (⟨_, _, ⟨⟩, -⟩ | ⟨_, _, ⟨⟩, -⟩)⟩
      have some := sign?_roundWithAccuracy spec (s * t) (m * m') (e + e') .exact
      cases some.symm.trans none

lemma isNaN_iff (x : Float) : x.isNaN = true ↔ sign? x.toModel.unpack = none := by
  rw [isNaN_eq_isNone, Option.isNone_iff_eq_none]

/-- **A product of two numbers is NaN exactly when zero meets infinity.** -/
theorem isNaN_mul_iff (ha : a.isNaN = false) (hb : b.isNaN = false) :
    (a * b).isNaN = true ↔ Clash a b := by
  rw [← Bool.not_eq_true, isNaN_iff] at ha hb
  rw [clash_iff, ← sign?_mul_eq_none .binary64 ha hb, ← sign?_pack, isNaN_iff]
  rfl

lemma isNaN_mul_left (ha : a.isNaN = true) (b : Float) : (a * b).isNaN = true := by
  rw [isNaN_iff] at ha ⊢
  have absorbs : sign? (mul .binary64 a.toModel.unpack b.toModel.unpack) = none := by
    generalize a.toModel.unpack = u at ha
    cases u with
    | notANumber => rfl
    | infinity | zero | finite => cases ha
  rw [← sign?_pack] at absorbs
  exact absorbs

lemma product_concat (xs : List Float) (x : Float) : product (xs ++ [x]) = product xs * x :=
  List.foldl_append

/-- **A product of numbers is NaN exactly when a partial product meets a factor with which it has
none.** -/
theorem isNaN_product_iff (numbers : ∀ x ∈ xs, x.isNaN = false) :
    (product xs).isNaN = true ↔ ∃ before x, before ++ [x] <+: xs ∧ Clash (product before) x := by
  induction xs using List.reverseRecOn with
  | nil =>
    have one : (product []).isNaN = false := by decide +kernel
    rw [one]
    simp
  | append_singleton xs x ih =>
    have ih := ih fun y hy => numbers y (List.mem_append_left _ hy)
    have last : x.isNaN = false := numbers x (by simp)
    rw [product_concat]
    cases earlier : (product xs).isNaN with
    | true =>
      obtain ⟨before, y, start, clash⟩ := ih.mp earlier
      have start' : before ++ [y] <+: xs ++ [x] := start.trans (List.prefix_append ..)
      simp only [isNaN_mul_left earlier, true_iff]
      exact ⟨before, y, start', clash⟩
    | false =>
      rw [isNaN_mul_iff earlier last]
      constructor
      · exact fun clash => ⟨xs, x, List.prefix_rfl, clash⟩
      · rintro ⟨before, y, start, clash⟩
        obtain whole | start := List.prefix_concat_iff.mp start
        · obtain ⟨rfl, same⟩ := List.append_inj' whole rfl
          obtain rfl := List.singleton_inj.mp same
          exact clash
        · rw [ih.mpr ⟨before, y, start, clash⟩] at earlier
          cases earlier

end Autotune.Number
