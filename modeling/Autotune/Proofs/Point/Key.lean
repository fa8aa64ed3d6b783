import Autotune.Point.Basic
import Autotune.Proofs.Number.Text
import Mathlib.Data.List.Forall2

/-!
# Keys made of numbers

The names in a key have no comma, so the key of a row of known length gives them back, and a name
tells its number apart from all others.

* `key_eq_iff`: two rows of one length have one key when they are the same up to the sign of zeros;
* `key_eq_iff_forall₂`: that is, unless there is a NaN, when their numbers are equal.
-/

namespace Autotune

open Number
open Float.Model.UnpackedFloat (Sign)

section

variable {render : Float → String} {xs ys : List Float}

/-- Names without commas are found again between the commas of a key. -/
lemma map_of_keyWith (plain : ∀ x, ',' ∉ (render x).toList) (length : xs.length = ys.length)
    (same : keyWith render xs = keyWith render ys) :
    xs.map (fun x => render (unsignedZero x)) = ys.map fun x => render (unsignedZero x) := by
  have split (zs : List Float) (some : zs ≠ []) :
      ((keyWith render zs).split ',').toList.map (·.copy) =
        zs.map fun x => render (unsignedZero x) := by
    have names : ∀ s ∈ zs.map (fun x => render (unsignedZero x)), ',' ∉ s.toList := by
      simp [plain]
    have parts := String.toList_split_intercalate names
    rw [if_neg (by simpa using some)] at parts
    exact parts
  cases xs with
  | nil =>
    obtain rfl := List.length_eq_zero_iff.mp length.symm
    rfl
  | cons x xs =>
    rw [← split (x :: xs) (by simp), same, split ys (by rintro rfl; cases length)]

end

/-- **Keys of rows of one length tell the rows apart, up to the sign of zeros.** -/
theorem key_eq_iff {xs ys : List Float} (length : xs.length = ys.length) :
    key xs = key ys ↔ xs.map unsignedZero = ys.map unsignedZero := by
  constructor
  · intro same
    have names := map_of_keyWith comma_notMem_text length same
    refine List.map_injective_iff.mpr (fun _ _ => text_injective) ?_
    rwa [List.map_map, List.map_map]
  · intro same
    have names := congrArg (List.map text) same
    rw [List.map_map, List.map_map] at names
    exact congrArg (String.intercalate ",") names

lemma unsignedZero_of_sized {x : Float} {s : Sign} {n : Nat} (h : Sized x.toModel.unpack s n) :
    unsignedZero x = if n = 0 then 0 else x := by
  have zero : Sized (0 : Float).toModel.unpack .positive 0 := .zero .positive
  have iff : (x == 0) = true ↔ n = 0 := by
    rw [beq_iff h zero]
    cases s <;> simp [Sign.apply]
  simp only [unsignedZero, iff]

lemma isNaN_unsignedZero (x : Float) : (unsignedZero x).isNaN = x.isNaN := by
  unfold unsignedZero
  split
  case isTrue zero =>
    have number : x.isNaN = false := by
      by_contra nan
      rw [beq_of_isNaN (Bool.eq_true_of_not_eq_false nan)] at zero
      cases zero
    rw [number]
    rfl
  case isFalse => rfl

/-- **Numbers are equal just when they are the same up to the sign of zeros.** -/
theorem unsignedZero_eq_iff {x y : Float} (hy : y.isNaN = false) :
    unsignedZero x = unsignedZero y ↔ (x == y) = true := by
  cases hx : x.isNaN with
  | true =>
    rw [beq_of_isNaN hx]
    refine iff_of_false (fun same => ?_) Bool.false_ne_true
    rw [← isNaN_unsignedZero, same, isNaN_unsignedZero, hy] at hx
    cases hx
  | false =>
    obtain ⟨s, m, sized, key⟩ := sized_unpack x hx
    obtain ⟨t, n, sized', key'⟩ := sized_unpack y hy
    have zero : totalKey 0 = 0 := by decide +kernel
    have eq_iff (a b : Float) : a = b ↔ totalKey a = totalKey b :=
      ⟨congrArg totalKey, totalKey_injective⟩
    rw [beq_iff sized sized', unsignedZero_of_sized sized, unsignedZero_of_sized sized', eq_iff]
    split <;> split <;> simp only [zero, key, key'] <;> cases s <;> cases t <;>
      simp only [place, Sign.apply, true_iff] <;> omega

/-- **Two rows have one key when their numbers are equal.**  One of them has no NaN. -/
theorem key_eq_iff_forall₂ {xs ys : List Float} (length : xs.length = ys.length)
    (numbers : ∀ y ∈ ys, y.isNaN = false) :
    key xs = key ys ↔ List.Forall₂ (fun x y => (x == y) = true) xs ys := by
  rw [key_eq_iff length]
  induction xs generalizing ys with
  | nil =>
    obtain rfl := List.length_eq_zero_iff.mp length.symm
    simp
  | cons x xs ih =>
    cases ys with
    | nil => cases length
    | cons y ys =>
      rw [List.forall_mem_cons] at numbers
      rw [List.map_cons, List.map_cons, List.cons_eq_cons, List.forall₂_cons,
        unsignedZero_eq_iff numbers.1, ih (Nat.succ.inj length) numbers.2]

end Autotune
