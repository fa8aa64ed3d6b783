import Autotune.Number.Binary
import Mathlib.Algebra.Ring.Int.Defs
import Mathlib.Algebra.Ring.Nat
import Mathlib.Tactic.Lemma

/-!
# The total order of numbers

A number that is not NaN has a sign and a size, a natural number that grows with the absolute value
(`sized_unpack`).  Both orders on numbers can be read off these two: the numeric order compares the
signed sizes, so it takes the two zeros for one (`Sized.compare_eq`), and the total order compares
places, at which the negative zero comes just before the positive one.

* `compareTotal_of_lt`: what is numerically smaller comes first in the total order;
* `totalKey_injective`: the total order holds no two different numbers equal.
-/

namespace Autotune.Number

open Float.Model (Format UnpackedFloat)
open Float.Model.UnpackedFloat (Sign unpackMantissa unpackExponent unpackSign)

/-! ### Sizes -/

/-- The sign and the size of an unpacked number: the size is the bit pattern without its sign. -/
inductive Sized : UnpackedFloat → Sign → Nat → Prop
  | infinity (s : Sign) : Sized (.infinity s) s (2047 * 2 ^ 52)
  | zero (s : Sign) : Sized (.zero s) s 0
  | finite (s : Sign) (m k : Nat) (pos : 0 < m) (hm : m < 2 ^ 53) (hk : k ≤ 2045)
      (normal : k = 0 ∨ 2 ^ 52 ≤ m) :
      Sized (.finite s m ((k : Int) - 1074) pos) s (k * 2 ^ 52 + m)

/-- The place of a sign and a size in the total order. -/
def place : Sign → Nat → Int
  | .positive, size => size
  | .negative, size => -1 - size

/-- Comparing exponents before significands compares the sizes. -/
lemma compare_size {m m' k k' : Nat} (hm : m < 2 ^ 53) (hm' : m' < 2 ^ 53)
    (normal : k = 0 ∨ 2 ^ 52 ≤ m) (normal' : k' = 0 ∨ 2 ^ 52 ≤ m') :
    (compare ((k : Int) - 1074) ((k' : Int) - 1074)).then (compare m m') =
      compare (k * 2 ^ 52 + m) (k' * 2 ^ 52 + m') := by
  obtain h | rfl | h := Nat.lt_trichotomy k k'
  · have exponents : compare ((k : Int) - 1074) ((k' : Int) - 1074) = .lt := by
      rw [Int.compare_eq_lt]; omega
    have sizes : compare (k * 2 ^ 52 + m) (k' * 2 ^ 52 + m') = .lt := by
      rw [Nat.compare_eq_lt]; omega
    rw [exponents, sizes, Ordering.lt_then]
  · have exponents : compare ((k : Int) - 1074) ((k : Int) - 1074) = .eq := by
      rw [Int.compare_eq_eq]
    rw [exponents, Ordering.eq_then]
    obtain h | rfl | h := Nat.lt_trichotomy m m'
    · rw [Nat.compare_eq_lt.mpr h, Nat.compare_eq_lt.mpr (by omega)]
    · rw [Nat.compare_eq_eq.mpr rfl, Nat.compare_eq_eq.mpr rfl]
    · rw [Nat.compare_eq_gt.mpr h, Nat.compare_eq_gt.mpr (by omega)]
  · have exponents : compare ((k : Int) - 1074) ((k' : Int) - 1074) = .gt := by
      rw [Int.compare_eq_gt]; omega
    have sizes : compare (k * 2 ^ 52 + m) (k' * 2 ^ 52 + m') = .gt := by
      rw [Nat.compare_eq_gt]; omega
    rw [exponents, sizes, Ordering.gt_then]

lemma compare_neg (a b : Int) : compare (-a) (-b) = compare b a := by
  obtain h | rfl | h := Int.lt_trichotomy a b
  · rw [Int.compare_eq_gt.mpr h, Int.compare_eq_gt.mpr (by omega)]
  · rw [Int.compare_eq_eq.mpr rfl, Int.compare_eq_eq.mpr rfl]
  · rw [Int.compare_eq_lt.mpr h, Int.compare_eq_lt.mpr (by omega)]

lemma compare_natCast (a b : Nat) : compare (a : Int) (b : Int) = compare a b := by
  obtain h | rfl | h := Nat.lt_trichotomy a b
  · rw [Nat.compare_eq_lt.mpr h, Int.compare_eq_lt.mpr (by omega)]
  · rw [Nat.compare_eq_eq.mpr rfl, Int.compare_eq_eq.mpr rfl]
  · rw [Nat.compare_eq_gt.mpr h, Int.compare_eq_gt.mpr (by omega)]

/-- **Numbers are compared by their signed sizes.** -/
theorem Sized.compare_eq {u v : UnpackedFloat} {s t : Sign} {m n : Nat} (hu : Sized u s m)
    (hv : Sized v t n) : u.compare v = some (compare (s.apply m) (t.apply n)) := by
  have below {a b : Int} (h : a < b) : some Ordering.lt = some (compare a b) := by
    rw [Int.compare_eq_lt.mpr h]
  have above {a b : Int} (h : b < a) : some Ordering.gt = some (compare a b) := by
    rw [Int.compare_eq_gt.mpr h]
  have same {a b : Int} (h : a = b) : some Ordering.eq = some (compare a b) := by
    rw [Int.compare_eq_eq.mpr h]
  cases hu with
  | infinity =>
    cases s with
    | negative =>
      cases hv with
      | infinity => cases t <;> rfl
      | zero => cases t <;> exact below (by decide)
      | finite => cases t <;> exact below (by simp only [Sign.apply]; omega)
    | positive =>
      cases hv with
      | infinity => cases t <;> rfl
      | zero => cases t <;> exact above (by decide)
      | finite => cases t <;> exact above (by simp only [Sign.apply]; omega)
  | zero =>
    cases hv with
    | infinity =>
      cases t with
      | negative => cases s <;> exact above (by decide)
      | positive => cases s <;> exact below (by decide)
    | zero => cases s <;> cases t <;> rfl
    | finite =>
      cases t with
      | negative => cases s <;> exact above (by simp only [Sign.apply]; omega)
      | positive => cases s <;> exact below (by simp only [Sign.apply]; omega)
  | finite _ m k pos hm hk normal =>
    cases hv with
    | infinity =>
      cases t with
      | negative => cases s <;> exact above (by simp only [Sign.apply]; omega)
      | positive => cases s <;> exact below (by simp only [Sign.apply]; omega)
    | zero =>
      cases s with
      | negative => cases t <;> exact below (by simp only [Sign.apply]; omega)
      | positive => cases t <;> exact above (by simp only [Sign.apply]; omega)
    | finite _ m' k' pos' hm' hk' normal' =>
      have sizes := compare_size hm hm' normal normal'
      cases s with
      | negative =>
        cases t with
        | negative =>
          show some ((compare ((k : Int) - 1074) ((k' : Int) - 1074)).then (compare m m')).swap = _
          simp only [Sign.apply, sizes, compare_neg, compare_natCast, Nat.compare_swap]
        | positive => exact below (by simp only [Sign.apply]; omega)
      | positive =>
        cases t with
        | negative => exact above (by simp only [Sign.apply]; omega)
        | positive =>
          show some ((compare ((k : Int) - 1074) ((k' : Int) - 1074)).then (compare m m')) = _
          simp only [Sign.apply, sizes, compare_natCast]

/-! ### The fields of a bit pattern -/

lemma toNat_unpackMantissa (b : BitVec Format.binary64.numBits) :
    (unpackMantissa b).toNat = b.toNat % 2 ^ 52 := by
  simp [unpackMantissa, BitVec.extractLsb_toNat]

lemma toNat_unpackExponent (b : BitVec Format.binary64.numBits) :
    (unpackExponent b).toNat = b.toNat / 2 ^ 52 % 2 ^ 11 := by
  simp [unpackExponent, BitVec.extractLsb_toNat, Nat.shiftRight_eq_div_pow]

lemma toNat_unpackSign (b : BitVec Format.binary64.numBits) :
    (unpackSign b).toNat = b.toNat / 2 ^ 63 := by
  have bound : b.toNat < 2 ^ 64 := b.isLt
  unfold unpackSign
  simp [BitVec.extractLsb_toNat, Nat.shiftRight_eq_div_pow]
  omega

lemma place_eq (b : BitVec Format.binary64.numBits) :
    place (Sign.ofBitVec (unpackSign b)) (b.toNat % 2 ^ 63) =
      if b.toNat < 2 ^ 63 then (b.toNat : Int) else 2 ^ 63 - 1 - b.toNat := by
  have bound : b.toNat < 2 ^ 64 := b.isLt
  have sign := toNat_unpackSign b
  unfold Sign.ofBitVec
  by_cases h : b.toNat < 2 ^ 63
  · rw [if_pos h, if_pos (BitVec.eq_of_toNat_eq (by rw [sign]; simp; omega))]
    simp only [place]
    omega
  · have negative : unpackSign b ≠ 0#1 := by
      intro zero
      rw [zero] at sign
      simp at sign
      omega
    rw [if_neg h, if_neg negative]
    simp only [place]
    omega

lemma sized_of_eq {u : UnpackedFloat} {s : Sign} {n m k : Nat} {e : Int} {pos : 0 < m}
    (unpacked : u = .finite s m e pos) (exponent : e = k - 1074) (size : n = k * 2 ^ 52 + m)
    (hm : m < 2 ^ 53) (hk : k ≤ 2045) (normal : k = 0 ∨ 2 ^ 52 ≤ m) : Sized u s n := by
  subst unpacked exponent size
  exact .finite s m k pos hm hk normal

lemma sized_unpack_bits (b : BitVec Format.binary64.numBits)
    (h : (UnpackedFloat.unpack Format.binary64 b).isNaN = false) :
    Sized (UnpackedFloat.unpack Format.binary64 b) (Sign.ofBitVec (unpackSign b))
      (b.toNat % 2 ^ 63) := by
  have mantissa := toNat_unpackMantissa b
  have exponent := toNat_unpackExponent b
  have bound : b.toNat < 2 ^ 64 := b.isLt
  have bias : ((Format.binary64.exponentBias : Nat) : Int) = 1023 := rfl
  unfold UnpackedFloat.unpack at h ⊢
  dsimp only at h ⊢
  by_cases ones : unpackExponent b = -1#_
  · by_cases fraction : unpackMantissa b = 0#_
    · have size : b.toNat % 2 ^ 63 = 2047 * 2 ^ 52 := by
        rw [ones] at exponent
        rw [fraction] at mantissa
        simp at exponent mantissa
        omega
      rw [if_pos ones, if_pos fraction, size]
      exact .infinity _
    · rw [if_pos ones, if_neg fraction] at h
      cases h
  · have notOnes : b.toNat / 2 ^ 52 % 2 ^ 11 ≠ 2047 := by
      rw [← exponent]
      exact fun all => ones (BitVec.eq_of_toNat_eq all)
    by_cases zeros : unpackExponent b = 0#_
    · by_cases fraction : unpackMantissa b = 0#_
      · have size : b.toNat % 2 ^ 63 = 0 := by
          rw [zeros] at exponent
          rw [fraction] at mantissa
          simp at exponent mantissa
          omega
        rw [if_neg ones, if_pos zeros, dif_pos fraction, size]
        exact .zero _
      · -- a subnormal number has the exponent of the least normal ones
        rw [zeros] at exponent
        rw [if_neg ones, if_pos zeros, dif_neg fraction]
        refine sized_of_eq (k := 0) rfl ?_ ?_ ?_ (by omega) (.inl rfl)
        · rw [zeros, bias]
          rfl
        · simp at exponent
          omega
        · omega
    · have notZeros : b.toNat / 2 ^ 52 % 2 ^ 11 ≠ 0 := by
        rw [← exponent]
        exact fun none => zeros (BitVec.eq_of_toNat_eq none)
      rw [if_neg ones, if_neg zeros]
      have implicit : (1#1 ++ unpackMantissa b).toNat = 2 ^ 52 + (unpackMantissa b).toNat := by
        rw [BitVec.toNat_append, ← Nat.shiftLeft_add_eq_or_of_lt (unpackMantissa b).isLt]
        rfl
      refine sized_of_eq (k := b.toNat / 2 ^ 52 % 2 ^ 11 - 1) rfl ?_ ?_ ?_ (by omega) (.inr ?_)
      · rw [exponent, bias]
        omega
      · omega
      · omega
      · omega

/-- **A number that is not NaN has a sign and a size.** -/
theorem sized_unpack (x : Float) (h : x.isNaN = false) :
    ∃ s n, Sized x.toModel.unpack s n ∧ totalKey x = place s n := by
  refine ⟨_, _, sized_unpack_bits x.toModel.toBits.toBitVec h, ?_⟩
  rw [place_eq]
  rfl

/-! ### The two orders -/

lemma lt_iff_compare {a b : Float} :
    a < b ↔ a.toModel.unpack.compare b.toModel.unpack = some .lt := by
  show (decide (UnpackedFloat.lt _ _ = true)) = true ↔ _
  simp [UnpackedFloat.lt]

lemma beq_iff {a b : Float} {s t : Sign} {m n : Nat} (ha : Sized a.toModel.unpack s m)
    (hb : Sized b.toModel.unpack t n) : (a == b) = true ↔ s.apply m = t.apply n := by
  show (a.toModel.unpack.compare b.toModel.unpack == some .eq) = true ↔ _
  rw [ha.compare_eq hb, beq_iff_eq, Option.some_inj, Int.compare_eq_eq]

lemma beq_of_isNaN {a b : Float} (h : a.isNaN = true) : (a == b) = false := by
  show UnpackedFloat.beq _ _ = false
  have nan : a.toModel.unpack.isNaN = true := h
  generalize a.toModel.unpack = u at *
  cases u with
  | notANumber => rfl
  | _ => cases nan

lemma not_isNaN_of_lt {a b : Float} (h : a < b) : a.isNaN = false ∧ b.isNaN = false := by
  rw [lt_iff_compare] at h
  show a.toModel.unpack.isNaN = false ∧ b.toModel.unpack.isNaN = false
  generalize a.toModel.unpack = u at *
  generalize b.toModel.unpack = v at *
  cases u <;> cases v <;> first | exact ⟨rfl, rfl⟩ | cases h

/-- **What is numerically smaller comes first in the total order.** -/
theorem compareTotal_of_lt {a b : Float} (h : a < b) : compareTotal a b = .lt := by
  obtain ⟨ha, hb⟩ := not_isNaN_of_lt h
  obtain ⟨s, m, sized, key⟩ := sized_unpack a ha
  obtain ⟨t, n, sized', key'⟩ := sized_unpack b hb
  rw [lt_iff_compare, sized.compare_eq sized', Option.some_inj, Int.compare_eq_lt] at h
  rw [compareTotal, key, key', Int.compare_eq_lt]
  cases s <;> cases t <;> simp only [Sign.apply, place] at h ⊢ <;> omega

lemma eq_of_toNat_toBits {a b : Float} (bits : a.toBits.toNat = b.toBits.toNat) : a = b := by
  obtain ⟨⟨x, hx⟩⟩ := a
  obtain ⟨⟨y, hy⟩⟩ := b
  obtain rfl : x = y := UInt64.toNat_inj.mp bits
  rfl

theorem totalKey_injective {a b : Float} (h : totalKey a = totalKey b) : a = b := by
  refine eq_of_toNat_toBits ?_
  have ha := a.toBits.toNat_lt
  have hb := b.toBits.toNat_lt
  simp only [totalKey] at h
  split at h <;> split at h <;> omega

instance : Std.TransCmp compareTotal := inferInstanceAs (Std.TransCmp (compareOn totalKey))

instance : Std.LawfulEqCmp compareTotal where
  eq_of_compare h := totalKey_injective (Int.compare_eq_eq.mp h)

end Autotune.Number
