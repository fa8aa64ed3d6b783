import Autotune.Number.Binary
import Autotune.Proofs.Number.Arithmetic
import Mathlib.Algebra.Ring.Int.Defs
import Mathlib.Algebra.Ring.Nat

/-!
# Numbers that stay finite

Rounding may overflow, but not where the exact result is far below the largest number.  `Below`
bounds an unpacked number by a power of two, and each step of an operation on numbers that are not
too large keeps a bound: rounding (`below_roundWithAccuracy`), packing (`below_unpack_pack`),
products and quotients (`below_mul`, `below_div`).

* `isFinite_ofInt`: an integer of 64 bits has a finite number next to it;
* `isFinite_neg`: the other sign leaves a number finite;
* `isFinite_widen_iff`: a 32-bit number is finite at 64 bits exactly when it is finite.
-/

namespace Autotune.Number

open Float.Model (Format UnpackedFloat totalExponent)
open Float.Model.UnpackedFloat

/-- A finite number below `2 ^ t` in size. -/
def Below (t : Int) : UnpackedFloat → Prop
  | .zero _ => True
  | .finite _ m e _ => totalExponent m e ≤ t
  | _ => False

variable {t r : Int} {m k : Nat} {e : Int} {s : Sign} {u v : UnpackedFloat}

lemma Below.mono (h : Below t u) (le : t ≤ r) : Below r u := by
  cases u with
  | zero => exact trivial
  | finite s m e => exact Int.le_trans h le
  | notANumber | infinity => exact h

lemma Below.isFinite (h : Below t u) : u.isFinite = true := by
  cases u with
  | zero | finite => rfl
  | notANumber | infinity => cases h

/-! ### Rounding -/

lemma mantissa_shift (em : ExtendedMantissa) (k : Nat) :
    (em >>> k).mantissa = em.mantissa / 2 ^ k := by
  induction k with
  | zero => exact (Nat.div_one _).symm
  | succ k ih =>
    show (em >>> k).mantissa / 2 = _
    rw [ih, Nat.div_div_eq_div_mul, Nat.pow_succ]

lemma roundedMantissa_le (em : ExtendedMantissa) : em.roundedMantissa ≤ em.mantissa + 1 := by
  obtain ⟨m, half, rest⟩ := em
  cases half with
  | false =>
    cases rest with
    | false => exact Nat.le_succ m
    | true => exact Nat.le_succ m
  | true =>
    cases rest with
    | false =>
      show m + m % 2 ≤ m + 1
      omega
    | true => exact Nat.le_refl _

/-- Dropping bits and rounding up leaves at most one bit more than were kept. -/
lemma log2_le_of_shift {q : Nat} (h : q ≤ m / 2 ^ k + 1) : q.log2 ≤ m.log2 + 1 - k := by
  by_cases zero : q = 0
  · rw [zero]
    exact Nat.zero_le _
  have size : m < 2 ^ (m.log2 + 1) := Nat.lt_log2_self
  by_cases inside : k ≤ m.log2 + 1
  · have quotient : m / 2 ^ k < 2 ^ (m.log2 + 1 - k) := by
      rw [Nat.div_lt_iff_lt_mul (Nat.two_pow_pos k), ← Nat.pow_add, Nat.sub_add_cancel inside]
      exact size
    have more : q < 2 ^ (m.log2 + 1 - k + 1) := by
      rw [Nat.pow_succ]
      omega
    have bits := (Nat.log2_lt zero).mpr more
    omega
  · have all : 2 ^ (m.log2 + 1) ≤ 2 ^ k := Nat.pow_le_pow_right (by decide) (by omega)
    have none : m / 2 ^ k = 0 := Nat.div_eq_of_lt (Nat.lt_of_lt_of_le size all)
    have one : q = 1 := by omega
    rw [one]
    exact Nat.zero_le _

/-- The number of bits that a mantissa has to lose for its place. -/
def excess (m : Nat) (e : Int) : Nat := (max (totalExponent m e - 53) (-1074) - e).toNat

lemma total_shift {q : Nat} (low : 0 ≤ t) (h : totalExponent m e ≤ t)
    (le : q ≤ m / 2 ^ excess m e + 1) : totalExponent q (e + excess m e) ≤ t + 1 := by
  have bits := log2_le_of_shift le
  unfold excess totalExponent at *
  omega

lemma mantissa_shiftToTargetExponent (m : Nat) (e : Int) (a : Accuracy) :
    (shiftToTargetExponent .binary64 m e a).1.mantissa = m / 2 ^ excess m e := by
  have whole : (ExtendedMantissa.ofMantissaAndAccuracy m a).mantissa = m := by
    cases a with
    | exact => rfl
    | inexact side => cases side <;> rfl
  show (ExtendedMantissa.ofMantissaAndAccuracy m a >>> excess m e).mantissa = _
  rw [mantissa_shift, whole]

/-- **Rounding does not take a number far beyond its bound.** -/
theorem below_roundWithAccuracy (low : 0 ≤ t) (h : totalExponent m e ≤ t) (s : Sign)
    (a : Accuracy) : Below (t + 2) (roundWithAccuracy .binary64 s m e a) := by
  have put {n : Nat} {k : Int} (size : totalExponent n k ≤ t + 2) :
      Below (t + 2) (if h : n = 0 then .zero s else .finite s n k (Nat.pos_of_ne_zero h)) := by
    cases n with
    | zero => exact trivial
    | succ n => exact size
  let once := shiftToTargetExponent .binary64 m e a
  let twice := shiftToTargetExponent .binary64 once.1.roundedMantissa once.2 .exact
  have rounded : once.1.roundedMantissa ≤ m / 2 ^ excess m e + 1 := by
    rw [← mantissa_shiftToTargetExponent m e a]
    exact roundedMantissa_le once.1
  have size : totalExponent once.1.roundedMantissa once.2 ≤ t + 1 := total_shift low h rounded
  have whole : twice.1.mantissa ≤
      once.1.roundedMantissa / 2 ^ excess once.1.roundedMantissa once.2 + 1 := by
    rw [← mantissa_shiftToTargetExponent once.1.roundedMantissa once.2 .exact]
    exact Nat.le_succ _
  have size' : totalExponent twice.1.mantissa twice.2 ≤ t + 2 := by
    have shifted := total_shift (by omega) size whole
    rwa [Int.add_assoc] at shifted
  exact put size'

/-! ### Packing -/

lemma log2_lt_of_lt {n : Nat} (h : m < 2 ^ n) (pos : 0 < m) : m.log2 < n :=
  (Nat.log2_lt (Nat.ne_of_gt pos)).mpr h

lemma Sized.below {size field : Nat} (h : Sized u s size) (small : size < (field + 1) * 2 ^ 52)
    (high : field < 2047) : Below (max (field - 1022) (-1021)) u := by
  cases h with
  | infinity s => omega
  | zero s => exact trivial
  | finite s m k pos hm hk normal =>
    have bits := log2_lt_of_lt hm pos
    show (m.log2 : Int) + 1 + (k - 1074) ≤ _
    obtain rfl | implicit := normal
    · omega
    · omega

lemma below_unpack_packComponents (s : Sign) (exponent : BitVec 11) (mantissa : BitVec 52)
    (ones : exponent.toNat < 2047) :
    Below (max (exponent.toNat - 1022) (-1021))
      (unpack .binary64 (packComponents .binary64 s exponent mantissa)) := by
  have pattern := toNat_packComponents s exponent mantissa
  have sign : s.toBitVec.toNat < 2 := s.toBitVec.isLt
  have fraction : mantissa.toNat < 2 ^ 52 := mantissa.isLt
  have number :
      (unpack .binary64 (packComponents .binary64 s exponent mantissa)).isNaN = false := by
    have sign := sign?_packComponents s exponent mantissa
    rw [if_neg fun both => by rw [both.1] at ones; exact absurd ones (by decide)] at sign
    generalize unpack .binary64 (packComponents .binary64 s exponent mantissa) = u at sign
    cases u with
    | notANumber => cases sign
    | _ => rfl
  exact (sized_unpack_bits _ number).below (by omega) ones

lemma below_unpack_pack_finite {pos : 0 < m} (h : totalExponent m e ≤ t) (low : 0 ≤ t)
    (high : e ≤ 971) : Below t (unpack .binary64 (pack .binary64 (.finite s m e pos))) := by
  have size : (m.log2 : Int) + 1 + e ≤ t := h
  have room : ¬ 2 ^ 11 ≤ (e + 1023 + 52).toNat + 1 := by omega
  rw [pack_finite, if_neg room]
  by_cases normal : m.log2 + 1 = 53
  · rw [if_pos normal]
    have field : (BitVec.ofNat 11 (e + 1023 + 52).toNat).toNat = (e + 1023 + 52).toNat := by
      rw [BitVec.toNat_ofNat, Nat.mod_eq_of_lt (by omega)]
    refine (below_unpack_packComponents s _ _ ?_).mono ?_
    · omega
    · omega
  · rw [if_neg normal]
    have field : (0#11).toNat = 0 := rfl
    exact (below_unpack_packComponents s 0#11 _ (by decide)).mono (by omega)

/-- **Packing a number that is not too large leaves it finite and within its bound.** -/
theorem below_unpack_pack (h : Below t u) (low : 0 ≤ t) (high : t ≤ 960) :
    Below t (unpack .binary64 (pack .binary64 u)) := by
  cases u with
  | notANumber | infinity => cases h
  | zero s => cases s <;> exact trivial
  | finite s m e pos =>
    have size : (m.log2 : Int) + 1 + e ≤ t := h
    exact below_unpack_pack_finite h low (by omega)

/-! ### Operations -/

lemma log2_mul_le {n : Nat} (hm : 0 < m) (hn : 0 < n) : (m * n).log2 ≤ m.log2 + n.log2 + 1 := by
  have bound : m * n < 2 ^ (m.log2 + 1) * 2 ^ (n.log2 + 1) :=
    Nat.mul_lt_mul_of_lt_of_lt Nat.lt_log2_self Nat.lt_log2_self
  rw [← Nat.pow_add] at bound
  have bits := log2_lt_of_lt bound (Nat.mul_pos hm hn)
  omega

lemma log2_shiftLeft_le (m k : Nat) : (m <<< k).log2 ≤ m.log2 + k := by
  by_cases zero : m = 0
  · rw [zero, Nat.zero_shiftLeft]
    exact Nat.zero_le _
  have bound : m <<< k < 2 ^ (m.log2 + 1) * 2 ^ k := by
    rw [Nat.shiftLeft_eq]
    exact Nat.mul_lt_mul_of_pos_right Nat.lt_log2_self (Nat.two_pow_pos k)
  rw [← Nat.pow_add] at bound
  have pos : 0 < m <<< k := by
    rw [Nat.shiftLeft_eq]
    exact Nat.mul_pos (Nat.pos_of_ne_zero zero) (Nat.two_pow_pos k)
  have bits := log2_lt_of_lt bound pos
  omega

lemma log2_div_le (m n : Nat) : (m / n).log2 ≤ m.log2 := by
  by_cases zero : m / n = 0
  · rw [zero]
    exact Nat.zero_le _
  have bound : m / n < 2 ^ (m.log2 + 1) := Nat.lt_of_le_of_lt (Nat.div_le_self m n) Nat.lt_log2_self
  have bits := log2_lt_of_lt bound (Nat.pos_of_ne_zero zero)
  omega

theorem below_mul (hu : Below t u) (hv : Below r v) (low : 0 ≤ t + r) :
    Below (t + r + 2) (mul .binary64 u v) := by
  cases u with
  | notANumber | infinity => cases hu
  | zero s =>
    cases v with
    | notANumber | infinity => cases hv
    | zero | finite => exact trivial
  | finite s m e pos =>
    cases v with
    | notANumber | infinity => cases hv
    | zero => exact trivial
    | finite s' m' e' pos' =>
      have first : (m.log2 : Int) + 1 + e ≤ t := hu
      have second : (m'.log2 : Int) + 1 + e' ≤ r := hv
      have bits := log2_mul_le pos pos'
      have total : totalExponent (m * m') (e + e') ≤ t + r := by
        unfold totalExponent
        omega
      exact below_roundWithAccuracy low total _ _

/-- The last bit of a finite number stands for `2 ^ r` at least. -/
def Coarse (r : Int) : UnpackedFloat → Bool
  | .finite _ _ e _ => r ≤ e
  | _ => false

theorem below_div (hu : Below t u) (hv : Coarse r v = true) (low : 0 ≤ t - r) :
    Below (t - r + 2) (div .binary64 u v) := by
  cases v with
  | notANumber | infinity | zero => cases hv
  | finite s' m' e' pos' =>
    have coarse : r ≤ e' := of_decide_eq_true hv
    cases u with
    | notANumber | infinity => cases hu
    | zero => exact trivial
    | finite s m e pos =>
      have size : (m.log2 : Int) + 1 + e ≤ t := hu
      -- the quotient is taken of a mantissa that was moved up to `goal`
      let goal := min (e - e')
        (Format.binary64.targetExponent (totalExponent m e - totalExponent m' e'))
      have reached : goal ≤ e - e' := Int.min_le_left ..
      have moved := log2_shiftLeft_le m (e - e' - goal).toNat
      have bits := log2_div_le (m <<< (e - e' - goal).toNat) m'
      have total : totalExponent (m <<< (e - e' - goal).toNat / m') goal ≤ t - r := by
        unfold totalExponent
        omega
      exact below_roundWithAccuracy low total _ _

lemma below_round (h : totalExponent m e ≤ t) (low : 0 ≤ t) (s : Sign) :
    Below (t + 2) (UnpackedFloat.round .binary64 s m e) := by
  let shift := (e - Format.binary64.targetExponent (totalExponent m e)).toNat
  have moved := log2_shiftLeft_le m shift
  have total : totalExponent (m <<< shift) (e - shift) ≤ t := by
    unfold totalExponent at h ⊢
    omega
  exact below_roundWithAccuracy low total s .exact

lemma below_ofNat {n : Nat} (h : n < 2 ^ 64) : Below 66 (UnpackedFloat.ofNat .binary64 n) := by
  unfold UnpackedFloat.ofNat UnpackedFloat.ofInt UnpackedFloat.normalize
  cases order : compare (n : Int) 0 with
  | eq => exact trivial
  | lt =>
    have negative := Int.compare_eq_lt.mp order
    omega
  | gt =>
    have positive := Int.compare_eq_gt.mp order
    have bits := log2_lt_of_lt h (by omega)
    have total : totalExponent (n : Int).toNat 0 ≤ 64 := by
      unfold totalExponent
      rw [Int.toNat_natCast]
      omega
    exact below_round total (by decide) _

/-! ### Numbers -/

/-- The number is finite and below `2 ^ t` in size. -/
def Under (t : Int) (x : Float) : Prop := Below t x.toModel.unpack

variable {x : Float}

lemma Under.isFinite (h : Under t x) : x.isFinite = true := Below.isFinite h

lemma under_pack (h : Below t u) (low : 0 ≤ t) (high : t ≤ 960) : Under t (.ofModel (.pack u)) :=
  below_unpack_pack h low high

lemma Under.neg (h : Under t x) (low : 0 ≤ t) (high : t ≤ 960) : Under t (-x) := by
  have opposite : Below t x.toModel.unpack.neg := by
    unfold Under at h
    cases unpacked : x.toModel.unpack with
    | zero => exact trivial
    | finite =>
      rw [unpacked] at h
      exact h
    | notANumber | infinity =>
      rw [unpacked] at h
      cases h
  exact under_pack opposite low high

/-- The powers of ten that are exact at 64 bits are whole multiples of `2 ^ -52`. -/
lemma coarse_powerOfTen :
    ∀ i : Fin 23, Coarse (-52) Float.exactlyRepresentablePowersOfTen[i].toModel.unpack = true := by
  decide +kernel

lemma ofScientific_eq (m : Nat) (e : Int) :
    UnpackedFloat.ofScientific .binary64 m e =
      if hm : m = 0 then .zero .positive
      else if e > 2 ^ 11 then .infinity .positive
      else if e < -((2 ^ 11 : Int) + m.log2) then .zero .positive
      else if 0 ≤ e then
        mul .binary64
          (.finite .positive (m <<< 53) (-53) (by simpa [Nat.pos_iff_ne_zero]))
          (.finite .positive (10 ^ e.toNat) 0 (Nat.pow_pos (by decide)))
      else
        div .binary64 (.finite .positive m 0 (Nat.pos_iff_ne_zero.2 hm))
          (.finite .positive (10 ^ (-e).toNat) 0 (Nat.pow_pos (by decide))) := rfl

/-- A decimal without a positive exponent is about as large as its digits. -/
lemma below_ofScientific {n : Nat} (h : m < 2 ^ n) (he : e ≤ 0) :
    Below (n + 3) (UnpackedFloat.ofScientific .binary64 m e) := by
  by_cases zero : m = 0
  · rw [ofScientific_eq, dif_pos zero]
    exact trivial
  have bits := log2_lt_of_lt h (Nat.pos_of_ne_zero zero)
  rw [ofScientific_eq, dif_neg zero, if_neg (by omega)]
  by_cases tiny : e < -((2 ^ 11 : Int) + m.log2)
  · rw [if_pos tiny]
    exact trivial
  rw [if_neg tiny]
  by_cases whole : 0 ≤ e
  · have moved := log2_shiftLeft_le m 53
    have power : (10 ^ e.toNat).log2 = 0 := by
      have none : e.toNat = 0 := by omega
      rw [none]
      rfl
    rw [if_pos whole]
    refine (below_mul (t := n) (r := 1) ?_ ?_ (by omega)).mono (by omega)
    · show ((m <<< 53).log2 : Int) + 1 + -53 ≤ n
      omega
    · show ((10 ^ e.toNat : Nat).log2 : Int) + 1 + 0 ≤ 1
      omega
  · rw [if_neg whole]
    refine (below_div (t := n) (r := 0) ?_ rfl (by omega)).mono (by omega)
    show (m.log2 : Int) + 1 + 0 ≤ n
    omega

/-- **A decimal number of not too many digits is finite**, if the point stands after them or
before. -/
theorem under_ofScientific {negative : Bool} {n places : Nat} (h : m < 2 ^ n) (few : n ≤ 900)
    (fraction : negative = true ∨ places = 0) :
    Under 960 (Float.ofScientific m negative places) := by
  unfold Float.ofScientific
  by_cases exact : m < 2 ^ 53 ∧ places ≤ 22
  · rw [dif_pos exact]
    have number : Under 66 m.toUInt64.toFloat := by
      have small : m.toUInt64.toNat < 2 ^ 64 := m.toUInt64.toNat_lt
      exact under_pack (below_ofNat small) (by decide) (by decide)
    have power := coarse_powerOfTen ⟨places, by omega⟩
    cases negative with
    | true =>
      have quotient := below_div number power (by decide)
      exact under_pack (quotient.mono (by decide)) (by decide) (by decide)
    | false =>
      obtain rfl : places = 0 := fraction.resolve_left (by decide)
      have one : Under 1 Float.exactlyRepresentablePowersOfTen[0] := by
        show (52 : Int) + 1 + -52 ≤ 1
        decide
      have product := below_mul number one (by decide)
      exact under_pack (product.mono (by decide)) (by decide) (by decide)
  · rw [dif_neg exact]
    have exponent : (if negative = true then Int.negOfNat places else Int.ofNat places) ≤ 0 := by
      cases negative with
      | true =>
        rw [if_pos rfl, Int.negOfNat_eq]
        exact Int.neg_nonpos_of_nonneg (Int.natCast_nonneg places)
      | false =>
        rw [fraction.resolve_left (by decide)]
        exact Int.le_refl 0
    exact under_pack ((below_ofScientific h exponent).mono (by omega)) (by decide) (by decide)

/-- **An integer of 64 bits is rounded to a finite number.** -/
theorem isFinite_ofInt {n : Int} (h : n.natAbs ≤ 2 ^ 64) : (Float.ofInt n).isFinite = true := by
  have natural {k : Nat} (small : k ≤ 2 ^ 64) : Under 960 (Float.ofNat k) := by
    have digits : k < 2 ^ 65 := by omega
    exact under_ofScientific digits (by decide) (.inr rfl)
  cases n with
  | ofNat k => exact (natural h).isFinite
  | negSucc k => exact ((natural h).neg (by decide) (by decide)).isFinite

theorem isFinite_neg (h : x.isFinite = true) : (-x).isFinite = true := by
  have finite : x.toModel.unpack.isFinite = true := h
  have number : x.isNaN = false := by
    show x.toModel.unpack.isNaN = false
    cases unpacked : x.toModel.unpack with
    | notANumber =>
      rw [unpacked] at finite
      cases finite
    | _ => rfl
  obtain ⟨s, n, sized, -⟩ := sized_unpack x number
  show (unpack .binary64 (pack .binary64 x.toModel.unpack.neg)).isFinite = true
  cases unpacked : x.toModel.unpack with
  | notANumber | infinity =>
    rw [unpacked] at finite
    cases finite
  | zero s => cases s <;> rfl
  | finite s m e pos =>
    rw [unpacked] at sized
    have high : e ≤ 971 := by
      cases sized
      omega
    exact (below_unpack_pack_finite (Int.le_max_left _ 0) (Int.le_max_right _ 0) high).isFinite

/-! ### 32-bit numbers -/

/-- A decimal has about as many digits as its magnitude has bits, and three bits for each place. -/
lemma Magnitude.decimal_lt {m : Magnitude} (significand : m.significand < 2 ^ 24) :
    m.decimal.1 < 2 ^ (24 + m.exponent.toNat + 3 * (-m.exponent).toNat) := by
  show m.significand * 2 ^ m.exponent.toNat * 5 ^ (-m.exponent).toNat < _
  have fives : 5 ^ (-m.exponent).toNat ≤ 2 ^ (3 * (-m.exponent).toNat) := by
    rw [Nat.pow_mul]
    exact Nat.pow_le_pow_left (by decide) _
  rw [Nat.pow_add, Nat.pow_add]
  calc m.significand * 2 ^ m.exponent.toNat * 5 ^ (-m.exponent).toNat
      ≤ m.significand * 2 ^ m.exponent.toNat * 2 ^ (3 * (-m.exponent).toNat) :=
        Nat.mul_le_mul_left _ fives
    _ < 2 ^ 24 * 2 ^ m.exponent.toNat * 2 ^ (3 * (-m.exponent).toNat) :=
        Nat.mul_lt_mul_of_pos_right (Nat.mul_lt_mul_of_pos_right significand (Nat.two_pow_pos _))
          (Nat.two_pow_pos _)

lemma magnitude_parts32 {x : Float32} {negative : Bool} {m : Magnitude}
    (h : parts32 x = .finite negative m) :
    m.significand < 2 ^ 24 ∧ -149 ≤ m.exponent ∧ m.exponent ≤ 104 := by
  have bound : x.toBits.toNat < 2 ^ 32 := x.toBits.toNat_lt
  have leading : Nat.pow 2 23 = 2 ^ 23 := rfl
  have fields : Nat.pow 2 8 = 256 := rfl
  simp only [parts32, Layout.decode, binary32, leading, fields] at h
  split at h
  · split at h <;> cases h
  · split at h
    · cases h
      dsimp only
      omega
    · cases h
      dsimp only
      omega

lemma isFinite_unpack_binary32 (b : BitVec Format.binary32.numBits) :
    (unpack .binary32 b).isFinite = true ↔ b.toNat / 2 ^ 23 % 2 ^ 8 ≠ 2 ^ 8 - 1 := by
  have exponent : (unpackExponent b).toNat = b.toNat / 2 ^ 23 % 2 ^ 8 := by
    simp [unpackExponent, BitVec.extractLsb_toNat, Nat.shiftRight_eq_div_pow]
  rw [← exponent]
  unfold unpack
  dsimp only
  by_cases ones : unpackExponent b = -1#_
  · have all : (unpackExponent b).toNat = 2 ^ 8 - 1 := by
      rw [ones]
      rfl
    rw [if_pos ones]
    by_cases fraction : unpackMantissa b = 0#_
    · rw [if_pos fraction]
      exact iff_of_false (fun h => by cases h) (fun h => h all)
    · rw [if_neg fraction]
      exact iff_of_false (fun h => by cases h) (fun h => h all)
  · have notAll : (unpackExponent b).toNat ≠ 2 ^ 8 - 1 :=
      fun all => ones (BitVec.eq_of_toNat_eq all)
    rw [if_neg ones]
    by_cases zeros : unpackExponent b = 0#_
    · rw [if_pos zeros]
      by_cases fraction : unpackMantissa b = 0#_
      · rw [dif_pos fraction]
        exact iff_of_true rfl notAll
      · rw [dif_neg fraction]
        exact iff_of_true rfl notAll
    · rw [if_neg zeros]
      exact iff_of_true rfl notAll

lemma isFinite_iff_parts32 {x : Float32} :
    x.isFinite = true ↔ ∃ negative m, parts32 x = .finite negative m := by
  have finite : x.isFinite = true ↔ x.toBits.toNat / 2 ^ 23 % 2 ^ 8 ≠ 2 ^ 8 - 1 :=
    isFinite_unpack_binary32 x.toModel.toBits.toBitVec
  have leading : Nat.pow 2 23 = 2 ^ 23 := rfl
  have fields : Nat.pow 2 8 = 2 ^ 8 := rfl
  rw [finite]
  simp only [parts32, Layout.decode, binary32, leading, fields]
  by_cases ones : x.toBits.toNat / 2 ^ 23 % 2 ^ 8 = 2 ^ 8 - 1
  · rw [if_pos ones]
    refine iff_of_false (fun h => h ones) ?_
    split <;> simp
  · rw [if_neg ones]
    refine iff_of_true ones ?_
    split <;> simp

/-- **A number of 32 bits is finite at 64 bits exactly when it is finite.** -/
theorem isFinite_widen_iff {x : Float32} : (widen x).isFinite = true ↔ x.isFinite = true := by
  rw [isFinite_iff_parts32]
  unfold widen
  cases parts : parts32 x with
  | nan =>
    have undefined : (0 / 0 : Float).isFinite = false := by decide +kernel
    simp [undefined]
  | infinite negative =>
    have above : (1 / 0 : Float).isFinite = false := by decide +kernel
    have below : (-1 / 0 : Float).isFinite = false := by decide +kernel
    cases negative with
    | true => simp [below]
    | false => simp [above]
  | finite negative m =>
    obtain ⟨significand, least, most⟩ := magnitude_parts32 parts
    have size : Under 960 (Float.ofScientific m.decimal.1 true m.decimal.2) :=
      under_ofScientific (m.decimal_lt significand) (by omega) (.inl rfl)
    constructor
    · intro _
      exact ⟨negative, m, rfl⟩
    · intro _
      show (if negative = true then -Float.ofScientific m.decimal.1 true m.decimal.2
        else Float.ofScientific m.decimal.1 true m.decimal.2).isFinite = true
      cases negative with
      | false => exact size.isFinite
      | true => exact (size.neg (by decide) (by decide)).isFinite

end Autotune.Number
