import Autotune.Proofs.Number.Rounding

/-!
# The values of numbers

`value` is the rational number that a finite number stands for.  An operation on finite numbers gives
the number `Nearest` to the exact result: no number is between the two, so an exact result that is a
number is what comes out (`Nearest.value_eq`), and what comes out is ordered as the exact result is.
An exact result beyond all numbers becomes infinite.

* `nearest_add`, `nearest_sub`, `nearest_mul`, `nearest_div`: what the operations give;
* `value_ofNat`: an integer of at most 53 bits is a number.
-/

namespace Autotune.Number

open Float.Model (Format UnpackedFloat totalExponent)
open Float.Model.UnpackedFloat

/-- The rational number that an unpacked number stands for.  What is not finite counts as zero. -/
def rational : UnpackedFloat → ℚ
  | .finite s m e _ => signed s (m * 2 ^ e)
  | .zero _ | .infinity _ | .notANumber => 0

/-- The rational number that a finite number stands for. -/
def value (x : Float) : ℚ := rational x.toModel.unpack

variable {a b w x : Float} {v : ℚ} {m n : ℕ} {s t : Sign} {u : UnpackedFloat}

/-! ### Numbers and the grid -/

lemma isNaN_of_isFinite (h : x.isFinite = true) : x.isNaN = false := by
  have finite : x.toModel.unpack.isFinite = true := h
  show x.toModel.unpack.isNaN = false
  cases unpacked : x.toModel.unpack with
  | notANumber =>
    rw [unpacked] at finite
    cases finite
  | _ => rfl

lemma Sized.isNaN (h : Sized u s n) : u.isNaN = false := by cases h <;> rfl

lemma level_eq_of_sized (h : Sized x.toModel.unpack s n) : level x = s.apply n := by
  have number : x.isNaN = false := h.isNaN
  obtain ⟨t, p, sized, place⟩ := sized_level number
  have same := (h.compare_eq h).symm.trans (h.compare_eq sized)
  rw [Int.compare_eq_eq.mpr rfl, Option.some_inj, eq_comm, Int.compare_eq_eq] at same
  rw [place, same]

lemma point_apply (s : Sign) (z : ℤ) : point (s.apply z) = signed s (point z) := by
  cases s with
  | negative => exact point_neg z
  | positive => rfl

lemma Sized.canonical (h : Sized u s n) (finite : u.isFinite = true) : Canonical u s n := by
  cases h with
  | infinity s => cases finite
  | zero s => exact .zero s
  | finite s m k pos hm hk normal => exact .finite s m k pos hm normal

lemma Canonical.rational_eq (h : Canonical u s n) : rational u = point (s.apply n) := by
  rw [point_apply]
  cases h with
  | zero s =>
    rw [Nat.cast_zero, point_zero]
    cases s with
    | negative => exact neg_zero.symm
    | positive => rfl
  | finite s m k pos hm normal =>
    rw [point_eq hm normal]
    rfl

lemma value_eq_point (h : x.isFinite = true) : value x = point (level x) := by
  obtain ⟨s, n, sized, place⟩ := sized_level (isNaN_of_isFinite h)
  rw [place, value, (sized.canonical h).rational_eq]

/-- The level at which the infinite numbers stand. -/
def top : ℕ := 2047 * 2 ^ 52

lemma isFinite_iff_level (number : x.isNaN = false) :
    x.isFinite = true ↔ -top < level x ∧ level x < top := by
  obtain ⟨s, n, sized, place⟩ := sized_level number
  rw [place]
  show x.toModel.unpack.isFinite = true ↔ _
  generalize x.toModel.unpack = u at sized
  cases sized with
  | infinity s =>
    refine iff_of_false (fun finite => by cases finite) (fun between => ?_)
    cases s <;> simp only [Sign.apply, top] at between <;> omega
  | zero s =>
    refine iff_of_true rfl ?_
    cases s <;> simp only [Sign.apply, top] <;> omega
  | finite s m k pos hm hk normal =>
    refine iff_of_true rfl ?_
    cases s <;> simp only [Sign.apply, top] <;> omega

/-- A value other than zero has one number. -/
lemma eq_of_value (ha : a.isFinite = true) (hb : b.isFinite = true) (same : value a = value b)
    (nonzero : value b ≠ 0) : a = b := by
  have levels : level a = level b := by
    rw [value_eq_point ha, value_eq_point hb] at same
    exact point_injective same
  refine (eq_or_zeros_of_level levels).resolve_right ?_
  rintro ⟨-, t, -, zero⟩
  refine nonzero ?_
  rw [value, zero]
  rfl

/-! ### Packing -/

lemma sized_pack (size : ℕ) {exponent : BitVec 11} {mantissa : BitVec 52}
    (bits : size = exponent.toNat * 2 ^ 52 + mantissa.toNat) (ones : exponent.toNat < 2047) :
    Sized (unpack .binary64 (packComponents .binary64 s exponent mantissa)) s size := by
  have pattern := toNat_packComponents s exponent mantissa
  have fraction : mantissa.toNat < 2 ^ 52 := mantissa.isLt
  have number :
      (unpack .binary64 (packComponents .binary64 s exponent mantissa)).isNaN = false := by
    have sign := sign?_packComponents s exponent mantissa
    rw [if_neg fun both => by rw [both.1] at ones; exact absurd ones (by decide)] at sign
    generalize unpack .binary64 (packComponents .binary64 s exponent mantissa) = u at sign
    cases u with
    | notANumber => cases sign
    | _ => rfl
  have sized := sized_unpack_bits _ number
  have rest : (packComponents .binary64 s exponent mantissa).toNat % 2 ^ 63 = size := by omega
  rwa [unpackSign_packComponents, rest] at sized

lemma sized_pack_infinity (s : Sign) : Sized (unpack .binary64 (pack .binary64 (.infinity s))) s top := by
  cases s <;> exact .infinity _

/-- **Packing a rounded result keeps its size**, up to the one of the infinite numbers. -/
theorem Canonical.sized (h : Canonical u s n) :
    Sized (unpack .binary64 (pack .binary64 u)) s (min n top) := by
  cases h with
  | zero s => cases s <;> exact .zero _
  | finite s m k pos hm normal =>
    rw [pack_finite]
    by_cases large : 2 ^ 11 ≤ ((k : ℤ) - 1074 + 1023 + 52).toNat + 1
    · have most : min (k * 2 ^ 52 + m) top = top := by
        unfold top
        omega
      rw [if_pos large, most]
      exact sized_pack_infinity s
    · have kept : min (k * 2 ^ 52 + m) top = k * 2 ^ 52 + m := by
        unfold top
        omega
      have field : (k : ℤ) - 1074 + 1023 + 52 = (k + 1 : ℕ) := by omega
      rw [if_neg large, kept, field, Int.toNat_natCast]
      have exponent : (BitVec.ofNat 11 (k + 1)).toNat = k + 1 := by
        rw [BitVec.toNat_ofNat, Nat.mod_eq_of_lt (by omega)]
      have mantissa : (BitVec.ofNat 52 m).toNat = m % 2 ^ 52 := BitVec.toNat_ofNat m 52
      by_cases leading : m.log2 + 1 = 53
      · have implicit : 2 ^ 52 ≤ m := by
          have bits := Nat.log2_self_le pos.ne'
          rwa [Nat.succ.inj leading] at bits
        rw [if_pos leading]
        exact sized_pack _ (by omega) (by omega)
      · have small : m < 2 ^ 52 := by
          have bits := log2_lt_of_lt hm pos
          exact (Nat.log2_lt pos.ne').mp (by omega)
        rw [if_neg leading]
        exact sized_pack _ (by rw [mantissa]; simp; omega) (by decide)

/-! ### The nearest number -/

/-- The number that a rational number is rounded to. -/
structure Nearest (v : ℚ) (x : Float) : Prop where
  number : x.isNaN = false
  le_of_le : ∀ w : Float, w.isFinite = true → v ≤ value w → x ≤ w
  le_of_ge : ∀ w : Float, w.isFinite = true → value w ≤ v → w ≤ x
  exact : ∀ z, v = point z → x.isFinite = true → value x = v
  close : x.isFinite = true → |value x - v| ≤ max (|v| / 2 ^ 53) (2 ^ (-1075 : ℤ))

/-- What is rounded and packed is the nearest number. -/
lemma nearest_pack (canonical : Canonical u s n) (rounds : Rounds v (s.apply n)) :
    Nearest v (.ofModel (.pack u)) := by
  let x : Float := .ofModel (.pack u)
  have sized : Sized x.toModel.unpack s (min n top) := canonical.sized
  have place : level x = s.apply (min n top : ℕ) := level_eq_of_sized sized
  have number : x.isNaN = false := sized.isNaN
  -- a finite result is the rounded one itself
  have kept (finite : x.isFinite = true) : value x = point (s.apply n) := by
    have between := (isFinite_iff_level number).mp finite
    have same : s.apply ((min n top : ℕ) : ℤ) = s.apply n := by
      rw [place] at between
      cases s <;> simp only [Sign.apply] at between ⊢ <;> omega
    rw [value_eq_point finite, place, same]
  refine ⟨number, fun w finite le => ?_, fun w finite le => ?_, fun z grid finite => ?_,
    fun finite => ?_⟩
  · have number' := isNaN_of_isFinite finite
    have between := (isFinite_iff_level number').mp finite
    rw [value_eq_point finite] at le
    have order := rounds.le_of_le _ le
    rw [le_iff_level number number', place]
    cases s <;> simp only [Sign.apply] at order ⊢ <;> omega
  · have number' := isNaN_of_isFinite finite
    have between := (isFinite_iff_level number').mp finite
    rw [value_eq_point finite] at le
    have order := rounds.le_of_ge _ le
    rw [le_iff_level number' number, place]
    cases s <;> simp only [Sign.apply] at order ⊢ <;> omega
  · subst grid
    have below := rounds.le_of_le z (le_refl _)
    have above := rounds.le_of_ge z (le_refl _)
    rw [kept finite, le_antisymm below above]
  · rw [kept finite]
    exact rounds.close

namespace Nearest

lemma value_eq (h : Nearest (value w) x) (finite : w.isFinite = true) :
    x.isFinite = true ∧ value x = value w := by
  have number := isNaN_of_isFinite finite
  have below := (le_iff_level h.number number).mp (h.le_of_le w finite (le_refl _))
  have above := (le_iff_level number h.number).mp (h.le_of_ge w finite (le_refl _))
  have levels : level x = level w := le_antisymm below above
  have finite' : x.isFinite = true := by
    rw [isFinite_iff_level h.number, levels]
    exact (isFinite_iff_level number).mp finite
  refine ⟨finite', ?_⟩
  rw [value_eq_point finite', value_eq_point finite, levels]

lemma isFinite (h : Nearest v x) (ha : a.isFinite = true) (hb : b.isFinite = true)
    (low : value a ≤ v) (high : v ≤ value b) : x.isFinite = true := by
  have numberA := isNaN_of_isFinite ha
  have numberB := isNaN_of_isFinite hb
  have below := (le_iff_level numberA h.number).mp (h.le_of_ge a ha low)
  have above := (le_iff_level h.number numberB).mp (h.le_of_le b hb high)
  have first := (isFinite_iff_level numberA).mp ha
  have last := (isFinite_iff_level numberB).mp hb
  rw [isFinite_iff_level h.number]
  omega

end Nearest

/-! ### Operations -/

lemma canonical_of_isFinite (h : x.isFinite = true) : ∃ s n, Canonical x.toModel.unpack s n := by
  obtain ⟨s, n, sized, -⟩ := sized_level (isNaN_of_isFinite h)
  exact ⟨s, n, sized.canonical h⟩

lemma signed_mul (s t : Sign) (x y : ℚ) : signed s x * signed t y = signed (s * t) (x * y) := by
  cases s with
  | negative =>
    cases t with
    | negative => exact neg_mul_neg x y
    | positive => exact neg_mul x y
  | positive =>
    cases t with
    | negative => exact mul_neg x y
    | positive => rfl

lemma signed_div (s t : Sign) (x y : ℚ) : signed s x / signed t y = signed (s / t) (x / y) := by
  cases s with
  | negative =>
    cases t with
    | negative => exact neg_div_neg_eq x y
    | positive => exact neg_div y x
  | positive =>
    cases t with
    | negative => exact div_neg x
    | positive => rfl

namespace Canonical

variable {u' : UnpackedFloat}

lemma rounds (h : Canonical u s n) : Rounds (rational u) (s.apply n) := by
  rw [h.rational_eq]
  exact rounds_point _

lemma neg (h : Canonical u s n) : Canonical u.neg (-s) n := by
  cases h with
  | zero s => exact .zero (-s)
  | finite s m k pos hm normal => exact .finite (-s) m k pos hm normal

/-- A sum is taken of mantissas that stand for multiples of the same power of two. -/
lemma add (h : Canonical u s m) (h' : Canonical u' t n) :
    ∃ r k, Canonical (UnpackedFloat.add .binary64 u u') r k ∧
      Rounds (rational u + rational u') (r.apply k) := by
  cases h with
  | zero s =>
    rw [show rational (.zero s) = 0 from rfl, zero_add]
    cases h' with
    | zero t =>
      cases s <;> cases t <;> exact ⟨_, 0, .zero _, (zero _).rounds⟩
    | finite t m' k' pos' hm' normal' =>
      exact ⟨t, _, .finite t m' k' pos' hm' normal', (finite t m' k' pos' hm' normal').rounds⟩
  | finite s m k pos hm normal =>
    cases h' with
    | zero t =>
      rw [show rational (.zero t) = 0 from rfl, add_zero]
      exact ⟨s, _, .finite s m k pos hm normal, (finite s m k pos hm normal).rounds⟩
    | finite t m' k' pos' hm' normal' =>
      let least := min ((k : ℤ) - 1074) ((k' : ℤ) - 1074)
      have moved (s : Sign) (m : ℕ) {e : ℤ} (above : least ≤ e) :
          ((s.apply (m <<< (e - least).toNat : ℕ) : ℤ) : ℚ) * 2 ^ least = signed s (m * 2 ^ e) := by
        have same := shiftLeft_mul m (e - least).toNat e
        rw [Int.toNat_of_nonneg (by omega), sub_sub_cancel] at same
        cases s with
        | negative =>
          rw [Sign.apply, Int.cast_neg, Int.cast_natCast, neg_mul, same]
          rfl
        | positive => exact same
      obtain ⟨r, p, canonical, rounds⟩ := rounds_normalize
        (s.apply (m <<< ((k : ℤ) - 1074 - least).toNat : ℕ) +
          t.apply (m' <<< ((k' : ℤ) - 1074 - least).toNat : ℕ)) least .positive
      refine ⟨r, p, canonical, ?_⟩
      rwa [Int.cast_add, add_mul, moved s m (min_le_left _ _), moved t m' (min_le_right _ _)] at rounds

lemma mul (h : Canonical u s m) (h' : Canonical u' t n) :
    ∃ r k, Canonical (UnpackedFloat.mul .binary64 u u') r k ∧
      Rounds (rational u * rational u') (r.apply k) := by
  cases h with
  | zero s =>
    rw [show rational (.zero s) = 0 from rfl, zero_mul]
    cases h' <;> exact ⟨s * t, 0, .zero _, (zero (s * t)).rounds⟩
  | finite s m k pos hm normal =>
    cases h' with
    | zero t =>
      rw [show rational (.zero t) = 0 from rfl, mul_zero]
      exact ⟨s * t, 0, .zero _, (zero (s * t)).rounds⟩
    | finite t m' k' pos' hm' normal' =>
      have bits : (k : ℤ) - 1074 + (k' - 1074) ≤
          max (totalExponent (m * m') ((k : ℤ) - 1074 + (k' - 1074)) - 53) (-1074) := by
        by_cases low : k = 0 ∧ k' = 0
        · omega
        · have large : 2 ^ 52 ≤ m * m' := by
            obtain first | second : 2 ^ 52 ≤ m ∨ 2 ^ 52 ≤ m' := by omega
            · exact first.trans (Nat.le_mul_of_pos_right m pos')
            · exact second.trans (Nat.le_mul_of_pos_left m' pos)
          have size : 52 ≤ (m * m').log2 :=
            (Nat.le_log2 (Nat.mul_pos pos pos').ne').mpr large
          unfold totalExponent
          omega
      obtain ⟨p, canonical, rounds⟩ := rounds_roundWithAccuracy (s * t) bits (tells_ofNat (m * m'))
      refine ⟨s * t, p, canonical, ?_⟩
      have product : rational (.finite s m ((k : ℤ) - 1074) pos) *
          rational (.finite t m' ((k' : ℤ) - 1074) pos') =
            signed (s * t) ((m * m' : ℕ) * 2 ^ ((k : ℤ) - 1074 + (k' - 1074))) := by
        show signed s _ * signed t _ = _
        rw [signed_mul, zpow_add₀ two_ne_zero]
        push_cast
        congr 1
        ring
      rw [product]
      exact rounds.signed (s * t)

/-- A quotient is taken of a mantissa that was moved until all bits come out. -/
lemma div (h : Canonical u s m) (h' : Canonical u' t n) (nonzero : rational u' ≠ 0) :
    ∃ r k, Canonical (UnpackedFloat.div .binary64 u u') r k ∧
      Rounds (rational u / rational u') (r.apply k) := by
  cases h' with
  | zero t => exact absurd rfl nonzero
  | finite t m' k' pos' hm' normal' =>
    cases h with
    | zero s =>
      rw [show rational (.zero s) = 0 from rfl, zero_div]
      exact ⟨s / t, 0, .zero _, (zero (s / t)).rounds⟩
    | finite s m k pos hm normal =>
      let e := (k : ℤ) - 1074
      let e' := (k' : ℤ) - 1074
      let goal := min (e - e')
        (Format.binary64.targetExponent (totalExponent m e - totalExponent m' e'))
      let moved := m <<< (e - e' - goal).toNat
      have reached : goal = min (e - e') (max (totalExponent m e - totalExponent m' e' - 53) (-1074)) :=
        rfl
      have size : moved.log2 = m.log2 + (e - e' - goal).toNat := log2_shiftLeft pos _
      have bits : goal ≤ max (totalExponent (moved / m') goal - 53) (-1074) := by
        by_cases low : goal ≤ -1074
        · omega
        · have large : 2 ^ 52 ≤ moved / m' := by
            have positive : moved ≠ 0 := by
              intro zero
              rw [zero, Nat.log2_zero] at size
              unfold totalExponent at reached
              omega
            rw [Nat.le_div_iff_mul_le pos']
            calc 2 ^ 52 * m' ≤ 2 ^ 52 * 2 ^ (m'.log2 + 1) :=
                  Nat.mul_le_mul_left _ Nat.lt_log2_self.le
              _ = 2 ^ (m'.log2 + 53) := by rw [← Nat.pow_add]; congr 1; omega
              _ ≤ 2 ^ moved.log2 := by
                refine Nat.pow_le_pow_right two_pos ?_
                unfold totalExponent at reached
                omega
              _ ≤ moved := Nat.log2_self_le positive
          have width : 52 ≤ (moved / m').log2 :=
            (Nat.le_log2 (by omega)).mpr large
          unfold totalExponent
          omega
      obtain ⟨p, canonical, rounds⟩ := rounds_roundWithAccuracy (s / t) bits (tells_div moved pos')
      refine ⟨s / t, p, canonical, ?_⟩
      have quotient : rational (.finite s m ((k : ℤ) - 1074) pos) /
          rational (.finite t m' ((k' : ℤ) - 1074) pos') =
            signed (s / t) ((moved : ℚ) / m' * 2 ^ goal) := by
        show signed s _ / signed t _ = _
        have shifted := shiftLeft_mul m (e - e' - goal).toNat (e - e')
        rw [Int.toNat_of_nonneg (by omega), sub_sub_cancel] at shifted
        rw [signed_div, mul_div_mul_comm, ← zpow_sub₀ two_ne_zero, div_mul_eq_mul_div, ← shifted,
          div_mul_eq_mul_div]
      rw [quotient]
      exact rounds.signed (s / t)

end Canonical

lemma rational_neg (u : UnpackedFloat) : rational u.neg = -rational u := by
  cases u with
  | finite s m e pos =>
    cases s with
    | negative => exact (neg_neg _).symm
    | positive => rfl
  | zero | infinity | notANumber => exact neg_zero.symm

lemma sub_eq_add (u v : UnpackedFloat) :
    UnpackedFloat.sub .binary64 u v = UnpackedFloat.add .binary64 u v.neg := by
  cases u with
  | notANumber => rfl
  | infinity s => cases v <;> rfl
  | zero s => cases v <;> rfl
  | finite s m e pos =>
    cases v with
    | notANumber | infinity | zero => rfl
    | finite t m' e' pos' =>
      have opposite (n : ℕ) : (-t).apply n = -t.apply n := by
        cases t with
        | negative => exact (Int.neg_neg _).symm
        | positive => rfl
      show UnpackedFloat.normalize .binary64 (_ - _) _ _ =
        UnpackedFloat.normalize .binary64 (_ + (-t).apply _) _ _
      rw [opposite, Int.sub_eq_add_neg]

variable (ha : a.isFinite = true) (hb : b.isFinite = true)
include ha hb

/-- **A sum is the number nearest to the exact one.** -/
theorem nearest_add : Nearest (value a + value b) (a + b) := by
  obtain ⟨s, m, canonical⟩ := canonical_of_isFinite ha
  obtain ⟨t, n, canonical'⟩ := canonical_of_isFinite hb
  obtain ⟨r, k, sum, rounds⟩ := canonical.add canonical'
  exact nearest_pack sum rounds

theorem nearest_sub : Nearest (value a - value b) (a - b) := by
  obtain ⟨s, m, canonical⟩ := canonical_of_isFinite ha
  obtain ⟨t, n, canonical'⟩ := canonical_of_isFinite hb
  obtain ⟨r, k, sum, rounds⟩ := canonical.add canonical'.neg
  rw [← sub_eq_add] at sum
  rw [rational_neg, ← sub_eq_add_neg] at rounds
  exact nearest_pack sum rounds

theorem nearest_mul : Nearest (value a * value b) (a * b) := by
  obtain ⟨s, m, canonical⟩ := canonical_of_isFinite ha
  obtain ⟨t, n, canonical'⟩ := canonical_of_isFinite hb
  obtain ⟨r, k, product, rounds⟩ := canonical.mul canonical'
  exact nearest_pack product rounds

theorem nearest_div (nonzero : value b ≠ 0) : Nearest (value a / value b) (a / b) := by
  obtain ⟨s, m, canonical⟩ := canonical_of_isFinite ha
  obtain ⟨t, n, canonical'⟩ := canonical_of_isFinite hb
  obtain ⟨r, k, quotient, rounds⟩ := canonical.div canonical' nonzero
  exact nearest_pack quotient rounds

omit ha hb

/-- A short mantissa can be moved until it has 53 bits, or the exponent is the least one. -/
lemma exists_normal {j : ℤ} (pos : 0 < m) (small : m < 2 ^ 53) (low : -1074 ≤ j) :
    ∃ m' k : ℕ, 0 < m' ∧ m' < 2 ^ 53 ∧ (k = 0 ∨ 2 ^ 52 ≤ m') ∧ (k : ℤ) ≤ j + 1074 ∧
      (m' : ℚ) * 2 ^ ((k : ℤ) - 1074) = m * 2 ^ j := by
  let d := min (52 - m.log2) (j + 1074).toNat
  have bits : m.log2 < 53 := log2_lt_of_lt small pos
  have size : (m <<< d).log2 = m.log2 + d := log2_shiftLeft pos d
  have pos' : 0 < m <<< d := by
    rw [Nat.shiftLeft_eq]
    exact Nat.mul_pos pos (Nat.two_pow_pos d)
  have exponent : ((j - d + 1074).toNat : ℤ) - 1074 = j - d := by omega
  refine ⟨m <<< d, (j - d + 1074).toNat, pos', (Nat.log2_lt pos'.ne').mp (by omega), ?_, by omega, ?_⟩
  · by_cases least : (j - d + 1074).toNat = 0
    · exact .inl least
    · exact .inr ((Nat.le_log2 pos'.ne').mp (by omega))
  · rw [exponent, shiftLeft_mul]

lemma exists_point {j : ℤ} (small : m < 2 ^ 53) (low : -1074 ≤ j) :
    ∃ p : ℕ, point p = m * 2 ^ j := by
  obtain rfl | pos := Nat.eq_zero_or_pos m
  · exact ⟨0, by rw [Nat.cast_zero, Nat.cast_zero, zero_mul, point_zero]⟩
  · obtain ⟨m', k, -, small', normal, -, same⟩ := exists_normal pos small low
    exact ⟨k * 2 ^ 52 + m', by rw [point_eq small' normal, same]⟩

/-- **What has a short mantissa and a moderate exponent is a number.** -/
theorem exists_value (s : Sign) {j : ℤ} (small : m < 2 ^ 53) (low : -1074 ≤ j) (high : j ≤ 971) :
    ∃ w : Float, w.isFinite = true ∧ value w = signed s (m * 2 ^ j) := by
  obtain rfl | pos := Nat.eq_zero_or_pos m
  · refine ⟨0, rfl, ?_⟩
    rw [Nat.cast_zero, zero_mul]
    cases s with
    | negative => exact neg_zero.symm
    | positive => rfl
  obtain ⟨m', k, pos', small', normal, moderate, same⟩ := exists_normal pos small low
  have canonical := Canonical.finite s m' k pos' small' normal
  have sized := canonical.sized
  have kept : min (k * 2 ^ 52 + m') top = k * 2 ^ 52 + m' := by
    unfold top
    omega
  rw [kept] at sized
  let w : Float := .ofModel (.pack (.finite s m' ((k : ℤ) - 1074) pos'))
  have finite : w.isFinite = true := by
    rw [isFinite_iff_level (x := w) sized.isNaN, level_eq_of_sized (x := w) sized]
    unfold top
    cases s <;> simp only [Sign.apply] <;> omega
  refine ⟨w, finite, ?_⟩
  rw [value_eq_point finite, level_eq_of_sized (x := w) sized, ← canonical.rational_eq, ← same]
  rfl

/-- **A natural number of at most 53 bits is a number.** -/
theorem value_ofNat (small : n < 2 ^ 53) :
    (Float.ofNat n).isFinite = true ∧ value (Float.ofNat n) = n := by
  obtain ⟨w, finite, same⟩ : ∃ w : Float, w.isFinite = true ∧ value w = n := by
    obtain ⟨w, finite, same⟩ := exists_value (j := 0) .positive small (by decide) (by decide)
    rw [zpow_zero, mul_one] at same
    exact ⟨w, finite, same⟩
  have converted : n.toUInt64.toNat = n :=
    UInt64.toNat_ofNat_of_lt' (Nat.lt_of_lt_of_le small (by decide))
  obtain ⟨s, k, canonical, rounds⟩ := rounds_normalize n.toUInt64.toNat 0 .positive
  rw [Int.cast_natCast, zpow_zero, mul_one, converted] at rounds
  have integer : Nearest (value w) n.toUInt64.toFloat := by
    rw [same]
    exact nearest_pack canonical rounds
  obtain ⟨finite', integer⟩ := integer.value_eq finite
  -- an integer literal is multiplied by the least power of ten
  have one : value (.ofBits 0x3FF0000000000000) = 1 := by
    show signed .positive ((2 ^ 52 : ℕ) * 2 ^ (-52 : ℤ)) = 1
    norm_num [signed]
  have product := nearest_mul finite' (b := .ofBits 0x3FF0000000000000) rfl
  rw [one, mul_one, integer] at product
  have direct : Float.ofNat n = n.toUInt64.toFloat * .ofBits 0x3FF0000000000000 :=
    dif_pos ⟨small, by decide⟩
  rw [direct, ← same]
  exact product.value_eq finite

/-! ### Neutral elements -/

lemma fields_of_isNaN (bits : BitVec Format.binary64.numBits)
    (nan : (unpack .binary64 bits).isNaN = true) :
    unpackExponent bits = -1#11 ∧ unpackMantissa bits ≠ 0#52 := by
  unfold unpack at nan
  dsimp only at nan
  by_cases ones : unpackExponent bits = -1#11
  · refine ⟨ones, fun whole => ?_⟩
    rw [if_pos ones, if_pos whole] at nan
    cases nan
  · rw [if_neg ones] at nan
    by_cases zeros : unpackExponent bits = 0#11
    · rw [if_pos zeros] at nan
      by_cases whole : unpackMantissa bits = 0#52
      · rw [dif_pos whole] at nan
        cases nan
      · rw [dif_neg whole] at nan
        cases nan
    · rw [if_neg zeros] at nan
      cases nan

lemma eq_of_isNaN (ha : a.isNaN = true) (hb : b.isNaN = true) : a = b := by
  have pattern {x : Float} (nan : x.isNaN = true) : x.toBits.toBitVec = packedNaN .binary64 := by
    obtain ⟨exponent, mantissa⟩ := fields_of_isNaN x.toModel.toBits.toBitVec nan
    exact x.toModel.valid.eq_packedNaN exponent mantissa
  exact eq_of_toNat_toBits (congrArg BitVec.toNat ((pattern ha).trans (pattern hb).symm))

lemma Sized.sign_eq (h : Sized u s n) : sign? u = some s := by cases h <;> rfl

lemma eq_of_sized (ha : Sized a.toModel.unpack s n) (hb : Sized b.toModel.unpack s n) : a = b := by
  have key {x : Float} (hx : Sized x.toModel.unpack s n) : totalKey x = place s n := by
    obtain ⟨t, k, sized, key⟩ := sized_unpack x hx.isNaN
    obtain rfl : t = s := Option.some_inj.mp (sized.sign_eq.symm.trans hx.sign_eq)
    have same := (hx.compare_eq hx).symm.trans (hx.compare_eq sized)
    rw [Int.compare_eq_eq.mpr rfl, Option.some_inj, eq_comm, Int.compare_eq_eq] at same
    obtain rfl : n = k := by cases t <;> simp only [Sign.apply] at same <;> omega
    exact key
  exact totalKey_injective ((key ha).trans (key hb).symm)

lemma pack_unpack (x : Float) : Float.ofModel (.pack x.toModel.unpack) = x := by
  cases nan : x.isNaN with
  | true =>
    refine eq_of_isNaN ?_ nan
    rw [isNaN_eq_isNone] at nan ⊢
    exact (congrArg Option.isNone (sign?_pack x.toModel.unpack)).trans nan
  | false =>
    obtain ⟨s, n, sized, place⟩ := sized_level nan
    refine eq_of_sized (s := s) (n := n) ?_ sized
    show Sized (unpack .binary64 (pack .binary64 x.toModel.unpack)) s n
    cases finite : x.isFinite with
    | true =>
      have between := (isFinite_iff_level nan).mp finite
      have packed := (sized.canonical finite).sized
      have kept : min n top = n := by
        rw [place] at between
        cases s <;> simp only [Sign.apply] at between <;> omega
      rwa [kept] at packed
    | false =>
      have infinite : x.toModel.unpack.isFinite = false := finite
      generalize x.toModel.unpack = u at sized infinite
      cases sized with
      | infinity s => exact sized_pack_infinity s
      | zero | finite => cases infinite

lemma add_zero_of_ne (nonzero : (x == 0) = false) : x + 0 = x := by
  have packed := pack_unpack x
  show Float.ofModel (.pack (UnpackedFloat.add .binary64 x.toModel.unpack (.zero .positive))) = x
  have other : ∀ s, x.toModel.unpack ≠ .zero s := by
    intro s zero
    have origin : (0 : Float).toModel.unpack = .zero .positive := rfl
    have equal : (x.toModel.unpack.compare (0 : Float).toModel.unpack == some .eq) = false := nonzero
    rw [zero, origin] at equal
    cases s <;> cases equal
  generalize x.toModel.unpack = u at packed other
  cases u with
  | zero s => exact absurd rfl (other s)
  | notANumber | infinity | finite => exact packed

lemma div_one_eq (x : Float) : x / 1 = x := by
  obtain ⟨m, e, pos, one⟩ : ∃ m e pos, (1 : Float).toModel.unpack = .finite .positive m e pos :=
    ⟨_, _, _, rfl⟩
  have packed := pack_unpack x
  have quotient : x / 1 = .ofModel (.pack (.div .binary64 x.toModel.unpack (1 : Float).toModel.unpack)) :=
    rfl
  have same (sign : Sign) : sign / .positive = sign := by cases sign <;> rfl
  rw [one] at quotient
  cases unpacked : x.toModel.unpack with
  | notANumber =>
    rw [unpacked] at quotient packed
    exact quotient.trans packed
  | infinity s =>
    rw [unpacked] at quotient packed
    refine quotient.trans (Eq.trans ?_ packed)
    show Float.ofModel (.pack (.infinity (s / .positive))) = _
    rw [same]
  | zero s =>
    rw [unpacked] at quotient packed
    refine quotient.trans (Eq.trans ?_ packed)
    show Float.ofModel (.pack (.zero (s / .positive))) = _
    rw [same]
  | finite s m' e' pos' =>
    have finite : x.isFinite = true := by
      show x.toModel.unpack.isFinite = true
      rw [unpacked]
      rfl
    have nonzero : value x ≠ 0 := by
      have positive : (m' : ℚ) * 2 ^ e' ≠ 0 :=
        mul_ne_zero (by exact_mod_cast pos'.ne') (zpow_ne_zero _ two_ne_zero)
      rw [value, unpacked]
      cases s with
      | negative => exact neg_ne_zero.mpr positive
      | positive => exact positive
    obtain ⟨finite', unit⟩ := value_ofNat (n := 1) (by decide)
    have near := nearest_div finite finite' (by rw [unit, Nat.cast_one]; exact one_ne_zero)
    rw [unit, Nat.cast_one, div_one] at near
    obtain ⟨finite'', kept⟩ := near.value_eq finite
    exact eq_of_value finite'' finite kept nonzero

end Autotune.Number
