import Autotune.Number.Binary
import Autotune.Proofs.Number.Line

/-!
# Signs and zeros in arithmetic

Arithmetic is done on unpacked numbers and the result is packed again.  Packing may change the value
of a result, but neither its sign nor whether it is a number (`sign?_pack`), and that is enough for
two facts that do not depend on rounding.

* `isNaN_sum`: a sum of squares of numbers (`unsigned_square`) is a number.  It may be infinite, but
  it never is the sum of two opposite infinities.
* `level_sub`, `level_div`, `square_eq`: the sign of a zero has no influence on differences and
  quotients other than on the sign of a zero, and none at all on squares.
-/

namespace Autotune.Number

open Float.Model (Format UnpackedFloat)
open Float.Model.UnpackedFloat

/-! ### Packing -/

/-- The sign of an unpacked number; NaN has none. -/
def sign? : UnpackedFloat → Option Sign
  | .notANumber => none
  | .infinity s | .zero s | .finite s .. => some s

lemma toNat_packComponents (s : Sign) (exponent : BitVec 11) (mantissa : BitVec 52) :
    (packComponents .binary64 s exponent mantissa).toNat =
      s.toBitVec.toNat * 2 ^ 63 + exponent.toNat * 2 ^ 52 + mantissa.toNat := by
  unfold packComponents
  rw [BitVec.toNat_append, BitVec.toNat_append, ← Nat.shiftLeft_add_eq_or_of_lt mantissa.isLt,
    ← Nat.shiftLeft_add_eq_or_of_lt exponent.isLt, Nat.shiftLeft_eq, Nat.shiftLeft_eq]
  omega

lemma unpackSign_packComponents (s : Sign) (exponent : BitVec 11) (mantissa : BitVec 52) :
    Sign.ofBitVec (unpackSign (packComponents .binary64 s exponent mantissa)) = s := by
  have pattern := toNat_packComponents s exponent mantissa
  have field : unpackSign (packComponents .binary64 s exponent mantissa) = s.toBitVec := by
    have small := exponent.isLt
    have small' := mantissa.isLt
    refine BitVec.eq_of_toNat_eq ?_
    rw [toNat_unpackSign, pattern]
    omega
  rw [field]
  cases s <;> rfl

lemma sign?_packComponents (s : Sign) (exponent : BitVec 11) (mantissa : BitVec 52) :
    sign? (unpack .binary64 (packComponents .binary64 s exponent mantissa)) =
      if exponent = -1#11 ∧ mantissa ≠ 0#52 then none else some s := by
  have exponent' : unpackExponent (packComponents .binary64 s exponent mantissa) = exponent :=
    unpackExponent_packComponents
  have mantissa' : unpackMantissa (packComponents .binary64 s exponent mantissa) = mantissa :=
    unpackMantissa_packComponents
  have sign := unpackSign_packComponents s exponent mantissa
  unfold unpack
  dsimp only
  rw [exponent', sign]
  by_cases ones : exponent = -1#11
  · rw [if_pos ones, mantissa']
    by_cases whole : mantissa = 0#52
    · rw [if_pos whole, if_neg fun both => both.2 whole]
      rfl
    · rw [if_neg whole, if_pos ⟨ones, whole⟩]
      rfl
  · have number : ¬ (exponent = -1#11 ∧ mantissa ≠ 0#52) := fun both => ones both.1
    rw [if_neg ones, if_neg number]
    by_cases zeros : exponent = 0#_
    · rw [if_pos zeros]
      by_cases whole : unpackMantissa (packComponents .binary64 s exponent mantissa) = 0#_
      · rw [dif_pos whole]
        rfl
      · rw [dif_neg whole]
        rfl
    · rw [if_neg zeros]
      rfl

lemma pack_finite (s : Sign) (m : Nat) (e : Int) (pos : 0 < m) :
    pack .binary64 (.finite s m e pos) =
      if 2 ^ 11 ≤ (e + 1023 + 52).toNat + 1 then packedInfinity .binary64 s
      else if m.log2 + 1 = 53 then
        packComponents .binary64 s (.ofNat 11 (e + 1023 + 52).toNat) (.ofNat 52 m)
      else packComponents .binary64 s 0#11 (.ofNat 52 m) := rfl

/-- **Packing keeps the sign**, and NaN stays NaN. -/
theorem sign?_pack (u : UnpackedFloat) : sign? (unpack .binary64 (pack .binary64 u)) = sign? u := by
  have finite (s : Sign) {exponent : BitVec 11} (mantissa : BitVec 52) (h : exponent ≠ -1#11) :
      sign? (unpack .binary64 (packComponents .binary64 s exponent mantissa)) = some s := by
    rw [sign?_packComponents, if_neg fun both => h both.1]
  cases u with
  | notANumber => rfl
  | infinity s => cases s <;> rfl
  | zero s => cases s <;> rfl
  | finite s m e pos =>
    rw [pack_finite]
    show _ = some s
    split
    · cases s <;> rfl
    case isFalse small =>
      split
      · refine finite s _ fun ones => ?_
        have ones := congrArg BitVec.toNat ones
        simp at ones small
        omega
      · exact finite s _ (by decide)

/-! ### Signs of results -/

lemma sign?_roundWithAccuracy (spec : Format) (s : Sign) (m : Nat) (e : Int) (a : Accuracy) :
    sign? (roundWithAccuracy spec s m e a) = some s := by
  have keeps {n : Nat} {k : Int} :
      sign? (if h : n = 0 then .zero s else .finite s n k (Nat.pos_of_ne_zero h)) = some s := by
    cases n <;> rfl
  exact keeps

lemma sign?_round (spec : Format) (s : Sign) (m : Nat) (e : Int) :
    sign? (UnpackedFloat.round spec s m e) = some s := sign?_roundWithAccuracy ..

lemma isSome_sign?_normalize (spec : Format) (m e : Int) (s : Sign) :
    (sign? (UnpackedFloat.normalize spec m e s)).isSome = true := by
  unfold UnpackedFloat.normalize
  cases compare m 0 with
  | eq => rfl
  | lt | gt =>
    dsimp only
    rw [sign?_round]
    rfl

lemma sign?_normalize_of_pos {m : Int} (pos : 0 < m) (spec : Format) (e : Int) (s : Sign) :
    sign? (UnpackedFloat.normalize spec m e s) = some .positive := by
  unfold UnpackedFloat.normalize
  rw [Int.compare_eq_gt.mpr pos]
  exact sign?_round ..

lemma sign?_sub {spec : Format} {u v : UnpackedFloat} (hu : u.isFinite = true)
    (hv : v.isFinite = true) : (sign? (sub spec u v)).isSome = true := by
  cases u with
  | notANumber | infinity => cases hu
  | zero s =>
    cases v with
    | notANumber | infinity => cases hv
    | zero t => cases s <;> cases t <;> rfl
    | finite => rfl
  | finite s m e =>
    cases v with
    | notANumber | infinity => cases hv
    | zero => rfl
    | finite t m' e' => exact isSome_sign?_normalize ..

lemma sign?_mul_self {spec : Format} {u : UnpackedFloat} (hu : (sign? u).isSome = true) :
    sign? (mul spec u u) = some .positive := by
  have square (s : Sign) : s * s = .positive := by cases s <;> rfl
  cases u with
  | notANumber => cases hu
  | infinity s | zero s => exact congrArg some (square s)
  | finite s m e => exact (sign?_roundWithAccuracy ..).trans (congrArg some (square s))

lemma sign?_add {spec : Format} {u v : UnpackedFloat} (hu : sign? u = some .positive)
    (hv : sign? v = some .positive) : sign? (add spec u v) = some .positive := by
  cases u with
  | notANumber => cases hu
  | infinity s =>
    cases hu
    cases v with
    | notANumber => cases hv
    | infinity => cases hv; rfl
    | zero | finite => rfl
  | zero s =>
    cases hu
    cases v with
    | notANumber => cases hv
    | zero => cases hv; rfl
    | infinity | finite => exact hv
  | finite s m e pos =>
    cases hu
    cases v with
    | notANumber => cases hv
    | infinity | zero => first | exact hv | rfl
    | finite t m' e' pos' =>
      cases hv
      have shifted {m : Nat} (pos : 0 < m) (n : Nat) : 0 < m <<< n := by
        rw [Nat.shiftLeft_eq]
        exact Nat.mul_pos pos (Nat.two_pow_pos n)
      have first := shifted pos (e - min e e').toNat
      have second := shifted pos' (e' - min e e').toNat
      have total : (0 : Int) < (m <<< (e - min e e').toNat : Nat) +
          (m' <<< (e' - min e e').toNat : Nat) := by omega
      exact sign?_normalize_of_pos total ..

/-! ### Numbers without a sign -/

/-- The number is not NaN and has no sign bit. -/
def Unsigned (x : Float) : Prop := sign? x.toModel.unpack = some .positive

variable {a b c d x : Float} {xs : List Float}

lemma isNaN_eq_isNone (x : Float) : x.isNaN = (sign? x.toModel.unpack).isNone := by
  show x.toModel.unpack.isNaN = _
  cases x.toModel.unpack <;> rfl

lemma Unsigned.isNaN (h : Unsigned x) : x.isNaN = false := by
  rw [isNaN_eq_isNone, h]
  rfl

/-- **The difference of finite numbers is a number**, which may be infinite. -/
theorem isNaN_sub (ha : a.isFinite = true) (hb : b.isFinite = true) : (a - b).isNaN = false := by
  have number : (sign? (sub .binary64 a.toModel.unpack b.toModel.unpack)).isSome = true :=
    sign?_sub ha hb
  rw [← sign?_pack] at number
  rw [isNaN_eq_isNone, ← Option.not_isSome, Bool.not_eq_false']
  exact number

/-- **The square of a number has no sign.** -/
theorem unsigned_square (h : x.isNaN = false) : Unsigned (x * x) := by
  rw [isNaN_eq_isNone, ← Option.not_isSome, Bool.not_eq_false'] at h
  have square : sign? (mul .binary64 x.toModel.unpack x.toModel.unpack) = some .positive :=
    sign?_mul_self h
  rw [← sign?_pack] at square
  exact square

lemma Unsigned.add (ha : Unsigned a) (hb : Unsigned b) : Unsigned (a + b) := by
  have sum : sign? (UnpackedFloat.add .binary64 a.toModel.unpack b.toModel.unpack) =
      some .positive := sign?_add ha hb
  rw [← sign?_pack] at sum
  exact sum

/-- The negative zero, from which sums start, adds nothing to a number without a sign. -/
lemma unsigned_negZero_add (h : Unsigned x) : Unsigned (-0.0 + x) := by
  have start : (-0.0 : Float).toModel.unpack = .zero .negative := rfl
  have sum : sign? (add .binary64 (-0.0 : Float).toModel.unpack x.toModel.unpack) =
      some .positive := by
    have sign : sign? x.toModel.unpack = some .positive := h
    rw [start]
    generalize x.toModel.unpack = u at sign
    cases u with
    | notANumber => cases sign
    | zero => cases sign; rfl
    | infinity | finite => exact sign
  rw [← sign?_pack] at sum
  exact sum

lemma Unsigned.foldl_add {start : Float} (hs : Unsigned start) (h : ∀ x ∈ xs, Unsigned x) :
    Unsigned (xs.foldl (· + ·) start) := by
  induction xs generalizing start with
  | nil => exact hs
  | cons x xs ih =>
    obtain ⟨first, rest⟩ := List.forall_mem_cons.mp h
    exact ih (hs.add first) rest

/-- **A sum of numbers without a sign is a number.** -/
theorem isNaN_sum (h : ∀ x ∈ xs, Unsigned x) : (sum xs).isNaN = false := by
  cases xs with
  | nil => rfl
  | cons x xs =>
    obtain ⟨first, rest⟩ := List.forall_mem_cons.mp h
    exact ((unsigned_negZero_add first).foldl_add rest).isNaN

/-! ### The sign of zero does not matter -/

/-- The same unpacked number, or zeros of any signs. -/
def Like (u v : UnpackedFloat) : Prop := u = v ∨ ∃ s t, u = .zero s ∧ v = .zero t

lemma like_of_level (h : level a = level b) : Like a.toModel.unpack b.toModel.unpack := by
  obtain rfl | zeros := eq_or_zeros_of_level h
  · exact .inl rfl
  · exact .inr zeros

namespace Like

variable {spec : Format} {u u' v v' : UnpackedFloat}

lemma level_pack (h : Like u v) :
    level (.ofModel (.pack u)) = level (.ofModel (.pack v)) := by
  obtain rfl | ⟨s, t, rfl, rfl⟩ := h
  · rfl
  · cases s <;> cases t <;> rfl

lemma trans {w : UnpackedFloat} (first : Like u v) (second : Like v w) : Like u w := by
  obtain rfl | ⟨s, t, rfl, rfl⟩ := first
  · exact second
  · obtain rfl | ⟨-, t', -, rfl⟩ := second
    · exact .inr ⟨s, t, rfl, rfl⟩
    · exact .inr ⟨s, t', rfl, rfl⟩

lemma sub (left : Like u u') (right : Like v v') :
    Like (UnpackedFloat.sub spec u v) (UnpackedFloat.sub spec u' v') := by
  have first : Like (UnpackedFloat.sub spec u v) (UnpackedFloat.sub spec u' v) := by
    obtain rfl | ⟨s, t, rfl, rfl⟩ := left
    · exact .inl rfl
    · cases v with
      | zero r => exact .inr (by cases s <;> cases t <;> cases r <;> exact ⟨_, _, rfl, rfl⟩)
      | _ => exact .inl rfl
  have second : Like (UnpackedFloat.sub spec u' v) (UnpackedFloat.sub spec u' v') := by
    obtain rfl | ⟨s, t, rfl, rfl⟩ := right
    · exact .inl rfl
    · cases u' with
      | zero r => exact .inr (by cases s <;> cases t <;> cases r <;> exact ⟨_, _, rfl, rfl⟩)
      | _ => exact .inl rfl
  exact first.trans second

lemma div (h : Like u u') (nonzero : ∀ s, v ≠ .zero s) :
    Like (UnpackedFloat.div spec u v) (UnpackedFloat.div spec u' v) := by
  obtain rfl | ⟨s, t, rfl, rfl⟩ := h
  · exact .inl rfl
  · cases v with
    | notANumber => exact .inl rfl
    | zero r => exact absurd rfl (nonzero r)
    | infinity | finite => exact .inr ⟨_, _, rfl, rfl⟩

lemma mul_self (h : Like u v) : UnpackedFloat.mul spec u u = UnpackedFloat.mul spec v v := by
  obtain rfl | ⟨s, t, rfl, rfl⟩ := h
  · rfl
  · cases s <;> cases t <;> rfl

end Like

lemma level_sub (left : level a = level b) (right : level c = level d) :
    level (a - c) = level (b - d) :=
  ((like_of_level left).sub (like_of_level right)).level_pack

lemma level_div (h : level a = level b) (pos : 0 < c) : level (a / c) = level (b / c) :=
  ((like_of_level h).div fun _ zero => not_pos_of_zero zero pos).level_pack

lemma square_eq (h : level a = level b) : a * a = b * b := by
  show Float.ofModel (.pack _) = .ofModel (.pack _)
  rw [(like_of_level h).mul_self]

end Autotune.Number
