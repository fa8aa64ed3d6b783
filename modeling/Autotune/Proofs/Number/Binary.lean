import Autotune.Number.Binary
import Autotune.Proofs.Number.Order

/-!
# The parts of a number

The parts of a 64-bit number determine its bit pattern.  The pattern of a finite number is its sign
and the `Magnitude.size` of its magnitude, and there is only one NaN.

* `valid_parts`: which magnitudes there are;
* `parts_injective`: the parts tell numbers apart.
-/

namespace Autotune.Number

/-! ### The magnitudes of 64-bit numbers -/

/-- The magnitude of a 64-bit number: the leading bit of the significand is set unless the exponent
is the least one. -/
structure Magnitude.Valid (m : Magnitude) : Prop where
  lt : m.significand < 2 ^ 53
  least : -1074 ≤ m.exponent
  most : m.exponent ≤ 971
  normal : m.exponent = -1074 ∨ 2 ^ 52 ≤ m.significand
  narrow : m.narrow = true ↔ m.significand = 2 ^ 52 ∧ -1074 < m.exponent

/-- The bit pattern of a magnitude. -/
def Magnitude.size (m : Magnitude) : Nat := (m.exponent + 1074).toNat * 2 ^ 52 + m.significand

/-- The bit pattern of a sign. -/
def signBit (negative : Bool) : Nat := if negative then 2 ^ 63 else 0

lemma Magnitude.Valid.eq_of_size {m m' : Magnitude} (h : m.Valid) (h' : m'.Valid)
    (same : m.size = m'.size) : m = m' := by
  obtain ⟨lt, least, -, normal, narrow⟩ := h
  obtain ⟨lt', least', -, normal', narrow'⟩ := h'
  obtain ⟨s, e, n⟩ := m
  obtain ⟨s', e', n'⟩ := m'
  simp only [size] at *
  obtain rfl : s = s' := by omega
  obtain rfl : e = e' := by omega
  obtain rfl : n = n' := Bool.eq_iff_iff.mpr (narrow.trans narrow'.symm)
  rfl

/-- The magnitude of the parts is one of a 64-bit number. -/
def Parts.Valid : Parts → Prop
  | .finite _ m => m.Valid
  | _ => True

/-- The bit pattern that parts come from.  NaN has only one. -/
def Parts.bits : Parts → Nat
  | .nan => 2047 * 2 ^ 52 + 2 ^ 51
  | .infinite negative => signBit negative + 2047 * 2 ^ 52
  | .finite negative m => signBit negative + m.size

/-! ### Taking a bit pattern apart -/

lemma decode_spec {bits : Nat} (bound : bits < 2 ^ 64)
    (nan : bits / 2 ^ 52 % 2 ^ 11 = 2047 → bits % 2 ^ 52 ≠ 0 → bits = 2047 * 2 ^ 52 + 2 ^ 51) :
    (binary64.decode bits).Valid ∧ (binary64.decode bits).bits = bits := by
  have leading : Nat.pow 2 52 = 2 ^ 52 := rfl
  have fields : Nat.pow 2 11 = 2048 := rfl
  simp only [Layout.decode, binary64, leading, fields]
  split
  case isTrue ones =>
    split
    case isTrue zero =>
      refine ⟨trivial, ?_⟩
      simp only [Parts.bits, signBit, beq_iff_eq]
      split <;> omega
    case isFalse fraction =>
      refine ⟨trivial, ?_⟩
      rw [Parts.bits]
      exact (nan ones fraction).symm
  case isFalse finite =>
    split
    case isTrue zero =>
      refine ⟨?_, ?_⟩
      · rw [Parts.Valid]
        constructor <;> grind
      · have least : (2 - ((2048 / 2 : ℕ) : ℤ) - (52 : ℕ) + 1074).toNat = 0 := rfl
        simp only [Parts.bits, signBit, Magnitude.size, beq_iff_eq, least]
        split <;> omega
    case isFalse normal =>
      refine ⟨?_, ?_⟩
      · rw [Parts.Valid]
        constructor <;> grind
      · simp only [Parts.bits, signBit, Magnitude.size, beq_iff_eq]
        split <;> omega

lemma toNat_toBits_of_nan (x : Float) (ones : x.toBits.toNat / 2 ^ 52 % 2 ^ 11 = 2047)
    (fraction : x.toBits.toNat % 2 ^ 52 ≠ 0) : x.toBits.toNat = 2047 * 2 ^ 52 + 2 ^ 51 := by
  have exponent := toNat_unpackExponent x.toModel.toBits.toBitVec
  have mantissa := toNat_unpackMantissa x.toModel.toBits.toBitVec
  have canonical := x.toModel.valid.eq_packedNaN (BitVec.eq_of_toNat_eq (exponent.trans ones))
    fun zero => fraction (by rw [zero] at mantissa; exact mantissa.symm)
  exact congrArg BitVec.toNat canonical

theorem valid_parts (x : Float) : (parts x).Valid :=
  (decode_spec x.toBits.toNat_lt (toNat_toBits_of_nan x)).1

lemma bits_parts (x : Float) : (parts x).bits = x.toBits.toNat :=
  (decode_spec x.toBits.toNat_lt (toNat_toBits_of_nan x)).2

/-- **The parts tell numbers apart.** -/
theorem parts_injective {x y : Float} (h : parts x = parts y) : x = y :=
  eq_of_toNat_toBits (by rw [← bits_parts, h, bits_parts])

end Autotune.Number
