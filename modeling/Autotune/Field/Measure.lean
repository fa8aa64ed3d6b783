import Autotune.Number.Binary

/-!
# Numbers in fields

A field holds numbers of several types.  The type class `Measure` says how each type is read at 64
bits: `Measure.toFloat` is the value to compute with, and `Measure.toBits` identifies it.

Arithmetic has a single NaN, but each NaN that is put into a field has a sign and a payload of its
own.  A `Stored` number keeps them: no computation sees them, and `Measure.toBits` gives them back.
-/

namespace Autotune

/-- A number type that can be read as a 64-bit number. -/
class Measure (α : Type) where
  /-- The value. -/
  toFloat : α → Float
  /-- The pattern of 64 bits that stands for the value. -/
  toBits : α → UInt64 := fun a => (toFloat a).toBits

instance : Measure Float where
  toFloat := id

instance : Measure Float32 where
  toFloat := Number.widen

instance : Measure Int where
  toFloat := Float.ofInt

/-- A floating-point number of which every bit is kept. -/
inductive Stored (α : Type) where
  | number (x : α)
  /-- A NaN, by the bits that stand for it at 64 bits. -/
  | nan (bits : UInt64)

instance {α : Type} [Measure α] : Measure (Stored α) where
  toFloat
    | .number x => Measure.toFloat x
    | .nan _ => 0 / 0
  toBits
    | .number x => Measure.toBits x
    | .nan bits => bits

namespace Stored

/-- The number that a bit pattern stands for. -/
def ofBits (bits : UInt64) : Stored Float :=
  let x := Float.ofBits bits
  if x.isNaN then .nan bits else .number x

/-- The nearest 32-bit number.  A NaN keeps the sign and the upper bits of its payload, and becomes
a quiet one, which the highest bit of the payload marks. -/
def narrow : Stored Float → Stored Float32
  | number x => .number (Number.narrow x)
  | nan bits => .nan ((bits ||| 0x0008000000000000) &&& 0xffffffffe0000000)

/-- Stored numbers are compared by value, so a NaN differs from itself. -/
instance : BEq (Stored Float) := ⟨fun a b => Measure.toFloat a == Measure.toFloat b⟩

end Stored

end Autotune
