import Autotune.Field.Distribution

/-!
# Fields

A `Field` is the value of a knob or a metric: a plain number or a distribution.  All fields are read
alike, as an average and a standard deviation (`Field.reading`), and a plain number has no spread.
The bound of a field at `k` is `average + k * deviation`.  `Field.normalBits` condenses a field to
the bits of its average, which a hash is made of.
-/

namespace Autotune

/-- The value of a knob or a metric. -/
inductive Field where
  | integer (value : Int)
  | double (value : Stored Float)
  | single (value : Stored Float32)
  | spread (d : Distribution (Stored Float))
  | spread32 (d : Distribution (Stored Float32))
  | spreadInt (d : Distribution Int)

/-- An average and a standard deviation. -/
structure Reading where
  average : Float
  deviation : Float

/-- What a field says, as 64-bit numbers. -/
def Field.reading : Field → Reading
  | integer value => ⟨Measure.toFloat value, 0⟩
  | double value => ⟨Measure.toFloat value, 0⟩
  | single value => ⟨Measure.toFloat value, 0⟩
  | spread d => ⟨Measure.toFloat d.mean, Measure.toFloat d.deviation⟩
  | spread32 d => ⟨Measure.toFloat d.mean, Measure.toFloat d.deviation⟩
  | spreadInt d => ⟨Measure.toFloat d.mean, Measure.toFloat d.deviation⟩

def Field.average (field : Field) : Float := field.reading.average

def Field.deviation (field : Field) : Float := field.reading.deviation

/-- The bits of the average of a field. -/
def Field.bits : Field → UInt64
  | integer value => Measure.toBits value
  | double value => Measure.toBits value
  | single value => Measure.toBits value
  | spread d => Measure.toBits d.mean
  | spread32 d => Measure.toBits d.mean
  | spreadInt d => Measure.toBits d.mean

/-- The bits of the average of a field, with both zeros as the positive one. -/
def Field.normalBits (field : Field) : UInt64 := if field.average == 0 then 0 else field.bits

namespace Reading

/-- The bound `k` deviations above the average. -/
def bound (r : Reading) (k : Float) : Float := r.average + k * r.deviation

/-- The bound `sigma` deviations below the average. -/
def lowerBound (r : Reading) (sigma : Float) : Float := r.bound (-sigma)

/-- The bound `sigma` deviations above the average. -/
def upperBound (r : Reading) (sigma : Float) : Float := r.bound sigma

/-- Average and deviation as text, joined by a tilde. -/
def text (r : Reading) : String := Number.text r.average ++ "~" ++ Number.text r.deviation

end Reading

end Autotune
