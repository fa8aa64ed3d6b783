import Autotune.Fault
import Autotune.Field.Measure

/-!
# Distributions

A `Distribution` is a mean and a standard deviation, both of one number type.  It can only be built
with a deviation that is neither negative nor NaN.
-/

namespace Autotune

/-- Whether a number may serve as a standard deviation. -/
def isDeviation (x : Float) : Bool := !(x < 0 || x.isNaN)

theorem isDeviation_iff {x : Float} : isDeviation x = true ↔ ¬ x < 0 ∧ x.isNaN = false := by
  simp [isDeviation]

/-- A mean with a spread around it. -/
structure Distribution (α : Type) [Measure α] where
  mean : α
  deviation : α
  valid : isDeviation (Measure.toFloat deviation) = true

namespace Distribution

variable {α : Type} [Measure α]

/-- The distribution with the given mean and deviation, if the deviation may be one. -/
def ofMeanDeviation (mean deviation : α) : Except Fault (Distribution α) :=
  if h : isDeviation (Measure.toFloat deviation) = true then .ok ⟨mean, deviation, h⟩
  else .error (.invalidDeviation (Measure.toFloat deviation))

/-- Mean and deviation as text, joined by a tilde. -/
def text (d : Distribution α) : String :=
  Number.text (Measure.toFloat d.mean) ++ "~" ++ Number.text (Measure.toFloat d.deviation)

/-- Distributions are equal when both their numbers are. -/
instance [BEq α] : BEq (Distribution α) :=
  ⟨fun a b => a.mean == b.mean && a.deviation == b.deviation⟩

end Distribution

end Autotune
