import Autotune.Feedback.Correction
import Autotune.Point.Basic

/-!
# Selectors

A `Selector` names one field of an operating point and one bound of that field.  It can be read as
predicted (`Selector.read`) or with the corrections of the metrics applied to the average
(`Selector.readCorrected`).  Knobs are never corrected.
-/

namespace Autotune

/-- Which bound of a field is read. -/
inductive Bound where
  | lower
  | average
  | upper
deriving DecidableEq

instance : Named Bound where
  all := [.lower, .average, .upper]
  name
    | .lower => "Lower"
    | .average => "Average"
    | .upper => "Upper"
  mem_all a := by cases a <;> simp
  name_injective a b := by cases a <;> cases b <;> simp

/-- One bound of one field, `sigma` standard deviations away from the average. -/
structure Selector where
  segment : Segment
  index : Nat
  bound : Bound
  sigma : Float

namespace Selector

/-- The average of a field. -/
def averageOf (segment : Segment) (index : Nat) : Selector := ⟨segment, index, .average, 0⟩

/-- The selector of the same field's lower bound. -/
def lower (s : Selector) (sigma : Float) : Selector := { s with bound := .lower, sigma := sigma }

/-- The selector of the same field's upper bound. -/
def upper (s : Selector) (sigma : Float) : Selector := { s with bound := .upper, sigma := sigma }

/-- The selector of a bound of the same field.  The average is no distance away from itself, so it
has no use for `sigma`. -/
def withBound (s : Selector) (bound : Bound) (sigma : Float) : Selector :=
  match bound with
  | .lower => s.lower sigma
  | .average => .averageOf s.segment s.index
  | .upper => s.upper sigma

/-- The signed number of deviations that is added to the average. -/
def k (s : Selector) : Float :=
  match s.bound with
  | .lower => -s.sigma
  | .average => 0
  | .upper => s.sigma

/-- Accepts a selector whose index is within its segment, for the given segment sizes. -/
def check (s : Selector) (kn mn : Nat) : Except Fault Unit :=
  let size := match s.segment with
    | .knobs => kn
    | .metrics => mn
  if s.index < size then .ok () else .error (.indexOutOfRange s.segment s.index size)

variable {kn mn : Nat}

/-- The predicted bound.  A field that the point does not have reads NaN. -/
def read (s : Selector) (p : OperatingPoint kn mn) : Float :=
  match p.field s.segment s.index with
  | .ok reading => reading.bound s.k
  | .error _ => 0 / 0

/-- The bound with the average of a metric corrected and its deviation kept. -/
def readCorrected (s : Selector) (p : OperatingPoint kn mn) (corrections : Corrections) : Float :=
  match s.segment with
  | .knobs => s.read p
  | .metrics =>
    match p.field .metrics s.index with
    | .ok reading => corrections.correct s.index reading.average + s.k * reading.deviation
    | .error _ => 0 / 0

end Selector

end Autotune
