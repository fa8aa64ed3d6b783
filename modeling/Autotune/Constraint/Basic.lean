import Autotune.Constraint.Debounce
import Autotune.Goal
import Autotune.Rank.Selector

/-!
# Constraints

A `Constraint` is a goal on one bound of one field.  Before a point is chosen it filters by the
corrected prediction (`Constraint.admits`); while a point runs it follows what is observed
(`Constraint.observe`).  A lower limit reads the lower bound of its field and an upper limit the
upper one, `confidence` deviations away from the average.
-/

namespace Autotune

/-- A goal on a bound of a field, with the status that was observed last. -/
structure Constraint where
  priority : UInt32
  selector : Selector
  goal : Goal
  confidence : Float
  tracker : Debounce

namespace Constraint

/-- A fresh constraint on a field.  The comparison decides which bound of the field is read. -/
def on (field : Selector) (goal : Goal) (confidence : Float) (inertia priority : UInt32) :
    Constraint where
  priority := priority
  selector :=
    if goal.comparison.isLowerLimit then field.lower confidence else field.upper confidence
  goal := goal
  confidence := confidence
  tracker := .start inertia

/-- The reported status. -/
def status (c : Constraint) : Status := c.tracker.status

/-- The metric that the constraint is about; knobs have none. -/
def metric? (c : Constraint) : Option Nat :=
  match c.selector.segment with
  | .metrics => some c.selector.index
  | .knobs => none

/-- The constraint with another target. -/
def withTarget (c : Constraint) (target : Float) : Constraint :=
  { c with goal := { c.goal with target := target } }

/-- Takes an observed value, which votes by the goal alone.  The flag tells whether the reported
status changed. -/
def observe (c : Constraint) (value : Float) : Bool × Constraint :=
  let (changed, tracker) := c.tracker.vote (c.goal.isMet value)
  (changed, { c with tracker := tracker })

/-- Forgets what was observed. -/
def reset (c : Constraint) : Constraint := { c with tracker := c.tracker.reset }

variable {kn mn : Nat}

/-- The corrected bound of a point. -/
def value (c : Constraint) (p : OperatingPoint kn mn) (corrections : Corrections) : Float :=
  c.selector.readCorrected p corrections

/-- Whether the corrected bound of a point meets the goal. -/
def admits (c : Constraint) (p : OperatingPoint kn mn) (corrections : Corrections) : Bool :=
  c.goal.isMet (c.value p corrections)

/-- By how much the corrected bound of a point misses the goal. -/
def violation (c : Constraint) (p : OperatingPoint kn mn) (corrections : Corrections) : Float :=
  c.goal.relativeError (c.value p corrections)

end Constraint

end Autotune
