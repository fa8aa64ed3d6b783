import Autotune.Constraint.Basic
import Autotune.Rank.Order

/-!
# Blueprints

A `Blueprint` describes a block by the names of its knobs and metrics, before there is any
knowledge.  Its states, constraints and adaptors refer to fields by name.
-/

namespace Autotune

/-- A field by its segment and its name. -/
structure FieldRef where
  segment : Segment
  name : String
deriving BEq

/-- A term of a planned rank. -/
structure TermPlan where
  field : FieldRef
  bound : Bound
  sigma : Float
  coefficient : Float
deriving BEq

/-- A planned constraint. -/
structure ConstraintPlan where
  field : FieldRef
  comparison : Comparison
  target : Float
  confidence : Float
  inertia : UInt32
  priority : UInt32
deriving BEq

/-- A planned state. -/
structure StatePlan where
  name : String
  objective : Objective
  composer : Composer
  rank : List TermPlan
  constraints : List ConstraintPlan
deriving BEq

/-- A planned adaptor and the window of its monitor. -/
structure AdaptorPlan where
  metric : String
  inertia : Nat
  mode : CorrectionMode
  window : Nat
deriving BEq

/-- A block by the names of its fields. -/
structure Blueprint where
  name : String
  knobs : List String
  metrics : List String
  states : List StatePlan
  activeState : Option String
  adaptors : List AdaptorPlan
deriving BEq

namespace Blueprint

/-- The index of a field, which is the place of its name. -/
def indexOf (d : Blueprint) (field : FieldRef) : Except Fault Nat :=
  let names := match field.segment with
    | .knobs => d.knobs
    | .metrics => d.metrics
  match names.findIdx? fun s => s == field.name with
  | some i => .ok i
  | none => .error (.unknownField field.segment field.name)

def metricIndex (d : Blueprint) (name : String) : Except Fault Nat := d.indexOf ⟨.metrics, name⟩

end Blueprint

end Autotune
