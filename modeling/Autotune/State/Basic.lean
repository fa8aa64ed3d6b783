import Autotune.Constraint.Basic
import Autotune.Journal.Operation
import Autotune.Knowledge.Basic
import Autotune.Rank.Order
import Autotune.Roster

/-!
# States

A `State` is a regime of operation: a rank that says which points are good, and constraints, one per
priority, that say which are allowed.  A state fits a set of points (`State.validate`) when its
selectors exist and its rank is defined on every point.
-/

namespace Autotune

open Operation (read check ensure change)

instance : Keyed Constraint UInt32 := ⟨Constraint.priority⟩

/-- A rank and constraints by ascending priority. -/
structure State where
  name : String
  rank : Rank
  constraints : Roster Constraint

instance : Keyed State String := ⟨State.name⟩

namespace State

def ofRank (name : String) (rank : Rank) : State := ⟨name, rank, .empty⟩

/-- The constraint at a priority. -/
def constraint (s : State) (priority : UInt32) : Except Fault Constraint :=
  match s.constraints.get? priority with
  | some c => .ok c
  | none => .error (.unknownConstraint s.name priority)

/-- Adds a constraint at a priority that is free. -/
def addConstraint (c : Constraint) : Operation State Unit := do
  let s ← read
  ensure (¬ s.constraints.contains c.priority) (.duplicatePriority s.name c.priority)
  change fun s => { s with constraints := s.constraints.insert c }

/-- Takes out the constraint at a priority. -/
def removeConstraint (priority : UInt32) : Operation State Constraint := do
  let c ← check ((← read).constraint priority)
  change fun s => { s with constraints := s.constraints.erase priority }
  return c

/-- Moves the target of the constraint at a priority. -/
def setTarget (priority : UInt32) (target : Float) : Operation State Unit := do
  let _ ← check ((← read).constraint priority)
  change fun s =>
    { s with
      constraints := s.constraints.modify priority (fun c => c.withTarget target) fun _ => rfl }

/-- Accepts a set of points on which the state can decide: first the selectors of the rank are
checked, then those of the constraints, then the rank at every point. -/
def validate {kn mn : Nat} (s : State) (points : List (OperatingPoint kn mn)) :
    Except Fault Unit := do
  s.rank.formula.validateIndices kn mn
  s.constraints.items.forM fun c => c.selector.check kn mn
  s.rank.formula.validatePoints points

def anyViolated (s : State) : Bool := s.constraints.items.any fun c => c.status = .violated

/-- Lets one constraint take the observed value of its metric, if there is one. -/
def observeConstraint (state : String) (observed : Nat → Option Float) (c : Constraint) :
    Logged (Bool × Constraint) :=
  match c.metric?.bind observed with
  | none => .quiet (false, c)
  | some value =>
    let (changed, next) := c.observe value
    ⟨(changed, next),
      if changed then [.statusChanged state c.priority next.status value] else []⟩

theorem observeConstraint_priority (state : String) (observed : Nat → Option Float)
    (c : Constraint) : (observeConstraint state observed c).value.2.priority = c.priority := by
  unfold observeConstraint
  split <;> rfl

/-- Lets every constraint on a metric take the observed value of that metric.  The flag tells
whether a reported status changed. -/
def observe (s : State) (observed : Nat → Option Float) : Logged (Bool × State) :=
  (s.constraints.each (observeConstraint s.name observed)
    (observeConstraint_priority s.name observed)).map fun (flags, constraints) =>
      (flags.any id, { s with constraints := constraints })

/-- Forgets what was observed. -/
def reset (s : State) : State :=
  { s with constraints := s.constraints.map Constraint.reset fun _ => rfl }

end State

end Autotune
