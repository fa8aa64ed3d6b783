import Autotune.Block.Builder
import Autotune.Blueprint.Basic

/-!
# From a blueprint to a builder

`Blueprint.builder` replaces every name by an index and gives each adaptor its monitor.  Every
metric that a constraint is about gets a monitor too; where it is adapted, that of its adaptor is
used.  What is still missing is the knowledge.
-/

namespace Autotune.Blueprint

/-- The average of a named field. -/
def selector (d : Blueprint) (field : FieldRef) : Except Fault Selector :=
  (d.indexOf field).map fun i => .averageOf field.segment i

/-- A planned term with its index. -/
def term (d : Blueprint) (plan : TermPlan) : Except Fault Term :=
  (d.selector plan.field).map fun field =>
    ⟨field.withBound plan.bound plan.sigma, plan.coefficient⟩

/-- A planned rank.  A sum of no terms holds all points equal, whatever its objective. -/
def rank (objective : Objective) (composer : Composer) (terms : List Term) : Except Fault Rank :=
  if terms.isEmpty && composer = .linear then .ok .unranked
  else (Formula.ofTerms composer terms).map fun formula => ⟨objective, formula⟩

/-- A planned constraint with its index. -/
def constraint (d : Blueprint) (plan : ConstraintPlan) : Except Fault Constraint :=
  (d.selector plan.field).map fun field =>
    .on field ⟨plan.comparison, plan.target⟩ plan.confidence plan.inertia plan.priority

/-- A planned state with its indices. -/
def state (d : Blueprint) (plan : StatePlan) : Except Fault State := do
  let terms ← plan.rank.mapM d.term
  let rank ← rank plan.objective plan.composer terms
  let empty := State.ofRank plan.name rank
  let addAll := plan.constraints.forM fun c => do
    State.addConstraint (← Operation.check (d.constraint c))
  addAll.finish empty

/-- Planned adaptors with their indices, each with a monitor of its own. -/
def resolveAdaptors (d : Blueprint) (bank : Bank) :
    List AdaptorPlan → Except Fault (List Adaptor × Bank)
  | [] => .ok ([], bank)
  | plan :: rest => do
    let metric ← d.metricIndex plan.metric
    let (monitor, bank) := bank.allocate plan.window
    let (adaptors, bank) ← d.resolveAdaptors bank rest
    return (.fresh metric monitor plan.inertia plan.mode :: adaptors, bank)

/-- The metrics that some constraint is about, in ascending order. -/
def constrainedMetrics (d : Blueprint) : List Nat :=
  let refs := (d.states.flatMap StatePlan.constraints).map ConstraintPlan.field
  let indices := (refs.filter fun field => field.segment = .metrics).filterMap fun field =>
    (d.indexOf field).toOption
  (List.range d.metrics.length).filter indices.contains

/-- The parts of the block, for the given numbers of knobs and metrics, and the bank with its
monitors. -/
def builder (d : Blueprint) (kn mn : Nat) (bank : Bank) : Except Fault (Builder kn mn × Bank) := do
  if d.knobs.length ≠ kn then .error (.arityMismatch kn d.knobs.length)
  if d.metrics.length ≠ mn then .error (.arityMismatch mn d.metrics.length)
  let states ← d.states.mapM d.state
  let (adaptors, bank) ← d.resolveAdaptors bank d.adaptors
  let (watched, bank) :=
    bank.allocateEach (d.constrainedMetrics.map fun metric => (metric, Monitor.defaultCapacity))
  return (⟨d.name, [], states, d.activeState, adaptors, watched⟩, bank)

end Autotune.Blueprint
