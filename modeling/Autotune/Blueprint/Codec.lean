import Autotune.Blueprint.Basic
import Autotune.Document.Codec

/-!
# The written form of blueprints

A written blueprint may leave out what has a usual value: the bound, distance and weight of a term,
the confidence and inertia of a constraint, the objective and the lists of a state, the mode and
window of an adaptor, and everything of a block but its name and its fields.  Writing puts all of
them down.
-/

namespace Autotune.Document

instance : Coded FieldRef where
  encode r := .object [("segment", encode r.segment), ("name", encode r.name)]
  decode v := do
    let fields ← fieldsOf ["segment", "name"] v
    return ⟨← required fields "segment", ← required fields "name"⟩

instance : Coded TermPlan where
  encode t := .object [("field", encode t.field), ("bound", encode t.bound),
    ("sigma", encode t.sigma), ("coefficient", encode t.coefficient)]
  decode v := do
    let fields ← fieldsOf ["field", "bound", "sigma", "coefficient"] v
    return ⟨← required fields "field", ← optional fields "bound" .average,
      ← optional fields "sigma" 0, ← optional fields "coefficient" 1⟩

instance : Coded ConstraintPlan where
  encode c := .object [("field", encode c.field), ("comparison", encode c.comparison),
    ("target", encode c.target), ("confidence", encode c.confidence),
    ("inertia", encode c.inertia), ("priority", encode c.priority)]
  decode v := do
    let fields ←
      fieldsOf ["field", "comparison", "target", "confidence", "inertia", "priority"] v
    return ⟨← required fields "field", ← required fields "comparison", ← required fields "target",
      ← optional fields "confidence" 0, ← optional fields "inertia" 0,
      ← required fields "priority"⟩

instance : Coded StatePlan where
  encode s := .object [("name", encode s.name), ("objective", encode s.objective),
    ("composer", encode s.composer), ("rank", encode s.rank),
    ("constraints", encode s.constraints)]
  decode v := do
    let fields ← fieldsOf ["name", "objective", "composer", "rank", "constraints"] v
    return ⟨← required fields "name", ← optional fields "objective" .minimize,
      ← required fields "composer", ← optional fields "rank" [],
      ← optional fields "constraints" []⟩

instance : Coded AdaptorPlan where
  encode a := .object [("metric", encode a.metric), ("inertia", encode a.inertia),
    ("mode", encode a.mode), ("window", encode a.window)]
  decode v := do
    let fields ← fieldsOf ["metric", "inertia", "mode", "window"] v
    return ⟨← required fields "metric", ← required fields "inertia",
      ← optional fields "mode" .multiplicative, ← optional fields "window" 1⟩

instance : Coded Blueprint where
  encode d := .object [("name", encode d.name), ("knobs", encode d.knobs),
    ("metrics", encode d.metrics), ("states", encode d.states),
    ("active_state", encode d.activeState), ("adaptors", encode d.adaptors)]
  decode v := do
    let fields ←
      fieldsOf ["name", "knobs", "metrics", "states", "active_state", "adaptors"] v
    return ⟨← required fields "name", ← required fields "knobs", ← required fields "metrics",
      ← optional fields "states" [], ← optional fields "active_state" none,
      ← optional fields "adaptors" []⟩

end Autotune.Document
