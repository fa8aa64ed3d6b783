import Autotune.Document.Codec
import Autotune.Constraint.Basic
import Autotune.Journal.Telemetry
import Autotune.Rank.Order

/-!
# The written forms of settings and reports

Selectors, ranks, goals, distributions, degradations and counters as documents.  Every field is
required.  A written formula is taken as it stands, whatever its number of terms, while the
deviation of a written distribution is checked.
-/

namespace Autotune

namespace Document

instance : Coded Selector where
  encode s := .object [("segment", encode s.segment), ("index", encode s.index),
    ("bound", encode s.bound), ("sigma", encode s.sigma)]
  decode v := do
    let fields ← fieldsOf ["segment", "index", "bound", "sigma"] v
    return ⟨← required fields "segment", ← required fields "index", ← required fields "bound",
      ← required fields "sigma"⟩

instance : Coded Term where
  encode t := .object [("selector", encode t.selector), ("coefficient", encode t.coefficient)]
  decode v := do
    let fields ← fieldsOf ["selector", "coefficient"] v
    return ⟨← required fields "selector", ← required fields "coefficient"⟩

instance : Coded Formula where
  encode f := .object [("composer", encode f.composer), ("terms", encode f.terms)]
  decode v := do
    let fields ← fieldsOf ["composer", "terms"] v
    return ⟨← required fields "composer", ← required fields "terms"⟩

instance : Coded Rank where
  encode r := .object [("objective", encode r.objective), ("evaluator", encode r.formula)]
  decode v := do
    let fields ← fieldsOf ["objective", "evaluator"] v
    return ⟨← required fields "objective", ← required fields "evaluator"⟩

instance : Coded Goal where
  encode g := .object [("comparison", encode g.comparison), ("target", encode g.target)]
  decode v := do
    let fields ← fieldsOf ["comparison", "target"] v
    return ⟨← required fields "comparison", ← required fields "target"⟩

/-- Both numbers are required, and the deviation has to be one. -/
instance {α : Type} [Measure α] [Coded α] : Coded (Distribution α) where
  encode d := .object [("mean", encode d.mean), ("standard_deviation", encode d.deviation)]
  decode v := do
    let fields ← fieldsOf ["mean", "standard_deviation"] v
    let mean ← required fields "mean"
    let deviation ← required fields "standard_deviation"
    match Distribution.ofMeanDeviation mean deviation with
    | .ok d => return d
    | .error fault => throw (.refused fault)

/-- The written form of a value that belongs to one of several cases: an object with the case, and
the record of its only field. -/
def caseOf (label field : String) (v : Value) : Value := .object [(label, .object [(field, v)])]

/-- The record of a case is read like any other. -/
instance : Coded Degradation where
  encode
    | .emptyEligibleSet violation => caseOf "EmptyEligibleSet" "violation" (encode violation)
    | .undefinedCorrection metric => caseOf "UndefinedCorrection" "metric" (encode metric)
    | .undefinedRank excluded => caseOf "UndefinedRank" "excluded" (encode excluded)
  decode
    | .object [("EmptyEligibleSet", v)] => do
      let fields ← fieldsOf ["violation"] v
      return .emptyEligibleSet (← required fields "violation")
    | .object [("UndefinedCorrection", v)] => do
      let fields ← fieldsOf ["metric"] v
      return .undefinedCorrection (← required fields "metric")
    | .object [("UndefinedRank", v)] => do
      let fields ← fieldsOf ["excluded"] v
      return .undefinedRank (← required fields "excluded")
    | _ => throw .malformed

instance : Coded Counters where
  encode c := .object [("degraded_selections", encode c.degradedSelections),
    ("undefined_corrections", encode c.undefinedCorrections),
    ("undefined_ranks", encode c.undefinedRanks), ("knowledge_updates", encode c.knowledgeUpdates),
    ("state_switches", encode c.stateSwitches), ("selections", encode c.selections)]
  decode v := do
    let fields ← fieldsOf ["degraded_selections", "undefined_corrections", "undefined_ranks",
      "knowledge_updates", "state_switches", "selections"] v
    return ⟨← required fields "degraded_selections", ← required fields "undefined_corrections",
      ← required fields "undefined_ranks", ← required fields "knowledge_updates",
      ← required fields "state_switches", ← required fields "selections"⟩

/-! ### The journal -/

/-- A field of a record as a document. -/
def datum : Datum → Value
  | .text s => .text s
  | .count n => .integer n
  | .number x => .number x

end Document

/-- A record as one flat object: its level, its message and its fields. -/
def Record.document (r : Record) : Document.Value :=
  .object ([("level", .text (name r.severity)), ("message", .text r.message)] ++
    r.fields.map fun (label, d) => (label, Document.datum d))

end Autotune
