import Autotune.Feedback.Adaptor
import Autotune.Point.Basic
import Autotune.Roster

/-!
# The adaptors of a block

At most one adaptor per metric, in the order of the metrics.  Together they yield the `Corrections`
that every decision reads.
-/

namespace Autotune

instance : Keyed Adaptor Nat := ⟨Adaptor.metric⟩

/-- Adaptors of different metrics, by ascending metric. -/
abbrev Adaptors := Roster Adaptor

namespace Adaptors

/-- Adds an adaptor for a metric that has none. -/
def add (as : Adaptors) (a : Adaptor) : Except Fault Adaptors :=
  if as.contains a.metric then .error (.duplicateAdaptor a.metric) else .ok (as.insert a)

/-- Accepts adaptors whose metrics all exist, for the given number of metrics. -/
def validate (as : Adaptors) (mn : Nat) : Except Fault Unit :=
  match as.items.find? fun a => mn ≤ a.metric with
  | some a => .error (.indexOutOfRange .metrics a.metric mn)
  | none => .ok ()

/-- Lets one adaptor compare its monitor with the prediction of the running point, if that has the
adaptor's metric. -/
def evaluateAt {kn mn : Nat} (block : String) (bank : Bank) (running : OperatingPoint kn mn)
    (a : Adaptor) : Logged (Bool × Adaptor) :=
  match running.field .metrics a.metric with
  | .ok predicted => a.evaluate block bank predicted
  | .error _ => .quiet (false, a)

theorem evaluateAt_metric {kn mn : Nat} (block : String) (bank : Bank)
    (running : OperatingPoint kn mn) (a : Adaptor) :
    (evaluateAt block bank running a).value.2.metric = a.metric := by
  unfold evaluateAt
  split
  · unfold Adaptor.evaluate
    split <;> rfl
  · rfl

/-- Lets every adaptor compare its monitor with the prediction of the running point.  The number
counts those that had something to compare. -/
def evaluate {kn mn : Nat} (as : Adaptors) (block : String) (bank : Bank)
    (running : OperatingPoint kn mn) : Logged (Nat × Adaptors) :=
  (as.each (evaluateAt block bank running) (evaluateAt_metric block bank running)).map
    fun (flags, adaptors) => (flags.countP id, adaptors)

def corrections (as : Adaptors) : Corrections :=
  as.items.foldl (fun c a => c.set a.metric a.correction) .none

def coefficients (as : Adaptors) : List (Nat × Float) :=
  as.items.map fun a => (a.metric, a.coefficient)

/-- Sets coefficients.  Metrics without an adaptor are passed over. -/
def restore (as : Adaptors) (coefficients : List (Nat × Float)) : Adaptors :=
  coefficients.foldl (fun as (metric, c) => as.modify metric (fun a => a.setCoefficient c) fun _ => rfl) as

/-- Lets every adaptor forget what it learned. -/
def reset (as : Adaptors) : Adaptors := as.map Adaptor.clear fun _ => rfl

def statusLines (as : Adaptors) : List String := as.items.map Adaptor.statusLine

end Adaptors

end Autotune
