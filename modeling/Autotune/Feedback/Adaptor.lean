import Autotune.Feedback.Correction
import Autotune.Field.Basic
import Autotune.Journal.Event
import Autotune.Monitor.Bank

/-!
# Adaptors

An `Adaptor` learns how far one metric is off its prediction.  Each evaluation compares the mean of
its monitor with the prediction of the running point and yields one sample; the coefficient is the
mean of the last `inertia` samples.  An observation within one standard deviation of the prediction
yields the neutral sample.

* multiplicative: the sample is `predicted / observed`;
* additive: the sample is `observed - predicted`.
-/

namespace Autotune

/-- What is learned about one metric. -/
structure Adaptor where
  metric : Nat
  monitor : MonitorId
  mode : CorrectionMode
  inertia : Nat
  window : List Float

namespace Adaptor

/-- A fresh adaptor, which corrects nothing.  It keeps at least one sample. -/
def fresh (metric : Nat) (monitor : MonitorId) (inertia : Nat) (mode : CorrectionMode) : Adaptor :=
  ⟨metric, monitor, mode, max inertia 1, List.replicate (max inertia 1) mode.neutral⟩

/-- What was learned: the mean of the samples. -/
def coefficient (a : Adaptor) : Float := Number.mean a.window

def correction (a : Adaptor) : Correction := ⟨a.mode, a.coefficient⟩

def correct (a : Adaptor) (predicted : Float) : Float := a.mode.apply predicted a.coefficient

/-- The sample that an observation yields, or nothing if it would need a division by zero. -/
def sample? (mode : CorrectionMode) (observed : Float) (predicted : Reading) : Option Float :=
  let mean := predicted.average
  if mean - predicted.deviation ≤ observed && observed ≤ mean + predicted.deviation then
    some mode.neutral
  else
    match mode with
    | .additive => some (observed - mean)
    | .multiplicative => if observed == 0 || mean == 0 then none else some (mean / observed)

/-- The window with a new sample in place of the oldest one. -/
def push (a : Adaptor) (sample : Float) : Adaptor :=
  { a with window := a.window.drop 1 ++ [sample] }

/-- Takes an observed mean and the prediction it belongs to, on behalf of the named block.  An
undefined sample is reported and counts as neutral. -/
def observe (a : Adaptor) (block : String) (observed : Float) (predicted : Reading) :
    Logged Adaptor :=
  let sample := sample? a.mode observed predicted
  let next := a.push (sample.getD a.mode.neutral)
  let trouble :=
    if sample.isNone then [Event.degraded block (.undefinedCorrection a.metric)] else []
  ⟨next, trouble ++ [.adapted block a.metric observed predicted.average next.coefficient]⟩

/-- Observes the mean of the adaptor's monitor.  The flag tells whether there was one. -/
def evaluate (a : Adaptor) (block : String) (bank : Bank) (predicted : Reading) :
    Logged (Bool × Adaptor) :=
  match bank.average? a.monitor with
  | some observed => (a.observe block observed predicted).map fun next => (true, next)
  | none => .quiet (false, a)

/-- Replaces every sample by one value. -/
def setCoefficient (a : Adaptor) (coefficient : Float) : Adaptor :=
  { a with window := a.window.map fun _ => coefficient }

/-- Forgets what was learned. -/
def clear (a : Adaptor) : Adaptor := a.setCoefficient a.mode.neutral

def statusLine (a : Adaptor) : String :=
  s!"metric {a.metric} | size = {a.window.length} | coefficient_error = " ++
    Number.text a.coefficient

end Adaptor

end Autotune
