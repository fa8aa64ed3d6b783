import Autotune.Named

/-!
# Corrections of predicted metrics

A correction is a mode and a coefficient.  A multiplicative one divides the prediction by its
coefficient, an additive one adds it.  `Corrections` holds at most one per metric, and a metric
without one keeps its prediction.
-/

namespace Autotune

/-- How a coefficient acts on a prediction. -/
inductive CorrectionMode where
  | multiplicative
  | additive
deriving DecidableEq

instance : Named CorrectionMode where
  all := [.multiplicative, .additive]
  name
    | .multiplicative => "Multiplicative"
    | .additive => "Additive"
  mem_all a := by cases a <;> simp
  name_injective a b := by cases a <;> cases b <;> simp

namespace CorrectionMode

/-- The coefficient that corrects nothing. -/
def neutral : CorrectionMode → Float
  | multiplicative => 1
  | additive => 0

/-- The corrected prediction.  A multiplicative coefficient of zero is passed over. -/
def apply (mode : CorrectionMode) (predicted coefficient : Float) : Float :=
  match mode with
  | multiplicative => if coefficient == 0 then predicted else predicted / coefficient
  | additive => predicted + coefficient

end CorrectionMode

/-- A coefficient and the way in which it acts. -/
structure Correction where
  mode : CorrectionMode
  coefficient : Float

/-- At most one correction per metric, listed by metric index. -/
structure Corrections where
  entries : List (Option Correction)

namespace Corrections

def none : Corrections := ⟨[]⟩

def get? (c : Corrections) (metric : Nat) : Option Correction := (c.entries[metric]?).join

/-- The table with the correction of one metric replaced. -/
def set (c : Corrections) (metric : Nat) (correction : Correction) : Corrections :=
  let padding := List.replicate (metric + 1 - c.entries.length) Option.none
  ⟨(c.entries ++ padding).set metric (some correction)⟩

/-- The corrected prediction of a metric. -/
def correct (c : Corrections) (metric : Nat) (predicted : Float) : Float :=
  match c.get? metric with
  | some correction => correction.mode.apply predicted correction.coefficient
  | Option.none => predicted

def coefficient? (c : Corrections) (metric : Nat) : Option Float :=
  (c.get? metric).map Correction.coefficient

end Corrections

end Autotune
