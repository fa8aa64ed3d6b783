import Autotune.Number.Binary
import Autotune.Rank.Formula

/-!
# Ranks

A `Rank` is a formula with a direction.  `Rank.compare` orders candidates, each a rank value and a
position: the better value comes first, NaN comes after every number in both directions, and equal
values go by position.  So the order is total and does not depend on how candidates are met.
-/

namespace Autotune

/-- Whether small or large values are better. -/
inductive Objective where
  | minimize
  | maximize
deriving DecidableEq

instance : Named Objective where
  all := [.minimize, .maximize]
  name
    | .minimize => "Minimize"
    | .maximize => "Maximize"
  mem_all a := by cases a <;> simp
  name_injective a b := by cases a <;> cases b <;> simp

/-- The order of rank values under an objective, the better first. -/
def Objective.compareValues (objective : Objective) (a b : Float) : Ordering :=
  match a.isNaN, b.isNaN with
  | true, true => .eq
  | true, false => .gt
  | false, true => .lt
  | false, false =>
    match objective with
    | .minimize => Number.compareTotal a b
    | .maximize => Number.compareTotal b a

/-- The order of rank values with their positions, the better first. -/
def Objective.compare (objective : Objective) (a b : Float × Nat) : Ordering :=
  (objective.compareValues a.1 b.1).then (Ord.compare a.2 b.2)

/-- A formula and the direction in which it is optimised. -/
structure Rank where
  objective : Objective
  formula : Formula

namespace Rank

/-- The rank that holds all points equal. -/
def unranked : Rank := ⟨.minimize, .constant⟩

variable {kn mn : Nat}

/-- The rank value of a point as predicted. -/
def value (r : Rank) (p : OperatingPoint kn mn) : Float := r.formula.value p

/-- The rank value of a point under corrections. -/
def valueCorrected (r : Rank) (p : OperatingPoint kn mn) (corrections : Corrections) : Float :=
  r.formula.valueCorrected p corrections

/-- Whether the rank of a point is defined under corrections. -/
def isDefined (r : Rank) (p : OperatingPoint kn mn) (corrections : Corrections) : Bool :=
  r.formula.isDefined p corrections

/-- The positions of points under corrections, the best first. -/
def order (r : Rank) (points : List (OperatingPoint kn mn)) (corrections : Corrections) :
    List Nat :=
  let ranked := points.zipIdx.map fun (p, position) => (r.valueCorrected p corrections, position)
  (ranked.mergeSort fun a b => (r.objective.compare a b).isLE).map Prod.snd

end Rank

end Autotune
