import Autotune.Number.Binary
import Autotune.Fault
import Autotune.Named

/-!
# Features of the data

Data that a block works on is described by a vector of numbers, its features.  A cluster stands for
data like its own features.  `FeatureComparison` says which clusters may serve an input at all, and
`FeatureDistance` which of them is closer.
-/

namespace Autotune

/-- How a feature of a cluster has to stand to the same feature of the input. -/
inductive FeatureComparison where
  | lessOrEqual
  | greaterOrEqual
  | dontCare
deriving DecidableEq

instance : Named FeatureComparison where
  all := [.lessOrEqual, .greaterOrEqual, .dontCare]
  name
    | .lessOrEqual => "LessOrEqual"
    | .greaterOrEqual => "GreaterOrEqual"
    | .dontCare => "DontCare"
  mem_all a := by cases a <;> simp
  name_injective a b := by cases a <;> cases b <;> simp

/-- Whether a feature of a cluster may serve that feature of an input. -/
def FeatureComparison.admits (comparison : FeatureComparison) (cluster input : Float) : Bool :=
  match comparison with
  | lessOrEqual => cluster ≤ input
  | greaterOrEqual => input ≤ cluster
  | dontCare => true

/-- How two clusters are measured against an input. -/
inductive FeatureDistance where
  | euclidean
  | normalized
deriving DecidableEq

instance : Named FeatureDistance where
  all := [.euclidean, .normalized]
  name
    | .euclidean => "Euclidean"
    | .normalized => "Normalized"
  mem_all a := by cases a <;> simp
  name_injective a b := by cases a <;> cases b <;> simp

/-- The sum of the squared differences of two vectors. -/
def squaredDistance (a b : List Float) : Float :=
  Number.sum ((a.zip b).map fun (x, y) => (x - y) * (x - y))

/-- Scales one coordinate of three vectors to the unit interval that they span.  A flat coordinate
tells nothing apart and becomes zero. -/
def unitScale (origin a b : Float) : Float × Float × Float :=
  let low := Number.least (Number.least origin a) b
  let width := Number.greatest (Number.greatest origin a) b - low
  let scale (x : Float) := if 0 < width then (x - low) / width else 0
  (scale origin, scale a, scale b)

/-- The squared distances from an origin to two vectors. -/
def FeatureDistance.measure (distance : FeatureDistance) (origin a b : List Float) :
    Float × Float :=
  match distance with
  | euclidean => (squaredDistance origin a, squaredDistance origin b)
  | normalized =>
    let scaled := (origin.zip (a.zip b)).map fun (o, x, y) => unitScale o x y
    let origin := scaled.map fun (o, _, _) => o
    (squaredDistance origin (scaled.map fun (_, x, _) => x),
      squaredDistance origin (scaled.map fun (_, _, y) => y))

/-- Accepts features that are all finite.  The first that is not is reported. -/
def checkFeatures (features : List Float) : Except Fault Unit :=
  match features.zipIdx.find? fun (x, _) => !x.isFinite with
  | some (x, i) => .error (.invalidFeature i x)
  | none => .ok ()

end Autotune
