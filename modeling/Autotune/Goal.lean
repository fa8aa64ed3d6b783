import Autotune.Number.Decimal
import Autotune.Named

/-!
# Goals

A `Goal` compares a value with a target.  When it is missed, `Goal.absoluteError` and
`Goal.relativeError` measure by how much; both are zero when it is met.
-/

namespace Autotune

/-- How a value has to stand to the target. -/
inductive Comparison where
  | greater
  | greaterOrEqual
  | less
  | lessOrEqual
deriving DecidableEq

instance : Named Comparison where
  all := [.greater, .greaterOrEqual, .less, .lessOrEqual]
  name
    | .greater => "Greater"
    | .greaterOrEqual => "GreaterOrEqual"
    | .less => "Less"
    | .lessOrEqual => "LessOrEqual"
  mem_all a := by cases a <;> simp
  name_injective a b := by cases a <;> cases b <;> simp

namespace Comparison

/-- Whether the comparison holds.  It never does for NaN. -/
def holds (comparison : Comparison) (value target : Float) : Bool :=
  match comparison with
  | greater => target < value
  | greaterOrEqual => target ≤ value
  | less => value < target
  | lessOrEqual => value ≤ target

/-- Whether the target limits the value from below. -/
def isLowerLimit : Comparison → Bool
  | greater | greaterOrEqual => true
  | less | lessOrEqual => false

def sign : Comparison → String
  | greater => ">"
  | greaterOrEqual => ">="
  | less => "<"
  | lessOrEqual => "<="

/-- The comparison with the given sign. -/
def ofSign? : String → Option Comparison
  | ">" => some greater
  | ">=" => some greaterOrEqual
  | "<" => some less
  | "<=" => some lessOrEqual
  | _ => none

@[simp] theorem ofSign?_sign (comparison : Comparison) :
    ofSign? comparison.sign = some comparison := by cases comparison <;> rfl

end Comparison

/-- A comparison against a target. -/
structure Goal where
  comparison : Comparison
  target : Float

namespace Goal

def isMet (g : Goal) (value : Float) : Bool := g.comparison.holds value g.target

/-- The distance of a value from the target it misses. -/
def absoluteError (g : Goal) (value : Float) : Float :=
  if g.isMet value then 0 else (value - g.target).abs

/-- The distance in proportion to the target.  Against a target of zero both sides are moved up by
one. -/
def relativeError (g : Goal) (value : Float) : Float :=
  if g.isMet value then 0
  else if g.target == 0 then ((value + 1) / (g.target + 1) - 1).abs
  else (value / g.target - 1).abs

def text (g : Goal) : String := g.comparison.sign ++ " " ++ Number.text g.target

end Goal

end Autotune
