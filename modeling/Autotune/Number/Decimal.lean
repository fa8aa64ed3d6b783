import Autotune.Number.Binary

/-!
# Decimal text of binary numbers

Numbers are written positionally, never with an exponent and without a needless `.0`.

* `digitsFor` finds the fewest decimal digits that read back as the number, and among those the
  nearest; an exact tie goes up;
* `text` and `text32` write a number with these digits;
* `fixedText` rounds the exact value to a given number of places, a tie going to the even digit.

Both share one layout, `positional`: a natural number of units of `10 ^ -places`.
-/

namespace Autotune.Number

/-- A natural number `units` of size `10 ^ -places`, with exactly that many places. -/
def positional (units places : Nat) : String :=
  if places = 0 then toString units
  else
    let one := Nat.pow 10 places
    let fraction := toString (units % one)
    toString (units / one) ++ "." ++
      String.ofList (List.replicate (places - fraction.length) '0') ++ fraction

/-- The decimal `digits * 10 ^ exponent`. -/
structure Decimal where
  digits : Nat
  exponent : Int
deriving DecidableEq

/-- The positional text of a decimal. -/
def Decimal.text (d : Decimal) : String :=
  if 0 ≤ d.exponent then positional (d.digits * Nat.pow 10 d.exponent.toNat) 0
  else positional d.digits (-d.exponent).toNat

/-! ### Fewest digits that read back -/

/-- A magnitude laid against the decimal grid `10 ^ exponent`, with everything brought to a common
denominator: the value is `4 * significand` units, a grid step is `step`, and a number of quarter
units `q` is `q * quarter`. -/
structure Grid where
  quarter : Nat
  step : Nat

/-- The grid `10 ^ exponent` against the quarter units `2 ^ (m.exponent - 2)` of a magnitude. -/
def Magnitude.grid (m : Magnitude) (exponent : Int) : Grid :=
  let unit := m.exponent - 2
  ⟨Nat.pow 2 unit.toNat * Nat.pow 10 (-exponent).toNat,
    Nat.pow 2 (-unit).toNat * Nat.pow 10 exponent.toNat⟩

/-- Whether `digits * 10 ^ exponent` rounds to the magnitude: it lies between the midpoints to both
neighbours, which themselves round to the magnitude exactly when its significand is even. -/
def Magnitude.readsBack (m : Magnitude) (exponent : Int) (digits : Nat) : Bool :=
  let grid := m.grid exponent
  let value := digits * grid.step
  let low := (4 * m.significand - if m.narrow then 1 else 2) * grid.quarter
  let high := (4 * m.significand + 2) * grid.quarter
  if m.significand % 2 = 0 then low ≤ value && value ≤ high else low < value && value < high

/-- The nearer of the magnitude's two neighbours on the grid `10 ^ exponent` that read back, if one
of them does.  Of two equally near ones it is the upper. -/
def Magnitude.onGrid? (m : Magnitude) (exponent : Int) : Option Nat :=
  let grid := m.grid exponent
  let value := 4 * m.significand * grid.quarter
  let below := value / grid.step
  match m.readsBack exponent below, m.readsBack exponent (below + 1) with
  | true, true =>
    some (if value - below * grid.step < (below + 1) * grid.step - value then below else below + 1)
  | true, false => some below
  | false, true => some (below + 1)
  | false, false => none

/-- The first grid, from `exponent` downwards, on which a neighbour reads back. -/
def Magnitude.firstOnGrid (m : Magnitude) (exponent : Int) : Nat → Decimal
  | 0 => ⟨(m.onGrid? exponent).getD 0, exponent⟩
  | steps + 1 =>
    match m.onGrid? exponent with
    | some digits => ⟨digits, exponent⟩
    | none => m.firstOnGrid (exponent - 1) steps

/-- An exponent `k` with `m < 10 ^ k`, at most two above the least one: `30103 / 100000` exceeds the
decimal logarithm of two by less than `10 ^ -8`. -/
def Magnitude.decimalBound (m : Magnitude) : Int :=
  (m.significand.log2 + 1 + m.exponent) * 30103 / 100000 + 2

/-- The fewest digits that read back as a magnitude that is not zero.  Seventeen digits always do,
so twenty grids below the bound are enough. -/
def Magnitude.digitsFor (m : Magnitude) : Decimal :=
  m.firstOnGrid m.decimalBound 20

/-- The text of a magnitude by its fewest digits. -/
def Magnitude.text (m : Magnitude) : String :=
  if m.significand = 0 then "0" else m.digitsFor.text

/-- Joins the sign, and names the values that have no digits.  NaN has no sign. -/
def Parts.textWith (magnitude : Magnitude → String) : Parts → String
  | .nan => "NaN"
  | .infinite negative => if negative then "-inf" else "inf"
  | .finite negative m => if negative then "-" ++ magnitude m else magnitude m

/-- The text of a number: the fewest digits that read back. -/
def text (x : Float) : String := (parts x).textWith Magnitude.text

/-- The text of a 32-bit number: the fewest digits that read back at that width. -/
def text32 (x : Float32) : String := (parts32 x).textWith Magnitude.text

/-! ### A fixed number of places -/

/-- The quotient rounded to the nearest natural number, a tie going to the even one. -/
def roundDiv (numerator denominator : Nat) : Nat :=
  let quotient := numerator / denominator
  let twice := 2 * (numerator % denominator)
  if denominator < twice || (twice = denominator && quotient % 2 = 1) then quotient + 1
  else quotient

/-- A magnitude with exactly `places` places. -/
def Magnitude.fixedText (places : Nat) (m : Magnitude) : String :=
  let numerator := m.significand * Nat.pow 2 m.exponent.toNat * Nat.pow 10 places
  positional (roundDiv numerator (Nat.pow 2 (-m.exponent).toNat)) places

/-- The text of a number rounded to a fixed number of places. -/
def fixedText (places : Nat) (x : Float) : String := (parts x).textWith (Magnitude.fixedText places)

end Autotune.Number
