/-!
# Floating-point numbers

A finite binary number is a sign and a magnitude `significand * 2 ^ exponent`.  Everything that has
to be exact (decimal text, the test for whole numbers) is done on these natural numbers, never on
rounded arithmetic.

* `Layout.decode` splits a bit pattern into its `Parts`;
* `parts` and `parts32` do so for the two widths in use;
* `isWhole` tells whether a number is finite and has no fractional part;
* `widen` and `narrow` go from one width to the other;
* `compareTotal` is the total order of the standard: `-inf < … < -0 < 0 < … < inf < NaN`;
* `least` and `greatest` pick one of two numbers and pass over NaN;
* `sum`, `product` and `mean` take numbers from left to right.
-/

namespace Autotune.Number

/-! ### Parts -/

/-- The widths of the two fields that follow the sign bit of a binary format. -/
structure Layout where
  fractionBits : Nat
  exponentBits : Nat

def binary64 : Layout := ⟨52, 11⟩

def binary32 : Layout := ⟨23, 8⟩

/-- The absolute value `significand * 2 ^ exponent` of a finite number.  The field `narrow` holds
when the next smaller number is only half as far away as the next larger one, which happens at the
powers of two above the subnormal range. -/
structure Magnitude where
  significand : Nat
  exponent : Int
  narrow : Bool

/-- What a bit pattern stands for. -/
inductive Parts where
  | nan
  | infinite (negative : Bool)
  | finite (negative : Bool) (magnitude : Magnitude)

/-- The parts of a bit pattern.  An all-ones exponent field marks the infinities and NaN, a zero
one the subnormal numbers, which have no implicit leading bit. -/
def Layout.decode (layout : Layout) (bits : Nat) : Parts :=
  let leading := Nat.pow 2 layout.fractionBits
  let fields := Nat.pow 2 layout.exponentBits
  let fraction := bits % leading
  let field := bits / leading % fields
  let negative := bits / (leading * fields) % 2 == 1
  let least : Int := 2 - (fields / 2 : Nat) - layout.fractionBits
  if field = fields - 1 then
    if fraction = 0 then .infinite negative else .nan
  else if field = 0 then
    .finite negative ⟨fraction, least, false⟩
  else
    .finite negative
      ⟨leading + fraction, least + (field - 1 : Nat), fraction = 0 && 1 < field⟩

def parts (x : Float) : Parts := binary64.decode x.toBits.toNat

def parts32 (x : Float32) : Parts := binary32.decode x.toBits.toNat

/-- A magnitude is whole when every bit below the binary point is zero. -/
def Magnitude.isWhole (m : Magnitude) : Bool :=
  0 ≤ m.exponent || m.significand % Nat.pow 2 (-m.exponent).toNat == 0

/-- Whether the number is finite and without a fractional part. -/
def isWhole (x : Float) : Bool :=
  match parts x with
  | .finite _ m => m.isWhole
  | _ => false

/-! ### Widths

Every 32-bit number is a 64-bit one, and every 64-bit number is rounded to the nearest 32-bit one,
beyond whose range it becomes infinite.  A magnitude `m * 2 ^ -n` is the decimal
`m * 5 ^ n * 10 ^ -n`, so both go through the exact decimal. -/

/-- The magnitude as a decimal: digits, and the number of them that stand after the point. -/
def Magnitude.decimal (m : Magnitude) : Nat × Nat :=
  let places := (-m.exponent).toNat
  (m.significand * Nat.pow 2 m.exponent.toNat * Nat.pow 5 places, places)

/-- The 64-bit number with the same value. -/
def widen (x : Float32) : Float :=
  match parts32 x with
  | .nan => 0 / 0
  | .infinite negative => if negative then -1 / 0 else 1 / 0
  | .finite negative m =>
    let (digits, places) := m.decimal
    let size := Float.ofScientific digits true places
    if negative then -size else size

/-- The nearest 32-bit number. -/
def narrow (x : Float) : Float32 :=
  match parts x with
  | .nan => 0 / 0
  | .infinite negative => if negative then -1 / 0 else 1 / 0
  | .finite negative m =>
    let (digits, places) := m.decimal
    let size := Float32.ofScientific digits true places
    if negative then -size else size

/-! ### Orders -/

/-- The position of a number in the total order.  Patterns without a sign bit count up from zero,
those with one count down from `-1`, so `-0` comes just before `0`. -/
def totalKey (x : Float) : Int :=
  let bits := x.toBits.toNat
  if bits < 0x8000000000000000 then bits else (0x7fffffffffffffff : Int) - bits

/-- The total order on numbers. -/
def compareTotal (a b : Float) : Ordering := compare (totalKey a) (totalKey b)

/-- The smaller number.  NaN gives way to the other argument, and of two equal ones, such as zeros
of different signs, the second is taken. -/
def least (a b : Float) : Float :=
  if a.isNaN then b else if b ≤ a then b else a

/-- The greater number.  NaN gives way to the other argument, and of two equal ones, such as zeros
of different signs, the second is taken. -/
def greatest (a b : Float) : Float :=
  if a.isNaN then b else if a ≤ b then b else a

/-! ### Sums, products and means

A sum starts from `-0`, the neutral element of addition: `-0 + x` is `x` for every number, the two
zeros included, so an empty sum is `-0` and a sum of negative zeros stays one. -/

/-- The sum from left to right. -/
def sum (values : List Float) : Float := values.foldl (· + ·) (-0.0)

def product (values : List Float) : Float := values.foldl (· * ·) 1.0

/-- The arithmetic mean, by the sum from left to right. -/
def mean (values : List Float) : Float := sum values / Float.ofNat values.length

/-- A base raised to an exponent.  The first power is the base itself. -/
def power (base exponent : Float) : Float :=
  if exponent == 1.0 then base else Float.pow base exponent

end Autotune.Number
