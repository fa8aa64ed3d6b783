import Autotune.Number.Binary

/-!
# Monitors

A `Monitor` keeps the last `capacity` observations of one quantity and answers for their statistics.
An observation is pushed directly, or at the end of a bracket that `start` opened.
-/

namespace Autotune

/-- The latest observations, the oldest first, and whether a bracket is open. -/
structure Monitor where
  capacity : Nat
  samples : List Float
  started : Bool

namespace Monitor

/-- An empty monitor.  It has room for at least one observation. -/
def ofCapacity (capacity : Nat) : Monitor := ⟨max capacity 1, [], false⟩

/-- The window of a monitor for which none is asked. -/
def defaultCapacity : Nat := 1

/-- Records an observation.  A full monitor lets go of its oldest one first. -/
def push (m : Monitor) (value : Float) : Monitor :=
  let kept := if m.samples.length = m.capacity then m.samples.drop 1 else m.samples
  { m with samples := kept ++ [value] }

/-- Records a measurement that needs no bracket. -/
def measure (m : Monitor) (value : Float) : Monitor := m.push value

/-- Opens a bracket. -/
def start (m : Monitor) : Monitor := { m with started := true }

/-- Closes the bracket and records the value, if one is open.  The flag tells whether one was. -/
def stop (m : Monitor) (value : Float) : Bool × Monitor :=
  if m.started then (true, { m with started := false }.push value) else (false, m)

/-- Closes the bracket and records the seconds for which it was open, if one is open.  How many they
are is for the clock to say. -/
def stopElapsed (m : Monitor) (seconds : Float) : Option Float × Monitor :=
  if m.started then (some seconds, { m with started := false }.push seconds) else (none, m)

/-- Drops the observations and the bracket. -/
def clear (m : Monitor) : Monitor := { m with samples := [], started := false }

/-! ### Statistics -/

def size (m : Monitor) : Nat := m.samples.length

def isEmpty (m : Monitor) : Bool := m.samples.isEmpty

/-- Whether the next observation pushes one out. -/
def isFull (m : Monitor) : Bool := m.samples.length = m.capacity

def last? (m : Monitor) : Option Float := m.samples.getLast?

def average? (m : Monitor) : Option Float :=
  if m.samples.isEmpty then none else some (Number.mean m.samples)

/-- The sample standard deviation: the squared distances from the mean are divided by one less than
their number.  A single observation has none. -/
def deviation? (m : Monitor) : Option Float :=
  m.average?.map fun average =>
    if m.samples.length < 2 then 0
    else
      let squares := m.samples.map fun x => (x - average) * (x - average)
      (Number.sum squares / Float.ofNat (m.samples.length - 1)).sqrt

def least? : Monitor → Option Float
  | ⟨_, [], _⟩ => none
  | ⟨_, x :: xs, _⟩ => some (xs.foldl Number.least x)

def greatest? : Monitor → Option Float
  | ⟨_, [], _⟩ => none
  | ⟨_, x :: xs, _⟩ => some (xs.foldl Number.greatest x)

end Monitor

end Autotune
