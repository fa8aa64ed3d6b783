import Autotune.Field.Basic

/-!
# Operating points

An `OperatingPoint` pairs a knob configuration with the metrics it is predicted to show.  The number
of knobs and of metrics is part of its type.

* `OperatingPoint.id` names the configuration by the averages of its knobs;
* `OperatingPoint.hash` condenses the bits of the same averages into 64 bits;
* `OperatingPoint.sameConfiguration` compares them.

All three take the two zeros for one number, and only the hash tells NaNs apart by their bits.
Spreads and metrics do not matter to any of them.
-/

namespace Autotune

/-! ### Keys made of numbers -/

/-- A zero of either sign becomes the positive zero. -/
def unsignedZero (x : Float) : Float := if x == 0 then 0 else x

/-- The names of numbers, joined by commas. -/
def keyWith (render : Float → String) (values : List Float) : String :=
  ",".intercalate (values.map fun x => render (unsignedZero x))

/-- The key of a row of numbers: their texts, joined by commas. -/
def key (values : List Float) : String := keyWith Number.text values

/-! ### Rows of fields -/

def averages {n : Nat} (row : Vector Field n) : List Float := row.toList.map Field.average

/-- The row of the given length that holds the given fields. -/
def rowOfList (n : Nat) (fields : List Field) : Except Fault (Vector Field n) :=
  if h : fields.length = n then .ok ⟨fields.toArray, by simpa using h⟩
  else .error (.arityMismatch n fields.length)

/-- The field at an index of a row that is called `segment` in the fault. -/
def fieldAt {n : Nat} (segment : Segment) (row : Vector Field n) (index : Nat) :
    Except Fault Reading :=
  match row[index]? with
  | some field => .ok field.reading
  | none => .error (.indexOutOfRange segment index n)

/-- Two rows say the same when their averages are equal numbers. -/
def sameAverages {n : Nat} (a b : Vector Field n) : Bool :=
  (averages a).zip (averages b) |>.all fun (x, y) => x == y

/-! ### Points -/

/-- A knob configuration and its predicted metrics. -/
structure OperatingPoint (kn mn : Nat) where
  knobs : Vector Field kn
  metrics : Vector Field mn

namespace OperatingPoint

variable {kn mn : Nat}

/-- The point made of two lists of fields, of which the knobs are counted first. -/
def ofLists (knobs metrics : List Field) : Except Fault (OperatingPoint kn mn) := do
  let knobs ← rowOfList kn knobs
  let metrics ← rowOfList mn metrics
  return ⟨knobs, metrics⟩

/-- The name of the configuration. -/
def id (p : OperatingPoint kn mn) : String := key (averages p.knobs)

/-- Mixes eight bytes, the lowest first, into a running 64-bit hash: each byte is combined by
exclusive or, then the hash is multiplied by a fixed prime. -/
def mixBytes (hash bits : UInt64) : UInt64 :=
  (List.range 8).foldl
    (fun h i => (h ^^^ (bits >>> (8 * i).toUInt64 &&& 0xff)) * 0x00000100000001b3) hash

/-- The hash of the configuration. -/
def hash (p : OperatingPoint kn mn) : UInt64 :=
  p.knobs.toList.foldl (fun h field => mixBytes h field.normalBits) 0xcbf29ce484222325

/-- Whether two points configure the application alike. -/
def sameConfiguration (p q : OperatingPoint kn mn) : Bool := sameAverages p.knobs q.knobs

/-- Points are compared by their averages alone. -/
instance : BEq (OperatingPoint kn mn) :=
  ⟨fun p q => sameAverages p.knobs q.knobs && sameAverages p.metrics q.metrics⟩

/-- What the field of a segment at an index says. -/
def field (p : OperatingPoint kn mn) (segment : Segment) (index : Nat) : Except Fault Reading :=
  match segment with
  | .knobs => fieldAt segment p.knobs index
  | .metrics => fieldAt segment p.metrics index

end OperatingPoint

end Autotune
