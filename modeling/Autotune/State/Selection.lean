import Autotune.State.Basic

/-!
# Selection

`State.select` chooses the point to run from what is known.  It is a function of the state, the
knowledge, the corrections and the running configuration, and it never fails.

* A point is *allowed* when every constraint admits its corrected bound and it is not the running
  configuration of a state that reports a violation.
* The best allowed point by corrected rank is chosen.  Allowed points without a defined rank are
  left out, which degrades the selection.
* If none is left, `State.fallback` chooses among all points the one of defined rank that violates
  the constraints least.
-/

namespace Autotune

/-- How good a selection is. -/
inductive SelectionStatus where
  | optimal
  | degraded (condition : Degradation)

/-- Whether something stood in the way of the best choice. -/
def SelectionStatus.isDegraded : SelectionStatus → Bool
  | optimal => false
  | degraded _ => true

/-- A chosen point. -/
structure Selection (kn mn : Nat) where
  point : OperatingPoint kn mn
  rank : Float
  status : SelectionStatus
  /-- The version of the knowledge that the point was chosen from. -/
  version : Nat
  /-- Whether the application has to change its configuration. -/
  changed : Bool

/-- A point with everything that decides about it. -/
structure Candidate (kn mn : Nat) where
  point : OperatingPoint kn mn
  position : Nat
  admitted : Bool
  violation : Float
  defined : Bool
  rank : Float

namespace State

variable {kn mn : Nat}

/-- The sum of the violations of all constraints at a point. -/
def violation (s : State) (p : OperatingPoint kn mn) (corrections : Corrections) : Float :=
  Number.sum (s.constraints.items.map fun c => c.violation p corrections)

def admits (s : State) (p : OperatingPoint kn mn) (corrections : Corrections) : Bool :=
  s.constraints.items.all fun c => c.admits p corrections

/-- The point at a position as a candidate. -/
def candidate (s : State) (corrections : Corrections) (p : OperatingPoint kn mn)
    (position : Nat) : Candidate kn mn where
  point := p
  position := position
  admitted := s.admits p corrections
  violation := s.violation p corrections
  defined := s.rank.isDefined p corrections
  rank := s.rank.valueCorrected p corrections

/-- The order in which candidates of defined rank are preferred: by rank, then by position. -/
def compareRanked (s : State) (a b : Candidate kn mn) : Ordering :=
  s.rank.objective.compare (a.rank, a.position) (b.rank, b.position)

/-- The order in which candidates are preferred when none is allowed: a defined rank before an
undefined one, then the smaller violation, then by rank and position. -/
def compareViolating (s : State) (a b : Candidate kn mn) : Ordering :=
  ((compare b.defined a.defined).then (Number.compareTotal a.violation b.violation)).then
    (s.compareRanked a b)

/-- The selection of a candidate. -/
def choose (running : Option String) (version : Nat) (c : Candidate kn mn)
    (status : SelectionStatus) : Selection kn mn :=
  ⟨c.point, c.rank, status, version, running != some c.point.id⟩

/-- The selection when no point is allowed.  The violation is reported, unless no rank is defined at
all: then the number of points without one is. -/
def fallback (s : State) (running : Option String) (version : Nat) (first : Candidate kn mn)
    (others : List (Candidate kn mn)) : Selection kn mn :=
  let best := leastOf s.compareViolating first others
  let undefined := (first :: others).countP fun c => !c.defined
  choose running version best <| .degraded <|
    if best.defined then .emptyEligibleSet best.violation else .undefinedRank undefined

/-- Whether a candidate may be chosen. -/
def allows (s : State) (running : Option String) (c : Candidate kn mn) : Bool :=
  !(s.anyViolated && running == some c.point.id) && c.admitted

def candidates (s : State) (points : List (OperatingPoint kn mn)) (corrections : Corrections) :
    List (Candidate kn mn) :=
  points.zipIdx.map fun (p, position) => s.candidate corrections p position

/-- The point to run. -/
def select (s : State) (knowledge : Knowledge kn mn) (corrections : Corrections)
    (running : Option String) : Selection kn mn :=
  let all := s.candidates knowledge.points corrections
  let allowed := all.filter (s.allows running)
  let excluded := allowed.countP fun c => !c.defined
  match least? s.compareRanked (allowed.filter fun c => c.defined) with
  | some best =>
    choose running knowledge.version best
      (if excluded = 0 then .optimal else .degraded (.undefinedRank excluded))
  | none =>
    s.fallback running knowledge.version (s.candidate corrections knowledge.first 0) (all.drop 1)

end State

end Autotune
