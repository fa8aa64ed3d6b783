import Autotune.Block.Control

/-!
# Reports

`Block.report` writes down a block for people: its knowledge, its states with their constraints, its
adaptors and the running configuration, one line each.
-/

namespace Autotune

/-- A point by its id and its metrics. -/
def OperatingPoint.reportLine {kn mn : Nat} (p : OperatingPoint kn mn) : String :=
  s!"  [{p.id}] ->" ++ String.join (p.metrics.toList.map fun field => " " ++ field.reading.text)

/-- A constraint by its priority, goal, field, confidence and status. -/
def Constraint.reportLine (c : Constraint) : String :=
  s!"    p{c.priority} " ++ c.goal.text ++ s!" {c.selector.segment.label}[{c.selector.index}] " ++
    Number.text c.confidence ++ " -> " ++ Named.name c.status

/-- A state by its name, its rank and its constraints.  The active one is marked. -/
def State.reportLines (s : State) (active : String) : List String :=
  let mark := if s.name = active then "*" else " "
  let formula := s.rank.formula
  [mark ++ "state " ++ s.name,
    "    rank " ++ Named.name s.rank.objective ++ " " ++ Named.name formula.composer ++
      s!" ({formula.terms.length} terms)"] ++
    s.constraints.items.map Constraint.reportLine

/-- The lines of a report. -/
def Block.reportLines {kn mn : Nat} (b : Block kn mn) : List String :=
  ["block " ++ b.telemetry.block,
    s!"knowledge v{b.knowledge.version} ({b.knowledge.size} points)"] ++
    b.knowledge.points.map OperatingPoint.reportLine ++
    b.states.items.flatMap (fun s => s.reportLines b.active) ++
    b.adaptors.statusLines.map (fun line => "adaptor " ++ line) ++
    [match b.running with
      | some p => "running [" ++ p.id ++ "]"
      | none => "running none"]

def Block.report {kn mn : Nat} (b : Block kn mn) : String :=
  String.join (b.reportLines.map fun line => line ++ "\n")

end Autotune
