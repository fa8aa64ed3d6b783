import Autotune.Block.Basic

/-!
# The control loop of a block

The host of a block goes round in a loop:

1. `Block.update` compares the monitors with the running configuration: the adaptors learn and the
   constraints of the active state vote;
2. `Block.select` chooses a point under the corrections learned so far;
3. `Block.apply` records that the application runs a point.  When that is a new configuration, what
   the constraints saw of the old one is forgotten.
-/

namespace Autotune.Block

variable {kn mn : Nat}

def monitor? (b : Block kn mn) (metric : Nat) : Option MonitorId := b.monitors.lookup metric

/-- The active state.  A block always has one; the default stands in for it otherwise. -/
def activeState (b : Block kn mn) : State := (b.states.get? b.active).getD defaultState

/-- Chooses the point to run, by the active state, and reports it. -/
def select (b : Block kn mn) : Logged (Selection kn mn × Block kn mn) :=
  let selection :=
    b.activeState.select b.knowledge b.adaptors.corrections (b.running.map OperatingPoint.id)
  let reported : Logged Telemetry := match selection.status with
    | .optimal => .quiet b.telemetry
    | .degraded condition => b.telemetry.degraded condition
  (reported.andThen fun telemetry => telemetry.selected selection.point.id selection.rank).map
    fun telemetry => (selection, { b with telemetry := telemetry })

/-- Every state forgets what it observed. -/
def resetStates (b : Block kn mn) : Block kn mn :=
  { b with states := b.states.map State.reset fun _ => rfl }

/-- Records that the application runs a point. -/
def apply (b : Block kn mn) (p : OperatingPoint kn mn) : Logged (Block kn mn) :=
  let next := { b with running := some p }
  if b.running.map OperatingPoint.id = some p.id then .quiet next
  else .noting (.applied b.telemetry.block p.id) next.resetStates

/-- Compares the monitors with the running configuration.  The flag tells whether a reported status
changed. -/
def update (b : Block kn mn) (bank : Bank) : Logged (Bool × Block kn mn) :=
  match b.running with
  | none => .quiet (false, b)
  | some running =>
    let adapted := b.adaptors.evaluate b.telemetry.block bank running
    adapted.andThen fun (_, adaptors) =>
      let b := { b with adaptors := adaptors, telemetry := b.telemetry.count adapted.events }
      match b.states.get? b.active with
      | none => .quiet (false, b)
      | some s =>
        (s.observe fun metric => (b.monitor? metric).bind bank.average?).map
          fun (changed, s) => (changed, b.putState s)

/-- What a field of the running point says, if a point runs. -/
def runningField (b : Block kn mn) (segment : Segment) (index : Nat) :
    Except Fault (Option Reading) :=
  match b.running with
  | none => .ok none
  | some p => (p.field segment index).map some

/-- Forgets everything that was learned and observed. -/
def resetAdaptation (b : Block kn mn) : Block kn mn :=
  { b with adaptors := b.adaptors.reset }.resetStates

/-- Sets the coefficients of adaptors. -/
def restore (b : Block kn mn) (coefficients : List (Nat × Float)) : Block kn mn :=
  { b with adaptors := b.adaptors.restore coefficients }

end Autotune.Block
