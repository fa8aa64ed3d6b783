import Autotune.Block.Basic

/-!
# Building blocks

A `Builder` collects the parts of a block and `Builder.build` puts them together.  The first state
is active unless another one is named, and a builder without states gives its block the default one.
An adapted metric is watched by the monitor of its adaptor, any other one by the monitor that was
named for it first.
-/

namespace Autotune

/-- The parts of a block. -/
structure Builder (kn mn : Nat) where
  block : String
  points : List (OperatingPoint kn mn)
  states : List State
  active : Option String
  /-- Adaptors as they are when they have learned nothing. -/
  adaptors : List Adaptor
  watched : List (Nat × MonitorId)

namespace Builder

variable {kn mn : Nat}

def ofBlock (block : String) : Builder kn mn := ⟨block, [], [], none, [], []⟩

/-- Registers states that fit the points and have different names. -/
def register (points : List (OperatingPoint kn mn)) (states : List State) :
    Except Fault (Roster State) :=
  states.foldlM (fun registered s => do
    s.validate points
    if registered.contains s.name then .error (.duplicateState s.name)
    return registered.insert s) .empty

/-- Watches metrics that exist and are not watched yet. -/
def watch (metricCount : Nat) (monitors watched : List (Nat × MonitorId)) :
    Except Fault (List (Nat × MonitorId)) :=
  watched.foldlM (fun monitors (metric, monitor) =>
    if metricCount ≤ metric then .error (.indexOutOfRange .metrics metric metricCount)
    else if (monitors.lookup metric).isSome then .ok monitors
    else .ok (monitors ++ [(metric, monitor)])) monitors

def build (parts : Builder kn mn) : Except Fault (Logged (Block kn mn)) := do
  let knowledge ← Knowledge.ofPoints parts.points
  let registered ← register knowledge.points parts.states
  let states := if parts.states.isEmpty then registered.insert defaultState else registered
  let first := (parts.states.head?.map State.name).getD defaultStateName
  let active := parts.active.getD first
  if !states.contains active then .error (.unknownState active)
  let adaptors ← parts.adaptors.foldlM Adaptors.add Roster.empty
  adaptors.validate mn
  let adapted := parts.adaptors.map fun a => (a.metric, a.monitor)
  let monitors ← watch mn adapted parts.watched
  let telemetry := Telemetry.ofBlock parts.block
  let ready := Event.ready parts.block knowledge.size states.size active adaptors.size
  return .noting ready
    ⟨telemetry.count [ready], knowledge, .closed, states, active, adaptors, monitors, none⟩

end Builder

end Autotune
