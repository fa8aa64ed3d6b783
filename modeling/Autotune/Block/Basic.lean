import Autotune.Feedback.Adaptors
import Autotune.Journal.Telemetry
import Autotune.Knowledge.Inbox
import Autotune.State.Selection

/-!
# Blocks

A `Block` is one tunable part of an application: its knowledge, its states of which one is active,
its adaptors and monitors, and the configuration that runs.  This module holds the type and the
operations on states and knowledge; `Autotune.Block.Control` holds the control loop.

What can be refused is an `Operation`, which works on the block step by step.
-/

namespace Autotune

open Operation (read check ensure step change)

/-- One tunable part of an application. -/
structure Block (kn mn : Nat) where
  telemetry : Telemetry
  knowledge : Knowledge kn mn
  inbox : Inbox kn mn
  states : Roster State
  active : String
  adaptors : Adaptors
  /-- The monitor of each watched metric.  The first entry of a metric counts. -/
  monitors : List (Nat × MonitorId)
  running : Option (OperatingPoint kn mn)

/-- The name of the state that a block has when it is given none. -/
def defaultStateName : String := "default"

/-- The state that a block has when it is given none.  It holds all points equal. -/
def defaultState : State := .ofRank defaultStateName .unranked

namespace Block

variable {kn mn : Nat}

/-! ### States -/

def state (b : Block kn mn) (name : String) : Except Fault State :=
  match b.states.get? name with
  | some s => .ok s
  | none => .error (.unknownState name)

/-- The names of all states, in ascending order. -/
def stateNames (b : Block kn mn) : List String := b.states.items.map State.name

/-- Files a state, in place of the one with its name. -/
def putState (b : Block kn mn) (s : State) : Block kn mn := { b with states := b.states.insert s }

/-- Works on the state with a name where it stands. -/
def onState {α : Type} (name : String) (op : Operation State α) : Operation (Block kn mn) α :=
  fun b =>
    match b.states.get? name with
    | none => ⟨.error (.unknownState name), b, []⟩
    | some s =>
      let done := op.run s
      ⟨done.outcome, b.putState done.state, done.events⟩

/-- Announces something and counts it. -/
def announce (event : Telemetry → Logged Telemetry) : Operation (Block kn mn) Unit :=
  step fun b => (event b.telemetry).map fun telemetry => ((), { b with telemetry := telemetry })

/-- Registers a state that fits the knowledge and has a new name. -/
def addState (s : State) : Operation (Block kn mn) Unit := do
  let b ← read
  check (s.validate b.knowledge.points)
  ensure (¬ b.states.contains s.name) (.duplicateState s.name)
  change fun b => b.putState s

/-- Takes out a state that is not active. -/
def removeState (name : String) : Operation (Block kn mn) State := do
  let b ← read
  ensure (b.active ≠ name) (.activeStateRemoval name)
  let s ← check (b.state name)
  change fun b => { b with states := b.states.erase name }
  return s

/-- Makes a state the active one. -/
def setState (name : String) : Operation (Block kn mn) Unit := do
  let b ← read
  ensure (b.states.contains name) (.unknownState name)
  if b.active ≠ name then
    change fun b => { b with active := name }
    announce fun telemetry => telemetry.stateSwitched b.active name

/-- Adds a constraint to a state. -/
def addConstraint (state : String) (c : Constraint) : Operation (Block kn mn) Unit := do
  check (c.selector.check kn mn)
  onState state (State.addConstraint c)

/-- Takes a constraint out of a state. -/
def removeConstraint (state : String) (priority : UInt32) : Operation (Block kn mn) Constraint :=
  onState state (State.removeConstraint priority)

/-- Moves the target of a constraint of a state. -/
def setTarget (state : String) (priority : UInt32) (target : Float) :
    Operation (Block kn mn) Unit :=
  onState state (State.setTarget priority target)

/-- Gives a state another rank, which has to be defined on the knowledge. -/
def setRank (state : String) (rank : Rank) : Operation (Block kn mn) Unit := do
  check (rank.formula.validateIndices kn mn)
  let b ← read
  onState state do
    check (rank.formula.validatePoints b.knowledge.points)
    change fun s => { s with rank := rank }

/-! ### Knowledge -/

/-- Accepts a set of points that every state fits.  The states are asked by name. -/
def validate (b : Block kn mn) (points : List (OperatingPoint kn mn)) : Except Fault Unit :=
  b.states.items.forM fun s => s.validate points

/-- Puts an update of the knowledge in force, if every state fits the result, and yields the new
version. -/
def updateKnowledge (update : Update kn mn) : Operation (Block kn mn) Nat := do
  let b ← read
  let next ← check (b.knowledge.apply update)
  check (b.validate next.points)
  change fun b => { b with knowledge := next }
  announce fun telemetry => telemetry.knowledgeSwapped next.version next.size
  return next.version

/-- Opens a queue for updates. -/
def openQueue (b : Block kn mn) (capacity : Nat) : Sender × Block kn mn :=
  let (sender, inbox) := b.inbox.openQueue capacity
  (sender, { b with inbox := inbox })

/-- Queues an update. -/
def send (b : Block kn mn) (sender : Sender) (update : Update kn mn) :
    Except UpdateFault (Block kn mn) := do
  return { b with inbox := ← b.inbox.send sender update }

/-- Takes one queued update.  A rejected one is skipped with a warning.  The number counts the
accepted ones. -/
def takeUpdate (b : Block kn mn) (update : Update kn mn) : Logged (Nat × Block kn mn) :=
  let done := (updateKnowledge update).run b
  match done.outcome with
  | .ok _ => ⟨(1, done.state), done.events⟩
  | .error fault =>
    ⟨(0, done.state), done.events ++ [.updateSkipped b.telemetry.block (.rejected fault)]⟩

/-- Takes updates one after the other. -/
def takeUpdates (b : Block kn mn) : List (Update kn mn) → Logged (Nat × Block kn mn)
  | [] => .quiet (0, b)
  | update :: rest =>
    (b.takeUpdate update).andThen fun (taken, b) =>
      (b.takeUpdates rest).map fun (more, b) => (taken + more, b)

/-- Takes all queued updates, in the order in which they were sent. -/
def applyPending (b : Block kn mn) : Logged (Nat × Block kn mn) :=
  let (pending, inbox) := b.inbox.drain
  { b with inbox := inbox }.takeUpdates pending

end Block

end Autotune
