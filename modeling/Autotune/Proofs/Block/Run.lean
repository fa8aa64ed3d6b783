import Autotune.Block.Builder
import Autotune.Block.Control
import Autotune.Proofs.Operation
import Autotune.Proofs.Refusal

/-!
# Runs of a block

A `Command` is one call of an operation of a block with its arguments, and `Block.execute` carries
it out: it yields the `Response` and the block afterwards, which for a refused command is whatever
the operation has left behind.  `Block.after` carries out a list of commands, and a block is
`Block.Reachable` when it comes from a block that was just built.

`Block.Reachable.induction` is the way to prove that something holds in every run: it holds of a
block that was just built, and every command keeps it.
-/

namespace Autotune

/-- A call of an operation of a block. -/
inductive Command (kn mn : Nat) where
  | addState (s : State)
  | removeState (name : String)
  | setState (name : String)
  | addConstraint (state : String) (c : Constraint)
  | removeConstraint (state : String) (priority : UInt32)
  | setTarget (state : String) (priority : UInt32) (target : Float)
  | setRank (state : String) (rank : Rank)
  | updateKnowledge (update : Update kn mn)
  | openQueue (capacity : Nat)
  | send (sender : Sender) (update : Update kn mn)
  | applyPending
  | select
  | apply (p : OperatingPoint kn mn)
  /-- The bank holds what the monitors have observed by then. -/
  | update (bank : Bank)
  | restore (coefficients : List (Nat × Float))
  | resetAdaptation

/-- What a command yields, besides the block. -/
inductive Response (kn mn : Nat) where
  | done
  | refused (fault : Fault)
  | unsent (fault : UpdateFault)
  | removedState (s : State)
  | removedConstraint (c : Constraint)
  | version (number : Nat)
  | queue (sender : Sender)
  | taken (count : Nat)
  | selection (selection : Selection kn mn)
  | statusChanged (changed : Bool)

namespace Block

variable {kn mn : Nat}

/-- Carries out an operation that may be refused. -/
def call {α : Type} (b : Block kn mn) (op : Operation (Block kn mn) α)
    (answer : α → Response kn mn) : Logged (Response kn mn × Block kn mn) :=
  let done := op.run b
  let response := match done.outcome with
    | .ok a => answer a
    | .error fault => .refused fault
  ⟨(response, done.state), done.events⟩

/-- Carries out a command. -/
def execute (b : Block kn mn) : Command kn mn → Logged (Response kn mn × Block kn mn)
  | .addState s => b.call (addState s) fun _ => .done
  | .removeState name => b.call (removeState name) .removedState
  | .setState name => b.call (setState name) fun _ => .done
  | .addConstraint state c => b.call (addConstraint state c) fun _ => .done
  | .removeConstraint state priority =>
    b.call (removeConstraint state priority) .removedConstraint
  | .setTarget state priority target => b.call (setTarget state priority target) fun _ => .done
  | .setRank state rank => b.call (setRank state rank) fun _ => .done
  | .updateKnowledge update => b.call (updateKnowledge update) .version
  | .openQueue capacity =>
    let (sender, next) := b.openQueue capacity
    .quiet (.queue sender, next)
  | .send sender update =>
    match b.send sender update with
    | .ok next => .quiet (.done, next)
    | .error fault => .quiet (.unsent fault, b)
  | .applyPending => b.applyPending.map fun (count, b) => (.taken count, b)
  | .select => b.select.map fun (selection, b) => (.selection selection, b)
  | .apply p => (b.apply p).map fun b => (.done, b)
  | .update bank => (b.update bank).map fun (changed, b) => (.statusChanged changed, b)
  | .restore coefficients => .quiet (.done, b.restore coefficients)
  | .resetAdaptation => .quiet (.done, b.resetAdaptation)

/-- The block after a list of commands. -/
def after (b : Block kn mn) (commands : List (Command kn mn)) : Block kn mn :=
  commands.foldl (fun b command => (b.execute command).value.2) b

/-- A block that was built and then went through some commands. -/
def Reachable (b : Block kn mn) : Prop :=
  ∃ (parts : Builder kn mn) (built : Logged (Block kn mn)) (commands : List (Command kn mn)),
    parts.build = .ok built ∧ built.value.after commands = b

variable {b : Block kn mn} {motive : Block kn mn → Prop}

lemma after_induction
    (step : ∀ (b : Block kn mn) command, motive b → motive (b.execute command).value.2)
    (start : motive b) (commands : List (Command kn mn)) : motive (b.after commands) := by
  induction commands generalizing b with
  | nil => exact start
  | cons command rest ih => exact ih (step b command start)

/-- **What holds of every block that was just built and is kept by every command holds in every
run.** -/
theorem Reachable.induction
    (build : ∀ (parts : Builder kn mn) built, parts.build = .ok built → motive built.value)
    (step : ∀ (b : Block kn mn) command, motive b → motive (b.execute command).value.2)
    (h : b.Reachable) : motive b := by
  obtain ⟨parts, built, commands, accepted, rfl⟩ := h
  exact after_induction step (build parts built accepted) commands

lemma reachable_of_build {parts : Builder kn mn} {built : Logged (Block kn mn)}
    (h : parts.build = .ok built) : built.value.Reachable := ⟨parts, built, [], h, rfl⟩

lemma Reachable.execute (h : b.Reachable) (command : Command kn mn) :
    (b.execute command).value.2.Reachable := by
  obtain ⟨parts, built, commands, accepted, rfl⟩ := h
  refine ⟨parts, built, commands ++ [command], accepted, ?_⟩
  rw [after, List.foldl_append]
  rfl

/-- What holds of the block and of every block that an accepted operation yields holds after the
call, if a refusal changes nothing. -/
lemma call_induction {α : Type} {op : Operation (Block kn mn) α} {answer : α → Response kn mn}
    (atomic : op.Atomic) (start : motive b)
    (accepted : ∀ a b', op.Yields b a b' → motive b') : motive (b.call op answer).value.2 := by
  cases h : (op.run b).outcome with
  | error fault =>
    have same : (b.call op answer).value.2 = b := (atomic b fault h).1
    rwa [same]
  | ok a => exact accepted a _ ⟨h, rfl⟩

end Block

end Autotune
