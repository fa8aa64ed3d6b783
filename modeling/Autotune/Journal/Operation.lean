import Autotune.Journal.Event

/-!
# Operations in place

An `Operation` works on a state in place: it reads the state, changes it, announces events, and it
may refuse to go on.  An `Attempt` is what became of it.  A refusal undoes nothing: what was changed
and announced before it stays.
-/

namespace Autotune

/-- What a call leaves behind, whether it was accepted or refused. -/
structure Attempt (σ α : Type) where
  outcome : Except Fault α
  state : σ
  events : List Event

/-- A call that works on a state. -/
def Operation (σ α : Type) := σ → Attempt σ α

namespace Operation

variable {σ α β : Type}

def run (op : Operation σ α) (s : σ) : Attempt σ α := op s

/-- Goes on from a result, in the state that has been reached. -/
def andThen (op : Operation σ α) (next : α → Operation σ β) : Operation σ β := fun s =>
  let first := op.run s
  match first.outcome with
  | .error fault => ⟨.error fault, first.state, first.events⟩
  | .ok a =>
    let second := (next a).run first.state
    ⟨second.outcome, second.state, first.events ++ second.events⟩

instance : Monad (Operation σ) where
  pure a := fun s => ⟨.ok a, s, []⟩
  bind := andThen

/-- The state that has been reached. -/
def read : Operation σ σ := fun s => ⟨.ok s, s, []⟩

/-- Goes on with a result, unless there is none. -/
def check (result : Except Fault α) : Operation σ α := fun s => ⟨result, s, []⟩

/-- Goes on if a condition holds. -/
def ensure (condition : Prop) [Decidable condition] (fault : Fault) : Operation σ Unit :=
  check (if condition then .ok () else .error fault)

/-- A step that is never refused. -/
def step (f : σ → Logged (α × σ)) : Operation σ α := fun s =>
  let done := f s
  ⟨.ok done.value.1, done.value.2, done.events⟩

/-- Changes the state and is never refused. -/
def change (f : σ → σ) : Operation σ Unit := step fun s => .quiet ((), f s)

/-- What a value becomes through an operation.  When that is refused, nothing is left of the
value. -/
def finish (op : Operation σ Unit) (s : σ) : Except Fault σ :=
  let done := op.run s
  done.outcome.map fun _ => done.state

end Operation

end Autotune
