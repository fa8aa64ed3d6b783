import Autotune.Cluster.Basic

/-!
# Operating clusters as one block

The control loop of `Clusters` is that of the selected block.  Operations on states go to the blocks
of all clusters, one after the other, and stop at the first that refuses.  Adding a state and
replacing a rank are undone in the blocks that had already accepted.
-/

namespace Autotune

open Operation (read check step)

namespace Clusters

variable {kn mn fn : Nat}

/-! ### The control loop -/

/-- Replaces the block of the selected cluster. -/
def putCurrent (cs : Clusters kn mn fn) (b : Block kn mn) : Clusters kn mn fn :=
  match cs.selected with
  | some i => cs.setBlock i b
  | none => cs

def select : Operation (Clusters kn mn fn) (Selection kn mn) := do
  let c ← check (← read).current
  step fun cs => c.block.select.map fun (selection, b) => (selection, cs.putCurrent b)

def apply (p : OperatingPoint kn mn) : Operation (Clusters kn mn fn) Unit := do
  let c ← check (← read).current
  step fun cs => (c.block.apply p).map fun b => ((), cs.putCurrent b)

/-- Compares the monitors with what runs in the selected cluster. -/
def update (cs : Clusters kn mn fn) (bank : Bank) : Logged (Bool × Clusters kn mn fn) :=
  match cs.current? with
  | none => .quiet (false, cs)
  | some c => (c.block.update bank).map fun (changed, b) => (changed, cs.putCurrent b)

def activeState (cs : Clusters kn mn fn) : Except Fault String :=
  cs.current.map fun c => c.block.active

/-! ### States, in every cluster -/

/-- Applies an operation to blocks in turn until one refuses.  When one does, `undo` is applied to
the blocks before it, and nothing becomes of it where it is refused. -/
def attempt (op undo : Operation (Block kn mn) Unit) :
    List (Cluster kn mn fn) → Attempt (List (Cluster kn mn fn)) Unit
  | [] => ⟨.ok (), [], []⟩
  | c :: rest =>
    let first := op.run c.block
    match first.outcome with
    | .error fault => ⟨.error fault, { c with block := first.state } :: rest, first.events⟩
    | .ok _ =>
      let later := attempt op undo rest
      match later.outcome with
      | .ok _ =>
        ⟨.ok (), { c with block := first.state } :: later.state, first.events ++ later.events⟩
      | .error fault =>
        let undone := undo.run first.state
        ⟨.error fault, { c with block := undone.state } :: later.state,
          first.events ++ later.events ++ undone.events⟩

/-- Applies an operation to the blocks of all clusters. -/
def attemptAll (op undo : Operation (Block kn mn) Unit) : Operation (Clusters kn mn fn) Unit :=
  fun cs =>
    if cs.entries.isEmpty then ⟨.error .noCluster, cs, []⟩
    else
      let tried := attempt op undo cs.entries
      ⟨tried.outcome, { cs with entries := tried.state }, tried.events⟩

/-- Applies an operation to the blocks of all clusters and leaves what was done before a refusal. -/
def each {α : Type} (op : Operation (Block kn mn) α) : Operation (Clusters kn mn fn) Unit :=
  attemptAll (discard op) (pure ())

/-- Registers a state in every cluster, or in none. -/
def addState (s : State) : Operation (Clusters kn mn fn) Unit :=
  attemptAll (Block.addState s) (discard (Block.removeState s.name))

/-- Takes a state out of every cluster. -/
def removeState (name : String) : Operation (Clusters kn mn fn) Unit := each (Block.removeState name)

/-- Makes a state the active one of every cluster. -/
def setState (name : String) : Operation (Clusters kn mn fn) Unit := each (Block.setState name)

/-- Adds a constraint in every cluster. -/
def addConstraint (state : String) (c : Constraint) : Operation (Clusters kn mn fn) Unit :=
  each (Block.addConstraint state c)

/-- Takes a constraint out in every cluster. -/
def removeConstraint (state : String) (priority : UInt32) : Operation (Clusters kn mn fn) Unit :=
  each (Block.removeConstraint state priority)

/-- Moves the target of a constraint in every cluster. -/
def setTarget (state : String) (priority : UInt32) (target : Float) :
    Operation (Clusters kn mn fn) Unit :=
  each (Block.setTarget state priority target)

/-- The first cluster, by which the others go. -/
def leader (cs : Clusters kn mn fn) : Except Fault (Cluster kn mn fn) :=
  match cs.entries with
  | [] => .error .noCluster
  | first :: _ => .ok first

/-- Gives a state another rank everywhere, or nowhere.  The rank that the first cluster had is put
back on a refusal. -/
def setRank (state : String) (rank : Rank) : Operation (Clusters kn mn fn) Unit := do
  let first ← check (← read).leader
  let s ← check (first.block.state state)
  attemptAll (Block.setRank state rank) (Block.setRank state s.rank)

end Clusters

end Autotune
