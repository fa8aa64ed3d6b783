import Autotune.Cluster.Control
import Autotune.Proofs.Block.Run

/-!
# Runs of clusters

A `Clusters.Command` is one call with its arguments.  Besides the operations on all clusters there
are those on the block of a single one, which anybody can get hold of.  `Clusters.Command.operation`
is what a command does, and `Clusters.after` carries out a list of commands.

Clusters are `Clusters.Reachable` through commands of a kind when they come from such commands and
no clusters at all; `Clusters.Reachable.induction` is the way to prove that something holds of them.

An operation on the blocks of all clusters ends in one of two ways: all have accepted it
(`Clusters.attempt_eq_ok`), or one has refused and those before it have been undone
(`Clusters.attempt_eq_error`).
-/

namespace Autotune

open Operation

/-- The cluster after an operation on its block. -/
def Cluster.through {α : Type} {kn mn fn : Nat} (c : Cluster kn mn fn)
    (op : Operation (Block kn mn) α) : Cluster kn mn fn :=
  { c with block := (op.run c.block).state }

namespace Clusters

variable {kn mn fn : Nat}

/-! ### Commands -/

/-- A call of an operation of clusters, or of the block of one cluster. -/
inductive Command (kn mn fn : Nat) where
  | add (features : Vector Float fn) (points : List (OperatingPoint kn mn))
  | remove (features : Vector Float fn)
  | selectFor (input : Vector Float fn)
  | addState (s : State)
  | removeState (name : String)
  | setState (name : String)
  | addConstraint (state : String) (c : Constraint)
  | removeConstraint (state : String) (priority : UInt32)
  | setTarget (state : String) (priority : UInt32) (target : Float)
  | setRank (state : String) (rank : Rank)
  | select
  | apply (p : OperatingPoint kn mn)
  | update (bank : Bank)
  /-- A call of the block of the cluster at a place, past all the others. -/
  | direct (place : Nat) (command : Autotune.Command kn mn)

/-- Carries out a command on the block of one cluster. -/
def executeAt (cs : Clusters kn mn fn) (place : Nat) (command : Autotune.Command kn mn) :
    Logged (Clusters kn mn fn) :=
  match cs.entries[place]? with
  | none => .quiet cs
  | some c => (c.block.execute command).map fun (_, b) => cs.setBlock place b

/-- What a command does. -/
def Command.operation : Command kn mn fn → Operation (Clusters kn mn fn) Unit
  | .add features points => Clusters.add features points
  | .remove features => Clusters.remove features
  | .selectFor input => discard (Clusters.selectFor input)
  | .addState s => Clusters.addState s
  | .removeState name => Clusters.removeState name
  | .setState name => Clusters.setState name
  | .addConstraint state c => Clusters.addConstraint state c
  | .removeConstraint state priority => Clusters.removeConstraint state priority
  | .setTarget state priority target => Clusters.setTarget state priority target
  | .setRank state rank => Clusters.setRank state rank
  | .select => discard Clusters.select
  | .apply p => Clusters.apply p
  | .update bank => step fun cs => (cs.update bank).map fun (_, cs) => ((), cs)
  | .direct place command => step fun cs => (cs.executeAt place command).map fun cs => ((), cs)

/-- The clusters after a list of commands. -/
def after (cs : Clusters kn mn fn) (commands : List (Command kn mn fn)) : Clusters kn mn fn :=
  commands.foldl (fun cs command => (command.operation.run cs).state) cs

/-- Clusters that were made from nothing by commands of a kind. -/
def Reachable (kind : Command kn mn fn → Prop) (cs : Clusters kn mn fn) : Prop :=
  ∃ template comparisons distance start commands,
    ofTemplate template comparisons distance = .ok start ∧
      (∀ command ∈ commands, kind command) ∧ start.after commands = cs

variable {cs : Clusters kn mn fn} {kind : Command kn mn fn → Prop}
  {motive : Clusters kn mn fn → Prop}

lemma entries_of_ofTemplate {template : Builder kn mn} {comparisons : Vector FeatureComparison fn}
    {distance : FeatureDistance} {start : Clusters kn mn fn}
    (h : ofTemplate template comparisons distance = .ok start) : start.entries = [] := by
  unfold ofTemplate at h
  split at h
  · cases h
  · cases h
    rfl

lemma map_setBlock {β : Type} {f : Cluster kn mn fn → β} {i : Nat} {b : Block kn mn}
    (same : ∀ c, cs.entries[i]? = some c → f { c with block := b } = f c) :
    (cs.setBlock i b).entries.map f = cs.entries.map f := by
  refine List.ext_getElem? fun j => ?_
  simp only [setBlock, List.getElem?_map, List.getElem?_modify]
  split
  case isTrue here =>
    subst here
    cases found : cs.entries[i]? with
    | none => rfl
    | some c => exact congrArg some (same c found)
  case isFalse => cases cs.entries[j]? <;> rfl

lemma after_induction {commands : List (Command kn mn fn)}
    (step : ∀ (cs : Clusters kn mn fn) command, kind command → motive cs →
      motive (command.operation.run cs).state)
    (kinds : ∀ command ∈ commands, kind command) (start : motive cs) : motive (cs.after commands) := by
  induction commands generalizing cs with
  | nil => exact start
  | cons command rest ih =>
    have here := step cs command (kinds command List.mem_cons_self) start
    exact ih (fun command h => kinds command (List.mem_cons_of_mem _ h)) here

/-- **What holds of no clusters and is kept by every command of a kind holds throughout.** -/
theorem Reachable.induction
    (start : ∀ cs : Clusters kn mn fn, cs.entries = [] → motive cs)
    (step : ∀ (cs : Clusters kn mn fn) command, kind command → motive cs →
      motive (command.operation.run cs).state)
    (h : cs.Reachable kind) : motive cs := by
  obtain ⟨template, comparisons, distance, first, commands, accepted, kinds, rfl⟩ := h
  exact after_induction step kinds (start first (entries_of_ofTemplate accepted))

/-! ### Operations on all blocks -/

section

variable {op undo : Operation (Block kn mn) Unit} {entries : List (Cluster kn mn fn)}
  {fault : Fault}

lemma attempt_cons (undo : Operation (Block kn mn) Unit) (rest : List (Cluster kn mn fn))
    {c : Cluster kn mn fn} {u : Unit} (h : (op.run c.block).outcome = .ok u) :
    (attempt op undo (c :: rest)).outcome = (attempt op undo rest).outcome ∧
      (attempt op undo (c :: rest)).state =
        (match (attempt op undo rest).outcome with
        | .ok _ => c.through op
        | .error _ => (c.through op).through undo) :: (attempt op undo rest).state := by
  simp only [attempt, h]
  cases (attempt op undo rest).outcome <;> exact ⟨rfl, rfl⟩

lemma attempt_eq_ok {u : Unit} (h : (attempt op undo entries).outcome = .ok u) :
    (∀ c ∈ entries, (op.run c.block).outcome = .ok ⟨⟩) ∧
      (attempt op undo entries).state = entries.map fun c => c.through op := by
  induction entries with
  | nil => simp [attempt]
  | cons c rest ih =>
    cases first : (op.run c.block).outcome with
    | error fault => simp [attempt, first] at h
    | ok u =>
      obtain ⟨outcome, state⟩ := attempt_cons undo rest first
      rw [outcome] at h
      obtain ⟨accepted, done⟩ := ih h
      rw [state, h, done]
      exact ⟨List.forall_mem_cons.mpr ⟨first, accepted⟩, rfl⟩

/-- **An operation on all blocks stops at the first that refuses.**  The blocks before it are
undone, and those after it are not touched. -/
theorem attempt_eq_error (h : (attempt op undo entries).outcome = .error fault) :
    ∃ before c after, entries = before ++ c :: after ∧
      (∀ d ∈ before, (op.run d.block).outcome = .ok ⟨⟩) ∧
      (op.run c.block).outcome = .error fault ∧
      (attempt op undo entries).state =
        (before.map fun d => (d.through op).through undo) ++ c.through op :: after := by
  induction entries with
  | nil => cases h
  | cons c rest ih =>
    cases first : (op.run c.block).outcome with
    | error fault' =>
      refine ⟨[], c, rest, rfl, by simp, ?_⟩
      simp only [attempt, first] at h ⊢
      exact ⟨h, rfl⟩
    | ok u =>
      obtain ⟨outcome, state⟩ := attempt_cons undo rest first
      rw [outcome] at h
      obtain ⟨before, d, after, same, accepted, refused, left⟩ := ih h
      rw [state, h, left, same]
      exact ⟨c :: before, d, after, rfl, List.forall_mem_cons.mpr ⟨first, accepted⟩, refused, rfl⟩

lemma map_attempt {β : Type} {f : Cluster kn mn fn → β}
    (done : ∀ c, f (c.through op) = f c) (undone : ∀ c, f (c.through undo) = f c)
    (entries : List (Cluster kn mn fn)) :
    (attempt op undo entries).state.map f = entries.map f := by
  cases outcome : (attempt op undo entries).outcome with
  | error fault =>
    obtain ⟨before, c, after, rfl, -, -, state⟩ := attempt_eq_error outcome
    simp [state, done, undone]
  | ok u =>
    rw [(attempt_eq_ok outcome).2, List.map_map]
    exact List.map_congr_left fun c _ => done c

lemma attemptAll_yields {u : Unit} {cs' : Clusters kn mn fn}
    (h : (attemptAll op undo).Yields cs u cs') :
    (∀ c ∈ cs.entries, (op.run c.block).outcome = .ok ⟨⟩) ∧
      cs' = { cs with entries := cs.entries.map fun c => c.through op } := by
  unfold Yields run attemptAll at h
  split at h
  · cases h.1
  · obtain ⟨accepted, state⟩ := attempt_eq_ok h.1
    exact ⟨accepted, by rw [← h.2, ← state]⟩

lemma attemptAll_eq_error (h : ((attemptAll op undo).run cs).outcome = .error fault) :
    ((attemptAll op undo).run cs).state = cs ∨
      ∃ before c after, cs.entries = before ++ c :: after ∧
        (∀ d ∈ before, (op.run d.block).outcome = .ok ⟨⟩) ∧
        (op.run c.block).outcome = .error fault ∧
        ((attemptAll op undo).run cs).state =
          { cs with entries :=
              (before.map fun d => (d.through op).through undo) ++ c.through op :: after } := by
  unfold run attemptAll at h ⊢
  split at h
  case isTrue none =>
    rw [if_pos none]
    exact .inl rfl
  case isFalse some =>
    rw [if_neg some]
    obtain ⟨before, c, after, entries, accepted, refused, state⟩ := attempt_eq_error h
    exact .inr ⟨before, c, after, entries, accepted, refused, by rw [← state]⟩

/-- Replacing a rank asks the first cluster which rank to put back. -/
lemma setRank_run (cs : Clusters kn mn fn) (state : String) (rank : Rank) :
    (∃ fault, (setRank state rank).run cs = ⟨.error fault, cs, []⟩) ∨
      ∃ first s, cs.leader = .ok first ∧ first.block.state state = .ok s ∧
        (setRank state rank).run cs =
          (attemptAll (Block.setRank state rank) (Block.setRank state s.rank)).run cs := by
  cases leader : cs.leader with
  | error fault =>
    exact .inl ⟨fault, by simp [setRank, run, bind, andThen, Operation.read, check, leader]⟩
  | ok first =>
    cases found : first.block.state state with
    | error fault =>
      exact .inl ⟨fault, by simp [setRank, run, bind, andThen, Operation.read, check, leader, found]⟩
    | ok s =>
      refine .inr ⟨first, s, rfl, found, ?_⟩
      simp [setRank, run, bind, andThen, Operation.read, check, leader, found]

end

end Clusters

end Autotune
