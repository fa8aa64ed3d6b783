import Autotune.Proofs.Cluster.Agreement

/-!
# What a refused operation leaves

Anybody can set up the block of a single cluster, and then clusters need not agree any more.  An
operation on all blocks may then be accepted by some and refused by a later one.

* Registering a state is still all or nothing (`Clusters.addState_refused`).
* The other operations leave the refusing cluster and those after it as they were, but not those
  before it: `Clusters.refused_of_reachable` says what becomes of these, and
  `Clusters.exists_partial_refusal` that it happens.
-/

namespace Autotune

open Operation

namespace Clusters

variable {kn mn fn : Nat} {cs : Clusters kn mn fn} {fault : Fault}

/-- The operation that a command carries out on every block and does not undo. -/
def Command.onEach? : Command kn mn fn → Option (Operation (Block kn mn) Unit)
  | .removeState name => some (discard (Block.removeState name))
  | .setState name => some (discard (Block.setState name))
  | .addConstraint state c => some (discard (Block.addConstraint state c))
  | .removeConstraint state priority => some (discard (Block.removeConstraint state priority))
  | .setTarget state priority target => some (discard (Block.setTarget state priority target))
  | _ => none

/-- Some clusters accepted an operation before one refused it, and they are left as `left` says. -/
def StoppedAt (op : Operation (Block kn mn) Unit) (left : Cluster kn mn fn → Cluster kn mn fn)
    (fault : Fault) (cs cs' : Clusters kn mn fn) : Prop :=
  ∃ before c after, cs.entries = before ++ c :: after ∧
    (∀ d ∈ before, (op.run d.block).outcome = .ok ⟨⟩) ∧
    (op.run c.block).outcome = .error fault ∧
    cs' = { cs with entries := before.map left ++ c :: after }

lemma operation_of_onEach? {command : Command kn mn fn} {op : Operation (Block kn mn) Unit}
    (h : command.onEach? = some op) :
    command.operation = attemptAll op (pure ()) ∧ op.Atomic := by
  cases command with
  | removeState name =>
    cases h
    exact ⟨rfl, Block.atomic_removeState.discard⟩
  | setState name =>
    cases h
    exact ⟨rfl, Block.atomic_setState.discard⟩
  | addConstraint state c =>
    cases h
    exact ⟨rfl, Block.atomic_addConstraint.discard⟩
  | removeConstraint state priority =>
    cases h
    exact ⟨rfl, Block.atomic_removeConstraint.discard⟩
  | setTarget state priority target =>
    cases h
    exact ⟨rfl, Block.atomic_setTarget.discard⟩
  | _ => cases h

lemma stoppedAt_of_refused {op undo : Operation (Block kn mn) Unit} (atomic : op.Atomic)
    (refused : ((attemptAll op undo).run cs).outcome = .error fault) :
    ((attemptAll op undo).run cs).state = cs ∨
      StoppedAt op (fun d => (d.through op).through undo) fault cs
        ((attemptAll op undo).run cs).state := by
  refine (attemptAll_eq_error refused).imp_right ?_
  rintro ⟨before, c, after, entries, accepted, refused, state⟩
  have untouched : c.through op = c :=
    congrArg (Cluster.mk c.features) (atomic c.block fault refused).1
  rw [untouched] at state
  exact ⟨before, c, after, entries, accepted, refused, state⟩

lemma restored_of_rank_eq {d : Cluster kn mn fn} (sound : d.block.Sound) {state : String}
    {rank : Rank} {s t : State} (found : d.block.state state = .ok t) (same : t.rank = s.rank)
    (accepted : ((Block.setRank state rank).run d.block).outcome = .ok ⟨⟩) :
    (d.through (Block.setRank state rank)).through (Block.setRank state s.rank) = d := by
  have undone := Block.undo_setRank sound (Block.state_eq_ok.mp found)
    (⟨accepted, rfl⟩ : (Block.setRank state rank).Yields d.block ⟨⟩ _)
  rw [same] at undone
  exact congrArg (Cluster.mk d.features) undone.2

/-- **What a refused operation on all blocks leaves, whatever happened before.**  Registering a
state leaves everything as it was.  Five operations go on to be in force in the clusters that
accepted them.  Replacing a rank leaves those clusters with the rank of the first one, where that is
defined; so a cluster is as it was if it had that rank. -/
theorem refused_of_reachable (h : cs.Reachable fun _ => True) :
    (∀ s fault, ((addState s).run cs).outcome = .error fault →
      ((addState s).run cs).state = cs) ∧
    (∀ (command : Command kn mn fn) op fault, command.onEach? = some op →
      (command.operation.run cs).outcome = .error fault →
        (command.operation.run cs).state = cs ∨
          StoppedAt op (·.through op) fault cs (command.operation.run cs).state) ∧
    ∀ state rank fault, ((setRank state rank).run cs).outcome = .error fault →
      ((setRank state rank).run cs).state = cs ∨
        ∃ first s, cs.leader = .ok first ∧ first.block.state state = .ok s ∧
          StoppedAt (Block.setRank state rank)
            (fun d => (d.through (Block.setRank state rank)).through (Block.setRank state s.rank))
            fault cs ((setRank state rank).run cs).state ∧
          ∀ d ∈ cs.entries, ∀ t, d.block.state state = .ok t → t.rank = s.rank →
            ((Block.setRank state rank).run d.block).outcome = .ok ⟨⟩ →
              (d.through (Block.setRank state rank)).through (Block.setRank state s.rank) = d := by
  have sound := sound_of_reachable h
  refine ⟨fun s fault => addState_refused sound, fun command op fault each refused => ?_,
    fun state rank fault refused => ?_⟩
  · obtain ⟨same, atomic⟩ := operation_of_onEach? each
    rw [same] at refused ⊢
    exact stoppedAt_of_refused atomic refused
  · obtain ⟨fault', early⟩ | ⟨first, s, leader, found, all⟩ := setRank_run cs state rank
    · exact .inl (by rw [early])
    · rw [all] at refused ⊢
      refine (stoppedAt_of_refused Block.atomic_setRank refused).imp_right fun stopped => ?_
      exact ⟨first, s, leader, found, stopped, fun d hd t found' same accepted =>
        restored_of_rank_eq (sound d hd) found' same accepted⟩

/-- A limit at a priority that is free in the sample. -/
def ownLimit : Constraint := .on (.averageOf .metrics 0) ⟨.less, 50⟩ 0 0 1

/-- Two clusters, of which the second one has been given a limit of its own. -/
def unevenClusters : Clusters 1 1 1 :=
  after ⟨Block.sampleBuilder, #v[.dontCare], .euclidean, [], .empty, none⟩
    [.add #v[1] Block.sampleBuilder.points, .add #v[2] Block.sampleBuilder.points,
      .direct 1 (.addConstraint "sample" ownLimit)]

lemma unevenClusters_reachable : unevenClusters.Reachable fun _ => True :=
  ⟨_, _, _, _, _, rfl, fun _ _ => trivial, rfl⟩

/-- The second cluster refuses the limit that it has already. -/
theorem refused_of_reachable_sample :
    unevenClusters.Reachable (fun _ => True) ∧
      ∃ fault, ((addConstraint "sample" ownLimit).run unevenClusters).outcome = .error fault ∧
        (((addConstraint "sample" ownLimit).run unevenClusters).state = unevenClusters ∨
          StoppedAt (discard (Block.addConstraint "sample" ownLimit))
            (·.through (discard (Block.addConstraint "sample" ownLimit))) fault unevenClusters
            ((addConstraint "sample" ownLimit).run unevenClusters).state) := by
  have refused : ((addConstraint "sample" ownLimit).run unevenClusters).outcome.isOk = false := by
    decide +kernel
  refine ⟨unevenClusters_reachable, ?_⟩
  cases h : ((addConstraint "sample" ownLimit).run unevenClusters).outcome with
  | error fault =>
    refine ⟨fault, rfl, ?_⟩
    exact (refused_of_reachable unevenClusters_reachable).2.1
      (.addConstraint "sample" ownLimit) _ fault rfl h
  | ok u =>
    rw [h] at refused
    cases refused

/-- **A refused operation may leave something behind.**  When both clusters are to be given the
limit, the second one refuses it and the first one keeps it. -/
theorem exists_partial_refusal :
    unevenClusters.Reachable (fun _ => True) ∧
      ∃ fault c d,
        ((addConstraint "sample" ownLimit).run unevenClusters).outcome = .error fault ∧
        unevenClusters.entries[0]? = some c ∧
        ((addConstraint "sample" ownLimit).run unevenClusters).state.entries[0]? = some d ∧
        d.block.registry ≠ c.block.registry := by
  -- there is no deciding whether registries are equal, but the numbers of constraints differ
  have kept : (match ((addConstraint "sample" ownLimit).run unevenClusters).outcome,
        unevenClusters.entries[0]?,
        ((addConstraint "sample" ownLimit).run unevenClusters).state.entries[0]? with
      | .error _, some c, some d =>
        d.block.registry.states.items.map (fun s => s.constraints.size) !=
          c.block.registry.states.items.map fun s => s.constraints.size
      | _, _, _ => false) = true := by decide +kernel
  refine ⟨unevenClusters_reachable, ?_⟩
  split at kept
  case h_1 fault c d refused before after =>
    refine ⟨fault, c, d, refused, before, after, fun same => ?_⟩
    rw [same] at kept
    simp at kept
  case h_2 => cases kept

end Clusters

end Autotune
