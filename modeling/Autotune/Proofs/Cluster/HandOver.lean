import Autotune.Proofs.Block.Switch
import Autotune.Proofs.Cluster.Contest
import Autotune.Proofs.Cluster.Running

/-!
# What changes when another cluster takes over

The block that takes over forgets what it learned and observed under other data, and it says that
the running configuration runs in it, if it knows that configuration.  Everything else about it
stays (`Clusters.TakenOver`, `Clusters.takenOver`), and so does every other cluster
(`Clusters.handOver_value`).  The clusters do not hold the windows of their monitors, so these are
out of reach of a selection: the block observes what it observed before.

* `Clusters.handOver_of_reachable`: what a selection changes, whether it moves, stays or is refused.
-/

namespace Autotune

open Operation

/-! ### Resetting twice -/

namespace Block

variable {kn mn : Nat}

lemma resetStates_resetStates (b : Block kn mn) : b.resetStates.resetStates = b.resetStates := by
  have once : (b.states.map State.reset fun _ => rfl).map State.reset (fun _ => rfl) =
      b.states.map State.reset fun _ => rfl := by
    refine Roster.map_map_of_absorbs _ fun s => ?_
    have trackers : (s.constraints.map Constraint.reset fun _ => rfl).map Constraint.reset
        (fun _ => rfl) = s.constraints.map Constraint.reset fun _ => rfl :=
      Roster.map_map_of_absorbs _ fun _ => rfl
    exact congrArg (State.mk s.name s.rank) trackers
  exact congrArg (fun states => { b with states := states }) once

/-- A block that has just been reset has nothing to forget when it starts to run something else. -/
lemma apply_resetAdaptation (b : Block kn mn) (p : OperatingPoint kn mn) :
    (b.resetAdaptation.apply p).value = { b.resetAdaptation with running := some p } := by
  unfold apply
  split
  · rfl
  · exact resetStates_resetStates { b with adaptors := b.adaptors.reset, running := some p }

end Block

namespace Clusters

variable {kn mn fn : Nat} {cs : Clusters kn mn fn} {next : Cluster kn mn fn}
  {b : Block kn mn} {running : Option (OperatingPoint kn mn)} {i : Nat}

/-! ### The block that takes over -/

/-- A block has taken over from another one, in which a configuration may have run. -/
structure TakenOver (b : Block kn mn) (running : Option (OperatingPoint kn mn))
    (taken : Block kn mn) : Prop where
  /-- Nothing but adaptors, observed statuses and the running configuration is changed. -/
  rest : taken =
    { b with
      adaptors := b.adaptors.map Adaptor.clear fun _ => rfl
      states := b.states.map State.reset fun _ => rfl
      running := taken.running }
  /-- No adaptor corrects anything. -/
  neutral : ∀ a ∈ taken.adaptors.items, ∀ sample ∈ a.window, sample = a.mode.neutral
  /-- Every constraint of every state is satisfied, and no vote speaks against it. -/
  fresh : taken.Fresh
  /-- A configuration that the block knows goes on running, as its own point. -/
  carried : ∀ r p, running = some r → p ∈ b.knowledge.points → p.id = r.id →
    taken.running = some p
  /-- Without such a configuration the block says what it said before. -/
  unknown : (∀ r, running = some r → ∀ p ∈ b.knowledge.points, p.id ≠ r.id) →
    taken.running = b.running
  /-- The monitors show what they showed before. -/
  observed : ∀ bank, taken.observed bank = b.observed bank

lemma takeOver_value (b : Block kn mn) (running : Option (OperatingPoint kn mn)) :
    (takeOver b running).value =
      { b.resetAdaptation with running := (takeOver b running).value.running } := by
  unfold takeOver
  dsimp only
  split
  · rw [Block.apply_resetAdaptation]
  · rfl

/-- **What becomes of the block that takes over.** -/
theorem takenOver (indexed : b.knowledge.Indexed) (running : Option (OperatingPoint kn mn)) :
    TakenOver b running (takeOver b running).value := by
  have value := takeOver_value b running
  have runs := running_takeOver b running
  generalize (takeOver b running).value = taken at value runs
  refine ⟨value, ?_, ?_, fun r p ran known same => ?_, fun unknown => ?_, fun bank => ?_⟩
  · intro a ha sample hs
    have adaptors : taken.adaptors = b.adaptors.map Adaptor.clear fun _ => rfl := by
      rw [value]
      rfl
    rw [adaptors] at ha
    obtain ⟨a', -, rfl⟩ := List.mem_map.mp ha
    obtain ⟨-, -, rfl⟩ := List.mem_map.mp hs
    rfl
  · rw [value]
    exact Block.fresh_resetStates { b with adaptors := b.adaptors.reset, running := taken.running }
  · rw [runs, ran, Option.bind_some, indexed.get?_eq_some.mpr ⟨known, same⟩, Option.some_or]
  · have none : (running.bind fun r => b.knowledge.get? r.id) = none := by
      refine Option.eq_none_iff_forall_not_mem.mpr fun p hp => ?_
      obtain ⟨r, ran, found⟩ := Option.bind_eq_some_iff.mp hp
      obtain ⟨known, same⟩ := indexed.get?_eq_some.mp found
      exact unknown r ran p known same
    rw [runs, none, Option.none_or]
  · rw [value]
    rfl

/-! ### All clusters -/

/-- **Handing over changes the cluster that takes over, and no other.** -/
theorem handOver_value (other : cs.selected ≠ some i) (found : cs.entries[i]? = some next) :
    (cs.handOver i).value = (true,
      { cs with
        selected := some i
        entries := cs.entries.set i
          { next with block := (takeOver next.block cs.running?).value } }) := by
  have replaced : cs.entries.modify i (fun c =>
        { c with block := (takeOver next.block cs.running?).value }) =
      cs.entries.set i { next with block := (takeOver next.block cs.running?).value } := by
    rw [List.modify_eq_set_getElem?, found]
    rfl
  rw [← replaced]
  unfold handOver
  rw [if_neg other, found]
  rfl

/-- **What a selection changes.**  After any commands, a refused selection and one that stays with
the selected cluster change nothing.  One that moves selects another cluster, whose block takes over
from the block that was selected before; no other cluster is changed. -/
theorem handOver_of_reachable {kind : Command kn mn fn → Prop} (h : cs.Reachable kind)
    (input : Vector Float fn) :
    (∀ fault, ((selectFor input).run cs).outcome = .error fault →
      (selectFor input).run cs = ⟨.error fault, cs, []⟩) ∧
    (((selectFor input).run cs).outcome = .ok false →
      (selectFor input).run cs = ⟨.ok false, cs, []⟩) ∧
    ∀ cs', (selectFor input).Yields cs true cs' → ∃ i next taken,
      cs.selected ≠ some i ∧ cs.entries[i]? = some next ∧
      TakenOver next.block cs.running? taken ∧
      cs' = { cs with
        selected := some i
        entries := cs.entries.set i { next with block := taken } } := by
  have indexed : cs.Every fun b => b.knowledge.Indexed :=
    h.every (fun _ _ => Block.indexed_of_build) fun _ command h => Block.indexed_execute h command
  refine ⟨fun fault refused => ?_, fun stayed => ?_, fun cs' ok => ?_⟩
  · obtain ⟨same, quiet⟩ := atomic_selectFor cs fault refused
    have parts : (selectFor input).run cs = ⟨((selectFor input).run cs).outcome,
      ((selectFor input).run cs).state, ((selectFor input).run cs).events⟩ := rfl
    rw [parts, refused, same, quiet]
  · obtain ⟨finite, i, server, done⟩ := selectFor_yields_iff.mp
      (⟨stayed, rfl⟩ : (selectFor input).Yields cs false _)
    have same : cs.selected = some i := by
      by_contra other
      have moved := (moved_handOver (server?_lt server)).mpr other
      rw [done] at moved
      cases moved
    exact run_selectFor_selected finite server same
  · obtain ⟨-, i, server, done⟩ := selectFor_yields_iff.mp ok
    have inside := server?_lt server
    have found : cs.entries[i]? = some cs.entries[i] := List.getElem?_eq_getElem inside
    have other : cs.selected ≠ some i :=
      (moved_handOver inside).mp (congrArg Prod.fst done)
    rw [handOver_value other found] at done
    cases done
    exact ⟨i, _, _, other, found, takenOver (indexed _ (List.getElem_mem inside)) _, rfl⟩

/-- The second cluster learned and observed something while another configuration ran in it.  Then
the application went on in the first one. -/
def wornClusters : Clusters 1 1 1 :=
  noClusters.after
    [.add (oneFeature 1) Block.sampleBuilder.points,
      .add (oneFeature 2) [State.samplePoint 1 5, State.samplePoint 3 7],
      .direct 1 (.apply (State.samplePoint 1 5)), .direct 1 (.update ⟨[⟨1, [20], false⟩]⟩),
      .apply (State.samplePoint 3 15)]

lemma wornClusters_reachable : wornClusters.Reachable fun _ => True :=
  ⟨_, _, _, _, _, rfl, fun _ _ => trivial, rfl⟩

/-- The second cluster takes over, forgets what it learned and observed, and runs its own point of
the configuration that the first one was running. -/
theorem handOver_of_reachable_sample :
    wornClusters.Reachable (fun _ => True) ∧
      (wornClusters.entries[1]?.map fun c =>
        (c.block.adaptors.coefficients, c.block.activeState.anyViolated)) =
          some ([(0, 0.25)], true) ∧
      wornClusters.running?.map OperatingPoint.id = some "3" ∧
      ∃ cs' next taken p, (selectFor (oneFeature 2)).Yields wornClusters true cs' ∧
        wornClusters.entries[1]? = some next ∧ TakenOver next.block wornClusters.running? taken ∧
        cs'.entries[1]? = some { next with block := taken } ∧
        p ∈ next.block.knowledge.points ∧ p.id = "3" ∧ taken.running = some p := by
  have record : wornClusters.running?.map OperatingPoint.id = some "3" := by decide +kernel
  have worn : (wornClusters.entries[1]?.map fun c =>
      (c.block.adaptors.coefficients, c.block.activeState.anyViolated)) =
        some ([(0, 0.25)], true) := by decide +kernel
  have known : (wornClusters.entries[1]?.bind fun c =>
      c.block.knowledge.points.find? fun p => p.id = "3").isSome = true := by decide +kernel
  have finite : Finite (oneFeature 2) := by decide +kernel
  have server : wornClusters.server? (oneFeature 2) = some 1 := by decide +kernel
  have other : wornClusters.selected ≠ some 1 := by decide +kernel
  have reachable := wornClusters_reachable
  -- from here on it does not matter where the clusters come from
  generalize wornClusters = cs at *
  obtain ⟨moved, cs', ok, -, second, flag⟩ := exists_selected finite server
  obtain rfl : moved = true := flag.mpr other
  obtain ⟨-, -, changes⟩ := handOver_of_reachable reachable (oneFeature 2)
  obtain ⟨i, next, taken, -, found, takes, rfl⟩ := changes cs' ok
  obtain rfl : i = 1 := Option.some_inj.mp second
  rw [found] at known
  obtain ⟨p, here⟩ := Option.isSome_iff_exists.mp known
  have name : p.id = "3" := by simpa using List.find?_some here
  have member : p ∈ next.block.knowledge.points := List.mem_of_find?_eq_some here
  obtain ⟨r, ran, running⟩ := Option.map_eq_some_iff.mp record
  have inside : 1 < cs.entries.length := (List.getElem?_eq_some_iff.mp found).1
  exact ⟨reachable, worn, record, _, next, taken, p, ok, found, takes,
    List.getElem?_set_self inside, member, name,
    takes.carried r p ran member (name.trans running.symm)⟩

end Clusters

end Autotune
