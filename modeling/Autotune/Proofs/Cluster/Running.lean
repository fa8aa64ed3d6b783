import Autotune.Proofs.Block.Frame
import Autotune.Proofs.Cluster.Directory
import Autotune.Proofs.State.Selection

/-!
# What runs, according to the clusters

Every cluster keeps a record of its own of the configuration that runs, and what the selected one
says is what clusters say as a whole (`Clusters.running?`).  Applying a point is noted by the
selected cluster alone.  When the selection moves, the record is passed on if the cluster that takes
over knows the configuration; otherwise that cluster keeps its own record, which may be an old one
(`Clusters.running?_selectFor`).

* `Clusters.running_after`: as long as whoever takes over knows the configuration, clusters say
  that the point runs that was applied last; in any case they only name configurations that have
  been applied at some time;
* `Clusters.exists_stale_record`: a cluster that does not know the configuration may say that
  another one runs.
-/

namespace Autotune

open Operation
open State (samplePoint)

namespace Clusters

variable {kn mn fn : Nat} {cs cs' : Clusters kn mn fn} {c next : Cluster kn mn fn}
  {input : Vector Float fn} {p r : OperatingPoint kn mn} {command : Command kn mn fn}

/-- The configuration that runs, as the selected cluster says. -/
def running? (cs : Clusters kn mn fn) : Option (OperatingPoint kn mn) :=
  cs.current?.bind fun c => c.block.running

/-- The cluster that takes over when the selection moves to serve an input. -/
def successor? (cs : Clusters kn mn fn) (input : Vector Float fn) : Option (Cluster kn mn fn) :=
  match checkFeatures input.toList, cs.entries with
  | .ok _, first :: others =>
    if cs.selected = some (cs.bestFor input first others) then none
    else cs.entries[cs.bestFor input first others]?
  | _, _ => none

/-- Nobody applies a point in the block of a single cluster, past all the others. -/
def Command.Indirect : Command kn mn fn → Prop
  | .direct _ (.apply _) => False
  | _ => True

/-- Whether a cluster that takes over knows the configuration that runs. -/
def informed (cs : Clusters kn mn fn) : Command kn mn fn → Bool
  | .selectFor input =>
    (cs.successor? input).all fun next =>
      cs.running?.any fun r => (next.block.knowledge.get? r.id).isSome
  | _ => true

/-- Whether, whatever cluster takes over in a run, it knows the configuration that runs. -/
def informedThrough (cs : Clusters kn mn fn) : List (Command kn mn fn) → Bool
  | [] => true
  | command :: rest => cs.informed command && (command.operation.run cs).state.informedThrough rest

/-! ### Commands that leave all records alone -/

/-- What the clusters say that runs. -/
def records (cs : Clusters kn mn fn) : List (Option (OperatingPoint kn mn)) :=
  cs.entries.map fun c => c.block.running

/-- The command applies no point, and the clusters and the selection stay as they are. -/
def Command.KeepsRecords : Command kn mn fn → Prop
  | .add .. | .remove _ | .selectFor _ | .apply _ | .direct _ (.apply _) => False
  | _ => True

/-- The same records, and the same place is selected. -/
structure SameRecords (cs cs' : Clusters kn mn fn) : Prop where
  records : cs'.records = cs.records
  selected : cs'.selected = cs.selected

namespace SameRecords

lemma refl (cs : Clusters kn mn fn) : cs.SameRecords cs := ⟨rfl, rfl⟩

lemma running? (h : cs.SameRecords cs') : cs'.running? = cs.running? := by
  have record (cs : Clusters kn mn fn) :
      cs.running? = cs.selected.bind fun i => (cs.records[i]?).bind id := by
    simp only [Clusters.running?, current?, Clusters.records, Option.bind_assoc,
      List.getElem?_map]
    congr 1
    funext i
    cases cs.entries[i]? <;> rfl
  rw [record, record, h.records, h.selected]

lemma setBlock {i : Nat} {b : Block kn mn}
    (same : ∀ c, cs.entries[i]? = some c → b.running = c.block.running) :
    cs.SameRecords (cs.setBlock i b) :=
  ⟨map_setBlock (f := fun c => c.block.running) same, rfl⟩

lemma putCurrent (current : cs.current? = some c) {b : Block kn mn}
    (same : b.running = c.block.running) : cs.SameRecords (cs.putCurrent b) := by
  obtain ⟨i, selected, found⟩ := Option.bind_eq_some_iff.mp current
  unfold Clusters.putCurrent
  rw [selected]
  refine setBlock fun d hd => ?_
  obtain rfl : c = d := Option.some_inj.mp (found.symm.trans hd)
  exact same

lemma attemptAll {op undo : Operation (Block kn mn) Unit}
    (done : ∀ b, (op.run b).state.running = b.running)
    (undone : ∀ b, (undo.run b).state.running = b.running) :
    cs.SameRecords ((attemptAll op undo).run cs).state := by
  unfold run Clusters.attemptAll
  split
  · exact refl cs
  · exact ⟨map_attempt (f := fun c => c.block.running) (fun c => done c.block)
      (fun c => undone c.block) cs.entries, rfl⟩

lemma each {α : Type} {op : Operation (Block kn mn) α}
    (done : ∀ b, (op.run b).state.running = b.running) :
    cs.SameRecords ((each op).run cs).state :=
  attemptAll (fun b => run_discard_state.symm ▸ done b) fun _ => rfl

end SameRecords

open Block in
/-- **Most commands leave all records alone.** -/
theorem sameRecords_run (cs : Clusters kn mn fn) (h : command.KeepsRecords) :
    cs.SameRecords (command.operation.run cs).state := by
  cases command with
  | add | remove | selectFor | apply => cases h
  | select =>
    show cs.SameRecords ((discard Clusters.select).run cs).state
    rw [run_discard_state]
    cases outcome : (Clusters.select.run cs).outcome with
    | error fault =>
      rw [(atomic_select cs fault outcome).1]
      exact .refl cs
    | ok selection =>
      obtain ⟨c, current, -, state⟩ := select_yields ⟨outcome, rfl⟩
      rw [state]
      exact .putCurrent current rfl
  | update bank =>
    show cs.SameRecords (cs.update bank).value.2
    unfold Clusters.update
    split
    · exact .refl cs
    case h_2 c current =>
      exact .putCurrent current (running_execute c.block (.update bank) (by simp))
  | direct place command =>
    have other : ∀ p, command ≠ .apply p := by
      rintro p rfl
      exact h
    show cs.SameRecords (cs.executeAt place command).value
    unfold Clusters.executeAt
    split
    · exact .refl cs
    case h_2 c found =>
      refine .setBlock fun d hd => ?_
      obtain rfl : c = d := Option.some_inj.mp (found.symm.trans hd)
      exact running_execute c.block command other
  | setRank state rank =>
    obtain ⟨fault, refused⟩ | ⟨first, s, -, -, same⟩ := setRank_run cs state rank
    · have same : ((setRank state rank).run cs).state = cs := by rw [refused]
      exact same.symm ▸ .refl cs
    · have all : cs.SameRecords ((attemptAll (Block.setRank state rank)
          (Block.setRank state s.rank)).run cs).state :=
        .attemptAll (fun b => running_execute b (.setRank state rank) (by simp))
          fun b => running_execute b (.setRank state s.rank) (by simp)
      exact same.symm ▸ all
  | addState s =>
    exact .attemptAll (fun b => running_execute b (.addState s) (by simp))
      fun b => run_discard_state.symm ▸ running_execute b (.removeState s.name) (by simp)
  | removeState name =>
    exact .each fun b => running_execute b (.removeState name) (by simp)
  | setState name => exact .each fun b => running_execute b (.setState name) (by simp)
  | addConstraint state c =>
    exact .each fun b => running_execute b (.addConstraint state c) (by simp)
  | removeConstraint state priority =>
    exact .each fun b => running_execute b (.removeConstraint state priority) (by simp)
  | setTarget state priority target =>
    exact .each fun b => running_execute b (.setTarget state priority target) (by simp)

/-! ### Handing over -/

lemma running_takeOver (b : Block kn mn) (running : Option (OperatingPoint kn mn)) :
    (takeOver b running).value.running =
      (running.bind fun r => b.knowledge.get? r.id).or b.running := by
  unfold takeOver
  have knowledge : b.resetAdaptation.knowledge = b.knowledge := rfl
  dsimp only
  rw [knowledge]
  split
  case h_1 p known =>
    obtain ⟨_, applied⟩ := Block.execute_apply b.resetAdaptation p
    have runs : (b.resetAdaptation.apply p).value.running = some p := congrArg Block.running applied
    rw [known, runs, Option.some_or]
  case h_2 unknown =>
    rw [unknown, Option.none_or]
    rfl

lemma running?_handOver (cs : Clusters kn mn fn) {best : Nat} (other : cs.selected ≠ some best)
    (found : cs.entries[best]? = some next) :
    (cs.handOver best).value.2.running? =
      (cs.running?.bind fun r => next.block.knowledge.get? r.id).or next.block.running := by
  unfold handOver
  rw [if_neg other, found, ← running_takeOver]
  show ({ cs with selected := some best }.setBlock best
    (takeOver next.block cs.running?).value).running? = _
  generalize (takeOver next.block cs.running?).value = b
  simp [running?, current?, setBlock, List.getElem?_modify, found]

lemma mem_of_successor? (h : cs.successor? input = some next) : next ∈ cs.entries := by
  unfold successor? at h
  split at h
  · split at h
    · cases h
    · exact List.mem_of_getElem? h
  · cases h

/-- **The law of handing over.**  If the cluster that takes over knows the configuration that runs,
it says so.  Otherwise it says what it said before. -/
theorem running?_selectFor (cs : Clusters kn mn fn) (input : Vector Float fn) :
    ((selectFor input).run cs).state.running? =
      match cs.successor? input with
      | none => cs.running?
      | some next =>
        (cs.running?.bind fun r => next.block.knowledge.get? r.id).or next.block.running := by
  cases finite : checkFeatures input.toList with
  | error fault =>
    have refused : (selectFor input).run cs = ⟨.error fault, cs, []⟩ := by
      simp [selectFor, run, bind, andThen, check, finite]
    simp only [refused, successor?, finite]
  | ok u =>
    cases entries : cs.entries with
    | nil =>
      have refused : (selectFor input).run cs = ⟨.error .noCluster, cs, []⟩ := by
        simp [selectFor, run, bind, andThen, Operation.read, check, finite, entries]
      simp only [refused, successor?, finite, entries]
    | cons first others =>
      have state : ((selectFor input).run cs).state =
          (cs.handOver (cs.bestFor input first others)).value.2 := by
        simp [selectFor, run, bind, andThen, Operation.read, check, step, finite, entries]
      simp only [state, successor?, finite, entries]
      by_cases same : cs.selected = some (cs.bestFor input first others)
      · rw [if_pos same, handOver, if_pos same]
        rfl
      · rw [if_neg same, ← entries]
        cases found : cs.entries[cs.bestFor input first others]? with
        | none =>
          rw [handOver, if_neg same, found]
          rfl
        | some next => exact running?_handOver cs same found

/-! ### Every run -/

lemma running?_apply (p : OperatingPoint kn mn) (filled : cs.current?.isSome = true) :
    ((apply p).run cs).state.running? = some p := by
  obtain ⟨c, current⟩ := Option.isSome_iff_exists.mp filled
  have state : ((apply p).run cs).state = cs.putCurrent (c.block.apply p).value := by
    simp [apply, run, bind, andThen, Operation.read, check, step, Clusters.current, current,
      Logged.map]
  obtain ⟨i, selected, found⟩ := Option.bind_eq_some_iff.mp current
  obtain ⟨_, applied⟩ := Block.execute_apply c.block p
  have runs : (c.block.apply p).value.running = some p := congrArg Block.running applied
  rw [state]
  simp [running?, current?, putCurrent, selected, setBlock, List.getElem?_modify, found, runs]

lemma changed_eq_false {name : String} (runs : cs.running?.map OperatingPoint.id = some name)
    {selection : Selection kn mn} (ok : select.Yields cs selection cs') :
    selection.changed = false ↔ selection.point.id = name := by
  obtain ⟨c, current, rfl, -⟩ := select_yields ok
  have record : c.block.running.map OperatingPoint.id = some name := by
    rwa [running?, current] at runs
  have changed : c.block.select.value.1.changed =
      (c.block.running.map OperatingPoint.id != some c.block.select.value.1.point.id) :=
    State.select_changed
  rw [changed, record, bne_eq_false_iff_eq, Option.some_inj, eq_comm]

/-- **What clusters say stays true.**  As long as no other point is applied and whoever takes over
knows the configuration, they say that it runs. -/
theorem running?_run (filed : cs.Filed) (indexed : cs.Every fun b => b.knowledge.Indexed)
    {name : String} (runs : cs.running?.map OperatingPoint.id = some name)
    (indirect : command.Indirect) (other : ∀ p, command ≠ .apply p)
    (informed : cs.informed command = true) :
    (command.operation.run cs).state.running?.map OperatingPoint.id = some name := by
  by_cases keeps : command.KeepsRecords
  · rwa [(sameRecords_run cs keeps).running?]
  · -- what is left to show of a command that keeps the selected cluster as it is
    have kept (same : (command.operation.run cs).state.current? = cs.current?) :
        (command.operation.run cs).state.running?.map OperatingPoint.id = some name := by
      rwa [running?, same]
    have filled : cs.entries ≠ [] := by
      rintro none
      simp [running?, current?, none] at runs
    cases command with
    | add features points =>
      refine kept ?_
      cases outcome : ((add features points).run cs).outcome with
      | error fault => exact congrArg current? (atomic_add cs fault outcome).1
      | ok u =>
        obtain ⟨built, -, -, current⟩ := filed.appended ⟨outcome, rfl⟩
        rwa [if_neg filled] at current
    | remove features =>
      refine kept ?_
      cases outcome : ((remove features).run cs).outcome with
      | error fault => exact congrArg current? (atomic_remove cs fault outcome).1
      | ok u =>
        obtain ⟨_, _, -, -, -, current⟩ := filed.dropped ⟨outcome, rfl⟩
        exact current
    | selectFor input =>
      show ((discard (selectFor input)).run cs).state.running?.map OperatingPoint.id = _
      rw [run_discard_state, running?_selectFor]
      cases successor : cs.successor? input with
      | none => exact runs
      | some next =>
        -- who takes over finds a point of the configuration in its own knowledge
        simp only [Clusters.informed, successor, Option.all_some, Option.any_eq_true] at informed
        obtain ⟨r, record, known⟩ := informed
        obtain ⟨q, found⟩ := Option.isSome_iff_exists.mp known
        have member : next ∈ cs.entries := mem_of_successor? successor
        have same : q.id = r.id := ((indexed next member).get?_eq_some.mp found).2
        rw [record] at runs
        rw [record]
        simp only [Option.bind_some, found, Option.some_or, Option.map_some, same]
        exact runs
    | apply p => exact absurd rfl (other p)
    | direct place command =>
      cases command with
      | apply p => cases indirect
      | _ => exact absurd trivial keeps
    | _ => exact absurd trivial keeps

/-- **Clusters say that the point runs that was applied last**, as long as whoever takes over knows
its configuration. -/
theorem running?_after (filed : cs.Filed) (indexed : cs.Every fun b => b.knowledge.Indexed)
    {name : String} (runs : cs.running?.map OperatingPoint.id = some name)
    {since : List (Command kn mn fn)}
    (indirect : ∀ command ∈ since, command.Indirect ∧ ∀ p, command ≠ .apply p)
    (informed : cs.informedThrough since = true) :
    (cs.after since).running?.map OperatingPoint.id = some name := by
  induction since generalizing cs with
  | nil => exact runs
  | cons command rest ih =>
    obtain ⟨⟨here, other⟩, later⟩ := List.forall_mem_cons.mp indirect
    obtain ⟨first, rest⟩ := (Bool.and_eq_true _ _).mp informed
    refine ih (filed.run command) ?_ (running?_run filed indexed runs here other first) later rest
    exact indexed.run_all (fun _ _ => Block.indexed_of_build)
      (fun _ command h => Block.indexed_execute h command) command

/-! ### Records of what has been applied -/

/-- The block says of no configuration but those of a kind that it runs. -/
def Reports (kind : String → Prop) (b : Block kn mn) : Prop := ∀ r, b.running = some r → kind r.id

lemma running_of_build {parts : Builder kn mn} {built : Logged (Block kn mn)}
    (accepted : parts.build = .ok built) : built.value.running = none := by
  obtain ⟨_, _, _, _, _, -, -, -, -, -, -, same⟩ := Builder.build_eq_ok accepted
  rw [same]

lemma reports_takeOver {kind : String → Prop} {b : Block kn mn}
    {running : Option (OperatingPoint kn mn)} (own : Reports kind b) (indexed : b.knowledge.Indexed)
    (passed : ∀ r, running = some r → kind r.id) : Reports kind (takeOver b running).value := by
  intro q record
  rw [running_takeOver, Option.or_eq_some_iff] at record
  obtain known | ⟨-, kept⟩ := record
  · obtain ⟨r, runs, found⟩ := Option.bind_eq_some_iff.mp known
    rw [(indexed.get?_eq_some.mp found).2]
    exact passed r runs
  · exact own q kept

/-- **No record is made up.**  Clusters name no configuration but those that are applied. -/
theorem Every.reports_run {kind : String → Prop} (h : cs.Every (Reports kind))
    (indexed : cs.Every fun b => b.knowledge.Indexed) (indirect : command.Indirect)
    (applied : ∀ p, command = .apply p → kind p.id) :
    (command.operation.run cs).state.Every (Reports kind) := by
  have passed : ∀ r, cs.running? = some r → kind r.id := fun r record => by
    obtain ⟨c, current, runs⟩ := Option.bind_eq_some_iff.mp record
    exact h.current current r runs
  by_cases keeps : command.KeepsRecords
  · intro c hc r record
    have member : c.block.running ∈ cs.records :=
      (sameRecords_run cs keeps).records ▸ List.mem_map_of_mem hc
    obtain ⟨d, hd, same⟩ := List.mem_map.mp member
    exact h d hd r (same.trans record)
  · -- what is left to show of an operation is about its being accepted
    have accepted {α : Type} {op : Operation (Clusters kn mn fn) α} (atomic : op.Atomic)
        (ok : ∀ a cs', op.Yields cs a cs' → cs'.Every (Reports kind)) :
        (op.run cs).state.Every (Reports kind) := by
      cases outcome : (op.run cs).outcome with
      | error fault => rwa [(atomic cs fault outcome).1]
      | ok a => exact ok a _ ⟨outcome, rfl⟩
    cases command with
    | add features points =>
      refine accepted atomic_add fun _ _ ok => h.add (fun built accepted r record => ?_) ok
      rw [running_of_build accepted] at record
      cases record
    | remove features => exact accepted atomic_remove fun _ _ ok => h.remove ok
    | selectFor input =>
      show ((discard (Clusters.selectFor input)).run cs).state.Every (Reports kind)
      rw [run_discard_state]
      refine accepted atomic_selectFor fun _ _ ok => ?_
      obtain ⟨best, -, rfl⟩ := selectFor_yields ok
      unfold Clusters.handOver
      split
      · exact h
      · split
        · exact h
        case h_2 next found =>
          have member := List.mem_of_getElem? found
          have selected : Every (Reports kind) { cs with selected := some best } := h
          exact selected.setBlock fun _ _ =>
            reports_takeOver (h next member) (indexed next member) passed
    | apply p =>
      refine accepted atomic_apply fun _ _ ok => ?_
      obtain ⟨c, -, rfl⟩ := apply_yields ok
      refine h.putCurrent fun r record => ?_
      obtain ⟨_, same⟩ := Block.execute_apply c.block p
      have runs : (c.block.apply p).value.running = some p := congrArg Block.running same
      obtain rfl : p = r := Option.some_inj.mp (runs.symm.trans record)
      exact applied p rfl
    | direct place command =>
      cases command with
      | apply p => cases indirect
      | _ => exact absurd trivial keeps
    | _ => exact absurd trivial keeps

lemma reports_after {kind : String → Prop} {commands : List (Command kn mn fn)}
    (h : cs.Every (Reports kind)) (indexed : cs.Every fun b => b.knowledge.Indexed)
    (each : ∀ command ∈ commands, command.Indirect ∧ ∀ p, command = .apply p → kind p.id) :
    (cs.after commands).Every (Reports kind) := by
  induction commands generalizing cs with
  | nil => exact h
  | cons command rest ih =>
    obtain ⟨⟨indirect, applied⟩, later⟩ := List.forall_mem_cons.mp each
    refine ih (h.reports_run indexed indirect applied) ?_ later
    exact indexed.run_all (fun _ _ => Block.indexed_of_build)
      (fun _ command h => Block.indexed_execute h command) command

/-- **What clusters say that runs.**  Unless somebody applies points past the clusters, at any
moment of a run:

* every configuration that a cluster says runs has been applied at some time;
* a cluster that takes over says what the one before it said if it knows the configuration, and
  otherwise what it said itself when it was last selected;
* as long as every cluster that took over since a point was applied knew its configuration, the
  selected cluster says that it runs, and a choice is a change just when another configuration is
  chosen. -/
theorem running_after {template : Builder kn mn} {comparisons : Vector FeatureComparison fn}
    {distance : FeatureDistance} {start : Clusters kn mn fn}
    (made : ofTemplate template comparisons distance = .ok start)
    {commands : List (Command kn mn fn)} (indirect : ∀ command ∈ commands, command.Indirect) :
    (∀ c ∈ (start.after commands).entries, ∀ r, c.block.running = some r →
      ∃ p, .apply p ∈ commands ∧ p.id = r.id) ∧
    (∀ input, ((selectFor input).run (start.after commands)).state.running? =
      match (start.after commands).successor? input with
      | none => (start.after commands).running?
      | some next =>
        ((start.after commands).running?.bind fun r => next.block.knowledge.get? r.id).or
          next.block.running) ∧
    ∀ before p since, commands = before ++ .apply p :: since →
      (start.after before).entries ≠ [] → (∀ q, .apply q ∉ since) →
      (start.after (before ++ [.apply p])).informedThrough since = true →
      (start.after commands).running?.map OperatingPoint.id = some p.id ∧
        ∀ selection cs', select.Yields (start.after commands) selection cs' →
          (selection.changed = false ↔ selection.point.id = p.id) := by
  have reachable (commands : List (Command kn mn fn)) :
      (start.after commands).Reachable fun _ => True :=
    ⟨template, comparisons, distance, start, commands, made, fun _ _ => trivial, rfl⟩
  have filed (commands : List (Command kn mn fn)) : (start.after commands).Filed :=
    (reachable commands).filed
  have indexed (commands : List (Command kn mn fn)) :
      (start.after commands).Every fun b => b.knowledge.Indexed :=
    (reachable commands).every (fun _ _ => Block.indexed_of_build)
      fun _ command h => Block.indexed_execute h command
  refine ⟨?_, running?_selectFor _, fun before p since parts filled last informed => ?_⟩
  · have none : start.entries = [] := entries_of_ofTemplate made
    have reported : (start.after commands).Every
        (Reports fun id => ∃ p, .apply p ∈ commands ∧ p.id = id) := by
      refine reports_after (by simp [Every, none]) (by simp [Every, none])
        fun command member => ⟨indirect command member, ?_⟩
      rintro p rfl
      exact ⟨p, member, rfl⟩
    exact reported
  · have split : start.after commands = (start.after (before ++ [.apply p])).after since := by
      rw [parts, after, after, after, ← List.foldl_append, List.append_assoc,
        List.singleton_append]
    have applied : (start.after (before ++ [.apply p])).running? = some p := by
      rw [after, List.foldl_concat]
      exact running?_apply p ((filed before).current?_isSome.mpr filled)
    have later : ∀ command ∈ since, command.Indirect ∧ ∀ q, command ≠ .apply q := by
      refine fun command member => ⟨indirect command (by simp [parts, member]), ?_⟩
      rintro q rfl
      exact last q member
    have runs : (start.after commands).running?.map OperatingPoint.id = some p.id := by
      rw [split]
      exact running?_after (filed _) (indexed _) (by rw [applied]; rfl) later informed
    exact ⟨runs, fun selection cs' ok => changed_eq_false runs ok⟩

/-- Two clusters that know one configuration each.  The application is switched from the first to
the second, and then the first one is selected again. -/
def staleCommands : List (Command 1 1 1) :=
  [.add (oneFeature 1) [samplePoint 1 5], .add (oneFeature 2) [samplePoint 3 5],
    .apply (samplePoint 1 5), .selectFor (oneFeature 2), .apply (samplePoint 3 5),
    .selectFor (oneFeature 1)]

/-- Between two clusters that know all three points the record is passed on. -/
theorem running_after_sample :
    let before : List (Command 1 1 1) :=
      [.add (oneFeature 1) Block.sampleBuilder.points,
        .add (oneFeature 2) Block.sampleBuilder.points]
    let commands := before ++ .apply (samplePoint 3 15) :: [.selectFor (oneFeature 2)]
    (∀ command ∈ commands, command.Indirect) ∧ (noClusters.after commands).selected = some 1 ∧
      (noClusters.after commands).running?.map OperatingPoint.id = some (samplePoint 3 15).id := by
  intro before commands
  have indirect : ∀ command ∈ commands, command.Indirect := by
    simp [commands, before, Command.Indirect]
  have made : ofTemplate Block.sampleBuilder (.replicate 1 .dontCare) .euclidean =
      .ok noClusters := rfl
  obtain ⟨-, -, record⟩ := running_after made indirect
  refine ⟨indirect, by decide +kernel, ?_⟩
  exact (record before (samplePoint 3 15) [.selectFor (oneFeature 2)] rfl
    (List.ne_nil_of_length_pos (by decide +kernel)) (by simp) (by decide +kernel)).1

/-- **A cluster that does not know the configuration may say that another one runs.**  When it is
selected again, it still has the record from before, and a choice of that configuration is no change
to it. -/
theorem exists_stale_record :
    ∃ start commands before since, ∃ p r : OperatingPoint 1 1, ∃ selection,
      ofTemplate Block.sampleBuilder (.replicate 1 .dontCare) .euclidean = .ok start ∧
      (∀ command ∈ commands, command.Indirect) ∧ commands = before ++ .apply p :: since ∧
      (∀ q, .apply q ∉ since) ∧ (start.after commands).running? = some r ∧ r.id ≠ p.id ∧
      (∃ cs', select.Yields (start.after commands) selection cs') ∧ selection.changed = false ∧
      selection.point.id ≠ p.id := by
  have record : ((noClusters.after staleCommands).running?.map OperatingPoint.id) = some "1" := by
    decide +kernel
  have chosen : (match (select.run (noClusters.after staleCommands)).outcome with
      | .ok selection => !selection.changed && selection.point.id == "1"
      | .error _ => false) = true := by decide +kernel
  have last : (samplePoint 3 5).id = "3" := by decide +kernel
  obtain ⟨r, runs, name⟩ := Option.map_eq_some_iff.mp record
  split at chosen
  case h_1 selection ok =>
    simp only [Bool.and_eq_true, Bool.not_eq_true', beq_iff_eq] at chosen
    refine ⟨noClusters, staleCommands, staleCommands.take 4, [.selectFor (oneFeature 1)],
      samplePoint 3 5, r,
      selection, rfl, by simp [staleCommands, Command.Indirect], rfl, by simp, runs, ?_,
      ⟨_, ok, rfl⟩, chosen.1, ?_⟩
    · rw [name, last]
      decide
    · rw [chosen.2, last]
      decide
  case h_2 => cases chosen

end Clusters

end Autotune
