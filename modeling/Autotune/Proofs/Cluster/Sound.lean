import Autotune.Proofs.Block.Registry
import Autotune.Proofs.Cluster.Run

/-!
# What holds of the block of every cluster

`Clusters.Every` says that something holds of every block.  What commands on a block keep that set
nothing up (`Block.Stable`) is kept by all commands on clusters that set nothing up either
(`Clusters.Every.run`), because the control loop of clusters consists of such commands on blocks.

An operation on all blocks keeps what its steps keep (`Clusters.Every.attemptAll`).  So what holds
of a block in every run holds of every cluster at any time (`Clusters.Reachable.every`).  In
particular its block is one that a run of a single block leads to (`Clusters.block_reachable`), and
so it is sound (`Clusters.sound_of_reachable`).
-/

namespace Autotune

open Operation

/-- Commands that set nothing up keep the property. -/
def Block.Stable {kn mn : Nat} (P : Block kn mn → Prop) : Prop :=
  ∀ ⦃b⦄, P b → ∀ command : Command kn mn, command.KeepsRegistry → P (b.execute command).value.2

namespace Clusters

variable {kn mn fn : Nat} {cs cs' : Clusters kn mn fn} {c d : Cluster kn mn fn}
  {P : Block kn mn → Prop} {fault : Fault} {i : Nat} {b : Block kn mn}

/-- The property holds of the block of every cluster. -/
def Every (P : Block kn mn → Prop) (cs : Clusters kn mn fn) : Prop := ∀ c ∈ cs.entries, P c.block

/-! ### The block of one cluster -/

lemma mem_setBlock (h : c ∈ (cs.setBlock i b).entries) :
    c ∈ cs.entries ∨ ∃ d, cs.entries[i]? = some d ∧ c = { d with block := b } := by
  obtain ⟨j, hj⟩ := List.mem_iff_getElem?.mp h
  rw [setBlock, List.getElem?_modify] at hj
  obtain ⟨d, hd, rfl⟩ := Option.map_eq_some_iff.mp hj
  split
  case isTrue here => exact .inr ⟨d, here ▸ hd, rfl⟩
  case isFalse => exact .inl (List.mem_of_getElem? hd)

lemma Every.setBlock (h : cs.Every P) (block : ∀ c, cs.entries[i]? = some c → P b) :
    (cs.setBlock i b).Every P := by
  intro c hc
  obtain hc | ⟨d, hd, rfl⟩ := mem_setBlock hc
  · exact h c hc
  · exact block d hd

lemma Every.executeAt (h : cs.Every P) {command : Autotune.Command kn mn}
    (keeps : ∀ b, P b → P (b.execute command).value.2) :
    (cs.executeAt i command).value.Every P := by
  unfold Clusters.executeAt
  split
  · exact h
  case h_2 c hc => exact h.setBlock fun _ _ => keeps _ (h c (List.mem_of_getElem? hc))

lemma Every.current (h : cs.Every P) (current : cs.current? = some c) : P c.block := by
  obtain ⟨i, -, hc⟩ := Option.bind_eq_some_iff.mp current
  exact h c (List.mem_of_getElem? hc)

lemma Every.putCurrent (h : cs.Every P) (block : P b) : (cs.putCurrent b).Every P := by
  unfold Clusters.putCurrent
  split
  · exact h.setBlock fun _ _ => block
  · exact h

/-! ### Commands that set nothing up -/

/-- The command sets nothing up in any block. -/
def Command.KeepsRegistries : Command kn mn fn → Prop
  | .remove _ | .selectFor _ | .select | .apply _ | .update _ => True
  | .direct _ command => command.KeepsRegistry
  | _ => False

lemma current_eq_ok : cs.current = .ok c ↔ cs.current? = some c := by
  unfold Clusters.current
  split <;> simp [*]

lemma place_eq_ok {key : String} : cs.place key = .ok i ↔ cs.position? key = some i := by
  unfold Clusters.place
  split <;> simp [*]

lemma remove_yields {features : Vector Float fn} {u : Unit}
    (ok : (remove features).Yields cs u cs') :
    ∃ i, cs.position? (key features.toList) = some i ∧ cs.selected ≠ some i ∧
      cs' = { cs with
        entries := cs.entries.eraseIdx i
        index := indexOf (cs.entries.eraseIdx i)
        selected := cs.selected.map fun j => if i < j then j - 1 else j } := by
  simp only [remove, read_bind_yields, check_bind_yields, ensure_bind_yields, step_yields,
    place_eq_ok] at ok
  obtain ⟨i, found, other, -, rfl⟩ := ok
  exact ⟨i, found, other, rfl⟩

lemma Every.remove (h : cs.Every P) {features : Vector Float fn} {u : Unit}
    (ok : (remove features).Yields cs u cs') : cs'.Every P := by
  obtain ⟨i, -, -, rfl⟩ := remove_yields ok
  exact fun c hc => h c (List.mem_of_mem_eraseIdx hc)

lemma selectFor_yields {input : Vector Float fn} {other : Bool}
    (ok : (selectFor input).Yields cs other cs') :
    ∃ best, other = (cs.handOver best).value.1 ∧ cs' = (cs.handOver best).value.2 := by
  simp only [selectFor, check_bind_yields, read_bind_yields] at ok
  obtain ⟨-, -, ok⟩ := ok
  split at ok
  · cases ok.1
  case h_2 first others _ =>
    obtain ⟨rfl, rfl⟩ := step_yields.mp ok
    exact ⟨cs.bestFor input first others, rfl, rfl⟩

lemma select_yields {selection : Selection kn mn} (ok : select.Yields cs selection cs') :
    ∃ c, cs.current? = some c ∧ selection = c.block.select.value.1 ∧
      cs' = cs.putCurrent c.block.select.value.2 := by
  simp only [select, read_bind_yields, check_bind_yields, step_yields, current_eq_ok] at ok
  obtain ⟨c, current, rfl, rfl⟩ := ok
  exact ⟨c, current, rfl, rfl⟩

lemma apply_yields {p : OperatingPoint kn mn} {u : Unit} (ok : (apply p).Yields cs u cs') :
    ∃ c, cs.current? = some c ∧ cs' = cs.putCurrent (c.block.apply p).value := by
  simp only [apply, read_bind_yields, check_bind_yields, step_yields, current_eq_ok] at ok
  obtain ⟨c, current, -, rfl⟩ := ok
  exact ⟨c, current, rfl⟩

section

variable (stable : Block.Stable P)

include stable

lemma takeOver_kept (h : P b) (running : Option (OperatingPoint kn mn)) :
    P (takeOver b running).value := by
  have fresh : P b.resetAdaptation := stable h .resetAdaptation trivial
  unfold takeOver
  dsimp only
  split
  case h_1 p _ => exact stable fresh (.apply p) trivial
  case h_2 => exact fresh

lemma Every.handOver (h : cs.Every P) (best : Nat) : (cs.handOver best).value.2.Every P := by
  unfold Clusters.handOver
  split
  · exact h
  · split
    · exact h
    case h_2 next found =>
      have taken := takeOver_kept stable (h next (List.mem_of_getElem? found))
      have selected : Every P { cs with selected := some best } := h
      exact selected.setBlock fun _ _ => taken _

lemma Every.selectFor (h : cs.Every P) {input : Vector Float fn} {other : Bool}
    (ok : (selectFor input).Yields cs other cs') : cs'.Every P := by
  obtain ⟨best, -, rfl⟩ := selectFor_yields ok
  exact h.handOver stable best

lemma Every.select (h : cs.Every P) {selection : Selection kn mn}
    (ok : select.Yields cs selection cs') : cs'.Every P := by
  obtain ⟨c, current, -, rfl⟩ := select_yields ok
  exact h.putCurrent (stable (h.current current) .select trivial)

lemma Every.apply (h : cs.Every P) {p : OperatingPoint kn mn} {u : Unit}
    (ok : (apply p).Yields cs u cs') : cs'.Every P := by
  obtain ⟨c, current, rfl⟩ := apply_yields ok
  exact h.putCurrent (stable (h.current current) (.apply p) trivial)

lemma Every.update (h : cs.Every P) (bank : Bank) : (cs.update bank).value.2.Every P := by
  unfold Clusters.update
  split
  · exact h
  case h_2 c current => exact h.putCurrent (stable (h.current current) (.update bank) trivial)

end

/-! ### Refused commands -/

lemma atomic_add {features : Vector Float fn} {points : List (OperatingPoint kn mn)} :
    (add features points : Operation (Clusters kn mn fn) Unit).Atomic :=
  (silent_check _).bind fun _ => silent_read.bind fun _ => (silent_ensure _ _).bind fun _ =>
    (silent_check _).bind fun _ => (sure_step _).atomic

lemma atomic_remove {features : Vector Float fn} :
    (remove features : Operation (Clusters kn mn fn) Unit).Atomic :=
  silent_read.bind fun _ => (silent_check _).bind fun _ => (silent_ensure _ _).bind fun _ =>
    (sure_step _).atomic

lemma atomic_selectFor {input : Vector Float fn} :
    (selectFor input : Operation (Clusters kn mn fn) Bool).Atomic := by
  refine (silent_check _).bind fun _ => silent_read.bind fun cs => ?_
  split
  · exact (silent_check _).atomic
  · exact (sure_step _).atomic

lemma atomic_select : (select : Operation (Clusters kn mn fn) (Selection kn mn)).Atomic :=
  silent_read.bind fun _ => (silent_check _).bind fun _ => (sure_step _).atomic

lemma atomic_apply {p : OperatingPoint kn mn} :
    (apply p : Operation (Clusters kn mn fn) Unit).Atomic :=
  silent_read.bind fun _ => (silent_check _).bind fun _ => (sure_step _).atomic

lemma Command.KeepsRegistries.atomic {command : Command kn mn fn} (h : command.KeepsRegistries) :
    command.operation.Atomic := by
  cases command with
  | remove features => exact atomic_remove
  | selectFor input => exact atomic_selectFor.discard
  | select => exact atomic_select.discard
  | apply p => exact atomic_apply
  | update bank => exact (sure_step _).atomic
  | direct place command => exact (sure_step _).atomic
  | _ => cases h

/-- **What commands on blocks keep that set nothing up, such commands on clusters keep.** -/
theorem Every.run (h : cs.Every P) (stable : Block.Stable P) {command : Command kn mn fn}
    (keeps : command.KeepsRegistries) : (command.operation.run cs).state.Every P := by
  cases outcome : (command.operation.run cs).outcome with
  | error fault => rwa [(keeps.atomic cs fault outcome).1]
  | ok u =>
    have ok : command.operation.Yields cs u (command.operation.run cs).state := ⟨outcome, rfl⟩
    cases command with
    | remove features => exact h.remove ok
    | selectFor input =>
      obtain ⟨other, ok⟩ := discard_yields.mp ok
      exact h.selectFor stable ok
    | select =>
      obtain ⟨selection, ok⟩ := discard_yields.mp ok
      exact h.select stable ok
    | apply p => exact h.apply stable ok
    | update bank => exact h.update stable bank
    | direct place command => exact h.executeAt fun _ hb => stable hb command keeps
    | _ => cases keeps

/-! ### Adding a cluster -/

lemma add_yields {features : Vector Float fn} {points : List (OperatingPoint kn mn)} {u : Unit}
    (ok : (add features points).Yields cs u cs') :
    checkFeatures features.toList = .ok ⟨⟩ ∧ cs.position? (key features.toList) = none ∧
      ∃ built, (cs.sibling points).build = .ok built ∧
        cs' = { cs with
          entries := cs.entries ++ [⟨features, built.value⟩]
          index := cs.index.insert ⟨key features.toList, cs.entries.length⟩
          selected := some (cs.selected.getD cs.entries.length) } := by
  simp only [add, read_bind_yields, check_bind_yields, ensure_bind_yields, step_yields] at ok
  obtain ⟨⟨⟩, finite, new, built, accepted, -, rfl⟩ := ok
  exact ⟨finite, by simpa using new, built, accepted, rfl⟩

lemma Every.add (h : cs.Every P) {features : Vector Float fn}
    {points : List (OperatingPoint kn mn)} {u : Unit}
    (built : ∀ built, (cs.sibling points).build = .ok built → P built.value)
    (ok : (add features points).Yields cs u cs') : cs'.Every P := by
  obtain ⟨-, -, b, accepted, rfl⟩ := add_yields ok
  intro c hc
  obtain hc | hc := List.mem_append.mp hc
  · exact h c hc
  · obtain rfl := List.mem_singleton.mp hc
    exact built b accepted

/-! ### Operations on all blocks -/

/-- **What an operation and its undoing keep, they keep on all blocks.** -/
theorem Every.attemptAll (h : cs.Every P) {op undo : Operation (Block kn mn) Unit}
    (keeps : ∀ b, P b → P (op.run b).state) (keeps' : ∀ b, P b → P (undo.run b).state) :
    ((attemptAll op undo).run cs).state.Every P := by
  cases outcome : ((Clusters.attemptAll op undo).run cs).outcome with
  | error fault =>
    obtain same | ⟨before, c, after, entries, -, -, state⟩ := attemptAll_eq_error outcome
    · rwa [same]
    · rw [state]
      intro d hd
      have member (e : Cluster kn mn fn) (he : e ∈ before ++ c :: after) : P e.block :=
        h e (entries ▸ he)
      -- done and undone before the one that refused, done there, and untouched after it
      obtain hd | hd := List.mem_append.mp hd
      · obtain ⟨e, he, rfl⟩ := List.mem_map.mp hd
        exact keeps' _ (keeps _ (member e (List.mem_append_left _ he)))
      · obtain rfl | hd := List.mem_cons.mp hd
        · exact keeps _ (member c (by simp))
        · exact member d (by simp [hd])
  | ok u =>
    obtain ⟨-, state⟩ := attemptAll_yields ⟨outcome, rfl⟩
    rw [state]
    intro d hd
    obtain ⟨e, he, rfl⟩ := List.mem_map.mp hd
    exact keeps _ (h e he)

/-! ### Every run -/

lemma Every.each (h : cs.Every P) {α : Type} {op : Operation (Block kn mn) α}
    (keeps : ∀ b, P b → P (op.run b).state) : ((each op).run cs).state.Every P :=
  h.attemptAll (fun b hb => run_discard_state.symm ▸ keeps b hb) fun _ hb => hb

/-- **What holds of every block that was just built and is kept by every command on a block is kept
by every command on clusters.** -/
theorem Every.run_all (h : cs.Every P)
    (build : ∀ (parts : Builder kn mn) built, parts.build = .ok built → P built.value)
    (keeps : ∀ b (command : Autotune.Command kn mn), P b → P (b.execute command).value.2)
    (command : Command kn mn fn) : (command.operation.run cs).state.Every P := by
  have stable : Block.Stable P := fun b hb command _ => keeps b command hb
  cases command with
  | add features points =>
    cases outcome : ((Clusters.add features points).run cs).outcome with
    | error fault =>
      have same : ((Clusters.add features points).run cs).state = cs :=
        (atomic_add cs fault outcome).1
      exact same.symm ▸ h
    | ok u => exact h.add (build _) ⟨outcome, rfl⟩
  | addState s =>
    exact h.attemptAll (fun b => keeps b (.addState s))
      fun b hb => run_discard_state.symm ▸ keeps b (.removeState s.name) hb
  | removeState name => exact h.each fun b => keeps b (.removeState name)
  | setState name => exact h.each fun b => keeps b (.setState name)
  | addConstraint state c => exact h.each fun b => keeps b (.addConstraint state c)
  | removeConstraint state priority =>
    exact h.each fun b => keeps b (.removeConstraint state priority)
  | setTarget state priority target =>
    exact h.each fun b => keeps b (.setTarget state priority target)
  | setRank state rank =>
    obtain ⟨fault, refused⟩ | ⟨first, s, -, -, same⟩ := setRank_run cs state rank
    · have same : ((setRank state rank).run cs).state = cs := by rw [refused]
      exact same.symm ▸ h
    · have all := h.attemptAll (fun b => keeps b (.setRank state rank))
        fun b => keeps b (.setRank state s.rank)
      exact same.symm ▸ all
  | direct place command => exact h.executeAt fun b => keeps b command
  | remove features | selectFor input | select | apply p | update bank => exact h.run stable trivial

/-- **What holds of every block that was just built and is kept by every command on a block holds of
every cluster at any time.** -/
theorem Reachable.every {kind : Command kn mn fn → Prop}
    (build : ∀ (parts : Builder kn mn) built, parts.build = .ok built → P built.value)
    (keeps : ∀ b (command : Autotune.Command kn mn), P b → P (b.execute command).value.2)
    (h : cs.Reachable kind) : cs.Every P :=
  h.induction (motive := Every P) (fun cs none => by simp [Every, none])
    fun _ command _ all => all.run_all build keeps command

/-- **The block of a cluster is one that could have been built and run on its own.**  So whatever
holds in every run of a block holds of the blocks of clusters. -/
theorem block_reachable {kind : Command kn mn fn → Prop} (h : cs.Reachable kind) :
    ∀ c ∈ cs.entries, c.block.Reachable :=
  h.every (fun _ _ => Block.reachable_of_build) fun _ command reachable =>
    Block.Reachable.execute reachable command

/-- **Every block is sound at any time.** -/
theorem sound_of_reachable {kind : Command kn mn fn → Prop} (h : cs.Reachable kind) :
    ∀ c ∈ cs.entries, c.block.Sound := fun c hc => (block_reachable h c hc).sound

end Clusters

end Autotune
