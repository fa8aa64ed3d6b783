import Autotune.Proofs.Cluster.Sound

/-!
# Clusters that are set up together

Clusters `Clusters.Agree` when their blocks are sound and have one registry.  As long as nobody sets
up the block of a single cluster, they go on to agree (`Clusters.Agree.run`), because

* a new cluster takes over the registry of the first one (`Clusters.registry_sibling`);
* an operation that goes by the registry is accepted by all blocks or refused by the first;
* an operation that looks at the knowledge may be refused by a later block, but then it is undone in
  those before, which always succeeds (`Clusters.undo_addState`, `Clusters.undo_setRank`).
-/

namespace Autotune

open Operation

/-- The block is sound and has the given registry. -/
structure Block.SetUp {kn mn : Nat} (r : Registry) (b : Block kn mn) : Prop where
  sound : b.Sound
  registry : b.registry = r

lemma Block.stable_setUp {kn mn : Nat} (r : Registry) : Stable fun b : Block kn mn => b.SetUp r :=
  fun b h command keeps => ⟨h.sound.execute command, (b.registry_execute keeps).trans h.registry⟩

namespace Clusters

variable {kn mn fn : Nat} {cs cs' : Clusters kn mn fn} {c d first : Cluster kn mn fn}
  {r : Registry} {fault : Fault} {b b' : Block kn mn} {s : State} {u : Unit}

/-- Every block is sound, and all have one registry. -/
def Agree (cs : Clusters kn mn fn) : Prop := ∃ r, cs.Every (Block.SetUp r)

/-! ### A new cluster -/

/-- **A new cluster takes over the registry of the first one.** -/
theorem registry_sibling (h : cs.Every (Block.SetUp r)) (some : cs.entries ≠ [])
    {points : List (OperatingPoint kn mn)} {built : Logged (Block kn mn)}
    (accepted : (cs.sibling points).build = .ok built) : built.value.registry = r := by
  obtain ⟨first, rest, entries⟩ := List.exists_cons_of_ne_nil some
  obtain ⟨sound, same⟩ := h first (entries ▸ List.mem_cons_self)
  have parts : cs.sibling points =
      { cs.template with
        points := points
        states := first.block.registry.states.items
        active := Option.some first.block.active } := by
    rw [sibling, entries]
    rfl
  have registered : first.block.registry.states.items ≠ [] := by
    obtain ⟨s, hs, -⟩ := Roster.contains_iff.mp sound.active_registered
    exact List.ne_nil_of_mem (List.mem_map_of_mem hs)
  rw [parts] at accepted
  rw [Block.registry_of_build accepted rfl registered rfl, ← same]
  exact congrArg (Registry.mk first.block.active) (State.map_reset_reset first.block.states)

lemma agree_add (h : cs.Every (Block.SetUp r)) {features : Vector Float fn}
    {points : List (OperatingPoint kn mn)} (ok : (add features points).Yields cs u cs') :
    cs'.Agree := by
  by_cases none : cs.entries = []
  · -- the first cluster may have any registry
    obtain ⟨-, -, built, accepted, rfl⟩ := add_yields ok
    refine ⟨built.value.registry, fun c hc => ?_⟩
    dsimp only at hc
    rw [none] at hc
    obtain rfl := List.mem_singleton.mp hc
    exact ⟨Block.sound_of_build _ built accepted, rfl⟩
  · exact ⟨r, h.add (fun built accepted => ⟨Block.sound_of_build _ built accepted,
      registry_sibling h none accepted⟩) ok⟩

/-! ### Operations on all blocks -/

section

variable {op undo : Operation (Block kn mn) Unit}

lemma agree_attemptAll (h : cs.Every (Block.SetUp r))
    (sound : ∀ ⦃b : Block kn mn⦄, b.Sound → ∀ ⦃u b'⦄, op.Yields b u b' → b'.Sound)
    (effect : Block.SameEffect op) (ok : (attemptAll op undo).Yields cs u cs') : cs'.Agree := by
  obtain ⟨accepted, rfl⟩ := attemptAll_yields ok
  cases some : cs.entries with
  | nil => exact ⟨r, by simp [Every]⟩
  | cons first rest =>
    have member : first ∈ cs.entries := some ▸ List.mem_cons_self
    refine ⟨(first.through op).block.registry, fun c hc => ?_⟩
    obtain ⟨d, hd, rfl⟩ := List.mem_map.mp hc
    have hd : d ∈ cs.entries := some ▸ hd
    have done : op.Yields d.block ⟨⟩ (d.through op).block := ⟨accepted d hd, rfl⟩
    have same : first.block.registry = d.block.registry :=
      (h first member).registry.trans (h d hd).registry.symm
    exact ⟨sound (h d hd).sound done, effect same ⟨accepted first member, rfl⟩ done⟩

/-- When an operation on all blocks is refused and what was done before it is undone, nothing has
changed. -/
lemma attemptAll_refused (atomic : op.Atomic)
    (restores : ∀ c ∈ cs.entries, ∀ d ∈ cs.entries, ∀ b', op.Yields c.block ⟨⟩ b' →
      (op.run d.block).outcome = .error fault → (undo.run b').state = c.block)
    (refused : ((attemptAll op undo).run cs).outcome = .error fault) :
    ((attemptAll op undo).run cs).state = cs := by
  obtain same | ⟨before, c, after, entries, accepted, refused, state⟩ := attemptAll_eq_error refused
  · exact same
  · -- nothing was done after `c`, nor by `c` itself, and before `c` it was undone
    have hc : c ∈ cs.entries := by simp [entries]
    have restored : (before.map fun d => (d.through op).through undo) = before := by
      refine (List.map_congr_left fun d hd => ?_).trans (List.map_id before)
      have back := restores d (by simp [entries, hd]) c hc _ ⟨accepted d hd, rfl⟩ refused
      exact congrArg (Cluster.mk d.features) back
    have untouched : c.through op = c :=
      congrArg (Cluster.mk c.features) (atomic c.block fault refused).1
    rw [state, restored, untouched, ← entries]

end

section

variable {α : Type} {op : Operation (Block kn mn) α}

lemma agree_each (h : cs.Every (Block.SetUp r))
    (sound : ∀ ⦃b : Block kn mn⦄, b.Sound → ∀ ⦃a b'⦄, op.Yields b a b' → b'.Sound)
    (goes : Block.ByRegistry op) (ok : (each op).Yields cs u cs') : cs'.Agree := by
  refine agree_attemptAll h (fun b hb u b' done => ?_) goes.discard.sameEffect ok
  obtain ⟨a, done⟩ := discard_yields.mp done
  exact sound hb done

/-- What goes by the registry is refused by all blocks if by any, so it is refused by the first. -/
lemma each_refused (h : cs.Agree) (atomic : op.Atomic) (goes : Block.ByRegistry op)
    (refused : ((each op).run cs).outcome = .error fault) : ((each op).run cs).state = cs := by
  obtain ⟨r, common⟩ := h
  refine attemptAll_refused atomic.discard (fun c hc d hd b' ok refused' => ?_) refused
  -- a block that accepted would stand beside one that refused
  have same : c.block.registry = d.block.registry :=
    (common c hc).registry.trans (common d hd).registry.symm
  obtain ⟨u, d', accepted, -⟩ := goes.discard same ok
  rw [accepted.1] at refused'
  cases refused'

end

/-! ### Registering a state -/

lemma addState_refused (h : cs.Every Block.Sound)
    (refused : ((addState s).run cs).outcome = .error fault) :
    ((addState s).run cs).state = cs := by
  refine attemptAll_refused Block.atomic_addState (fun c hc _ _ b' ok _ => ?_) refused
  have undone : (discard (Block.removeState s.name)).Yields b' ⟨⟩ c.block :=
    discard_yields.mpr ⟨s, Block.undo_addState (h c hc) ok⟩
  exact undone.2

/-! ### Replacing a rank -/

section

variable {state : String} {rank : Rank}

lemma mem_of_leader (leader : cs.leader = .ok first) : first ∈ cs.entries := by
  unfold Clusters.leader at leader
  split at leader
  · cases leader
  case h_2 first' rest some =>
    cases leader
    rw [some]
    exact List.mem_cons_self

lemma undo_setRank (h : cs.Every (Block.SetUp r)) (leader : cs.leader = .ok first)
    (found : first.block.state state = .ok s) (hc : c ∈ cs.entries)
    (ok : (Block.setRank state rank).Yields c.block u b') :
    (Block.setRank state s.rank).Yields b' u c.block := by
  have same : first.block.registry = c.block.registry :=
    (h first (mem_of_leader leader)).registry.trans (h c hc).registry.symm
  obtain ⟨t, found', reset⟩ := Block.get?_of_registry same (Block.state_eq_ok.mp found)
  have reset : t.reset.rank = s.reset.rank := by rw [reset]
  have same : t.rank = s.rank := reset
  exact same ▸ Block.undo_setRank (h c hc).sound found' ok

lemma setRank_refused (h : cs.Agree)
    (refused : ((setRank state rank).run cs).outcome = .error fault) :
    ((setRank state rank).run cs).state = cs := by
  obtain ⟨r, common⟩ := h
  obtain ⟨fault, early⟩ | ⟨first, s, leader, found, all⟩ := setRank_run cs state rank
  · rw [early]
  · rw [all] at refused ⊢
    -- `s` is of the first cluster, but its rank is that of every cluster
    refine attemptAll_refused Block.atomic_setRank (fun c hc _ _ b' ok _ => ?_) refused
    exact (undo_setRank common leader found hc ok).2

end

/-! ### Every command -/

/-- Nobody sets up the block of a single cluster. -/
def Command.KeepsAgreement : Command kn mn fn → Prop
  | .direct _ command => command.KeepsRegistry
  | _ => True

/-- **While clusters agree, a refused command leaves everything as it was.** -/
theorem Agree.refused (h : cs.Agree) {command : Command kn mn fn}
    (refused : (command.operation.run cs).outcome = .error fault) :
    (command.operation.run cs).state = cs := by
  cases command with
  | add features points => exact (atomic_add cs fault refused).1
  | addState s =>
    obtain ⟨r, common⟩ := h
    exact addState_refused (fun c hc => (common c hc).sound) refused
  | removeState name =>
    exact each_refused h Block.atomic_removeState Block.byRegistry_removeState refused
  | setState name => exact each_refused h Block.atomic_setState Block.byRegistry_setState refused
  | addConstraint state c =>
    exact each_refused h Block.atomic_addConstraint Block.byRegistry_addConstraint refused
  | removeConstraint state priority =>
    exact each_refused h Block.atomic_removeConstraint Block.byRegistry_removeConstraint refused
  | setTarget state priority target =>
    exact each_refused h Block.atomic_setTarget Block.byRegistry_setTarget refused
  | setRank state rank => exact setRank_refused h refused
  | remove features => exact (atomic_remove cs fault refused).1
  | selectFor input => exact (atomic_selectFor.discard cs fault refused).1
  | select => exact (atomic_select.discard cs fault refused).1
  | apply p => exact (atomic_apply cs fault refused).1
  | update | direct => cases refused

/-- **A command that does not set up a single cluster keeps the agreement.** -/
theorem Agree.run (h : cs.Agree) {command : Command kn mn fn} (keeps : command.KeepsAgreement) :
    (command.operation.run cs).state.Agree := by
  cases outcome : (command.operation.run cs).outcome with
  | error fault => rwa [h.refused outcome]
  | ok u =>
    obtain ⟨r, common⟩ := h
    have ok : command.operation.Yields cs u (command.operation.run cs).state := ⟨outcome, rfl⟩
    cases command with
    | add features points => exact agree_add common ok
    | addState s =>
      exact agree_attemptAll common (fun _ h _ _ => h.addState) Block.sameEffect_addState ok
    | removeState name =>
      exact agree_each common (fun _ h _ _ => h.removeState) Block.byRegistry_removeState ok
    | setState name =>
      exact agree_each common (fun _ h _ _ => h.setState) Block.byRegistry_setState ok
    | addConstraint state c =>
      exact agree_each common (fun _ h _ _ => h.addConstraint) Block.byRegistry_addConstraint ok
    | removeConstraint state priority =>
      exact agree_each common (fun _ h _ _ => h.removeConstraint)
        Block.byRegistry_removeConstraint ok
    | setTarget state priority target =>
      exact agree_each common (fun _ h _ _ => h.setTarget) Block.byRegistry_setTarget ok
    | setRank state rank =>
      obtain ⟨fault, early⟩ | ⟨first, s, -, -, all⟩ := setRank_run cs state rank
      · have accepted : ((setRank state rank).run cs).outcome = .ok u := ok.1
        rw [early] at accepted
        cases accepted
      · exact agree_attemptAll common (fun _ h _ _ => h.setRank) Block.sameEffect_setRank
          ⟨all ▸ ok.1, all ▸ ok.2⟩
    | remove features | selectFor input | select | apply p | update bank =>
      exact ⟨r, common.run (Block.stable_setUp r) trivial⟩
    | direct place command => exact ⟨r, common.run (Block.stable_setUp r) keeps⟩

lemma Reachable.agree (h : cs.Reachable Command.KeepsAgreement) : cs.Agree := by
  refine h.induction (fun cs none => ?_) fun cs command keeps agree => agree.run keeps
  exact ⟨⟨"", .empty⟩, by simp [Every, none]⟩

/-- **Clusters that are set up together are set up alike.**  They have the same active state and the
same states, of which the ranks and the constraints are the same but for what has been observed.
Whatever is refused leaves everything as it was; in particular a state that was just registered can
always be taken out again, and the rank that the first cluster has can always be put back. -/
theorem agreement_of_reachable (h : cs.Reachable Command.KeepsAgreement) :
    (∀ c ∈ cs.entries, ∀ d ∈ cs.entries,
      c.block.active = d.block.active ∧ c.block.stateNames = d.block.stateNames ∧
      ∀ name s t, c.block.states.get? name = some s → d.block.states.get? name = some t →
        s.rank = t.rank ∧
          s.constraints.items.map Constraint.reset = t.constraints.items.map Constraint.reset) ∧
    (∀ (command : Command kn mn fn) fault, (command.operation.run cs).outcome = .error fault →
      (command.operation.run cs).state = cs) ∧
    (∀ s, ∀ c ∈ cs.entries, ∀ u b', (Block.addState s).Yields c.block u b' →
      (Block.removeState s.name).Yields b' s c.block) ∧
    ∀ state rank first s, cs.leader = .ok first → first.block.state state = .ok s →
      ∀ c ∈ cs.entries, ∀ u b', (Block.setRank state rank).Yields c.block u b' →
        (Block.setRank state s.rank).Yields b' u c.block := by
  have agree := h.agree
  obtain ⟨r, common⟩ := h.agree
  refine ⟨fun c hc d hd => ?_, fun _ _ => agree.refused,
    fun _ c hc _ _ => Block.undo_addState (common c hc).sound,
    fun _ _ _ _ leader found _ hc _ _ => undo_setRank common leader found hc⟩
  exact Block.same_of_registry ((common c hc).registry.trans (common d hd).registry.symm)

/-- Two clusters, of which the second loses a point, before a target is moved in both. -/
theorem agreement_of_reachable_sample :
    ∃ cs : Clusters 1 1 1, cs.Reachable Command.KeepsAgreement ∧ cs.entries.length = 2 ∧
      ∀ c ∈ cs.entries, ∀ d ∈ cs.entries, c.block.stateNames = d.block.stateNames := by
  have reachable : Reachable Command.KeepsAgreement
      (after ⟨Block.sampleBuilder, #v[.dontCare], .euclidean, [], .empty, none⟩
        [.add #v[1] Block.sampleBuilder.points, .add #v[2] Block.sampleBuilder.points,
          .direct 1 (.updateKnowledge (.remove ["2"])), .setTarget "sample" 0 7]) :=
    ⟨_, _, _, _, _, rfl, by simp [Command.KeepsAgreement, Command.KeepsRegistry], rfl⟩
  exact ⟨_, reachable, by decide +kernel,
    fun c hc d hd => ((agreement_of_reachable reachable).1 c hc d hd).2.1⟩

end Clusters

end Autotune
