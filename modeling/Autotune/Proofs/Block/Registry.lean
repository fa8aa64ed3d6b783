import Autotune.Proofs.Block.Sound

/-!
# The registry of a block

The `Registry` of a block is what it has been set up with: its active state and its states, with
nothing observed.  It leaves out what a block has learned and what it knows.

* Some operations go by the registry alone (`Block.ByRegistry`): of two blocks with one registry
  either both accept or neither does, and they have one registry afterwards.  Others look at the
  knowledge, but only in order to refuse, and go by the registry if they accept
  (`Block.SameEffect`).
* Registering a state and replacing a rank can be undone (`Block.undo_addState`,
  `Block.undo_setRank`).
* The other commands leave the registry alone (`Block.registry_execute`).
* What holds of every state, whatever has been observed, goes on to hold if the command that works on
  a state keeps it (`Block.EveryState.execute`).
-/

namespace Autotune

open Operation

/-- What a block has been set up with. -/
structure Registry where
  active : String
  /-- The states as they are when nothing has been observed. -/
  states : Roster State

/-- The command sets nothing up. -/
def Command.KeepsRegistry {kn mn : Nat} : Command kn mn → Prop
  | .addState _ | .removeState _ | .setState _ | .addConstraint .. | .removeConstraint ..
  | .setTarget .. | .setRank .. => False
  | _ => True

lemma Constraint.key_withTarget (target : Float) (c : Constraint) :
    Keyed.key (c.withTarget target) = Keyed.key c := rfl

/-- What an accepted command makes of the state that it names. -/
def Command.edit {kn mn : Nat} : Command kn mn → State → State
  | .addConstraint _ c, s => { s with constraints := s.constraints.insert c }
  | .removeConstraint _ priority, s => { s with constraints := s.constraints.erase priority }
  | .setTarget _ priority target, s =>
    ⟨s.name, s.rank, s.constraints.modify priority (fun c => c.withTarget target)
      (Constraint.key_withTarget target)⟩
  | .setRank _ rank, s => { s with rank := rank }
  | _, s => s

/-! ### States -/

namespace State

variable {s t : State} {c : Constraint} {priority : UInt32} {target : Float}

lemma reset_reset (s : State) : s.reset.reset = s.reset := by
  have same : (s.constraints.map Constraint.reset fun _ => rfl).map Constraint.reset
      (fun _ => rfl) = s.constraints.map Constraint.reset fun _ => rfl :=
    Roster.map_map_of_absorbs _ fun _ => rfl
  exact congrArg (State.mk s.name s.rank) same

lemma map_reset_reset (r : Roster State) :
    (r.map State.reset fun _ => rfl).map State.reset (fun _ => rfl) =
      r.map State.reset fun _ => rfl :=
  Roster.map_map_of_absorbs _ reset_reset

lemma contains_of_reset (h : s.reset = t.reset) :
    s.constraints.contains priority = t.constraints.contains priority := by
  have kept (s : State) : s.reset.constraints.contains priority = s.constraints.contains priority :=
    Roster.contains_map Constraint.reset fun _ => rfl
  rw [← kept s, h, kept t]

lemma get?_of_reset (h : s.reset = t.reset) (found : s.constraints.get? priority = some c) :
    ∃ d, t.constraints.get? priority = some d ∧ d.reset = c.reset := by
  have kept (s : State) : s.reset.constraints.get? priority =
      (s.constraints.get? priority).map Constraint.reset :=
    Roster.get?_map Constraint.reset fun _ => rfl
  have same := kept t
  rw [← h, kept s, found] at same
  exact Option.map_eq_some_iff.mp same.symm

lemma reset_insert :
    State.reset { s with constraints := s.constraints.insert c } =
      { s.reset with constraints := s.reset.constraints.insert c.reset } :=
  congrArg (State.mk s.name s.rank) Roster.map_insert

lemma reset_erase :
    State.reset { s with constraints := s.constraints.erase priority } =
      { s.reset with constraints := s.reset.constraints.erase priority } :=
  congrArg (State.mk s.name s.rank) Roster.map_erase

lemma reset_withTarget :
    State.reset { s with constraints :=
        s.constraints.modify priority (fun c => c.withTarget target) fun _ => rfl } =
      { s.reset with constraints :=
        s.reset.constraints.modify priority (fun c => c.withTarget target) fun _ => rfl } :=
  congrArg (State.mk s.name s.rank) (Roster.map_modify fun _ => rfl)

lemma reset_vote (d : Debounce) (satisfied : Bool) : (d.vote satisfied).2.reset = d.reset := by
  unfold Debounce.vote
  dsimp only
  split_ifs <;> rfl

lemma reset_observeConstraint (name : String) (observed : Nat → Option Float) (c : Constraint) :
    (observeConstraint name observed c).value.2.reset = c.reset := by
  unfold observeConstraint
  split
  · rfl
  case h_2 value _ =>
    have voted := reset_vote c.tracker (c.goal.isMet value)
    exact congrArg (Constraint.mk c.priority c.selector c.goal c.confidence) voted

lemma reset_observe (s : State) (observed : Nat → Option Float) :
    (s.observe observed).value.2.reset = s.reset :=
  congrArg (State.mk s.name s.rank)
    (Roster.map_map_of_absorbs (observeConstraint_priority s.name observed)
      (reset_observeConstraint s.name observed))

end State

/-! ### Blocks -/

namespace Block

variable {kn mn : Nat} {b c b' : Block kn mn} {s t : State} {name : String} {fault : Fault}

def registry (b : Block kn mn) : Registry := ⟨b.active, b.resetStates.states⟩

lemma contains_of_registry (h : b.registry = c.registry) :
    b.states.contains name = c.states.contains name := by
  have kept (b : Block kn mn) : b.registry.states.contains name = b.states.contains name :=
    Roster.contains_map State.reset fun _ => rfl
  rw [← kept b, h, kept c]

lemma get?_of_registry (h : b.registry = c.registry) (found : b.states.get? name = some s) :
    ∃ t, c.states.get? name = some t ∧ t.reset = s.reset := by
  have kept (b : Block kn mn) :
      b.registry.states.get? name = (b.states.get? name).map State.reset :=
    Roster.get?_map State.reset fun _ => rfl
  have same := kept c
  rw [← h, kept b, found] at same
  exact Option.map_eq_some_iff.mp same.symm

/-- Blocks of one registry have the same active state and the same states, of which the ranks and
the constraints are the same but for what has been observed. -/
lemma same_of_registry (h : b.registry = c.registry) :
    b.active = c.active ∧ b.stateNames = c.stateNames ∧
      ∀ name s t, b.states.get? name = some s → c.states.get? name = some t →
        s.rank = t.rank ∧
          s.constraints.items.map Constraint.reset = t.constraints.items.map Constraint.reset := by
  have names (b : Block kn mn) : b.registry.states.items.map State.name = b.stateNames :=
    List.map_map
  refine ⟨congrArg Registry.active h, by rw [← names b, h, names c], fun name s t hs ht => ?_⟩
  obtain ⟨t', ht', reset⟩ := get?_of_registry h hs
  obtain rfl : t = t' := Option.some_inj.mp (ht.symm.trans ht')
  exact ⟨(congrArg State.rank reset).symm,
    (congrArg (fun s => s.constraints.items) reset).symm⟩

lemma registry_putState :
    (b.putState s).registry = { b.registry with states := b.registry.states.insert s.reset } := by
  have states : (b.states.insert s).map State.reset (fun _ => rfl) =
      (b.states.map State.reset fun _ => rfl).insert s.reset := Roster.map_insert
  exact congrArg (Registry.mk b.active) states

lemma registry_erase :
    registry { b with states := b.states.erase name } =
      { b.registry with states := b.registry.states.erase name } := by
  have states : (b.states.erase name).map State.reset (fun _ => rfl) =
      (b.states.map State.reset fun _ => rfl).erase name := Roster.map_erase
  exact congrArg (Registry.mk b.active) states

lemma registry_putState_congr (h : b.registry = c.registry) (same : s.reset = t.reset) :
    (b.putState s).registry = (c.putState t).registry := by
  rw [registry_putState, registry_putState, h, same]

lemma registry_putState_of_get? (found : b.states.get? name = some s) (same : t.reset = s.reset) :
    (b.putState t).registry = b.registry := by
  rw [registry_putState_congr rfl same, putState_of_get? found]

lemma registry_of_build {parts : Builder kn mn} {built : Logged (Block kn mn)} {r : Roster State}
    (h : parts.build = .ok built) (states : parts.states = r.items) (some : r.items ≠ [])
    (active : parts.active = Option.some name) :
    built.value.registry = ⟨name, r.map State.reset fun _ => rfl⟩ := by
  obtain ⟨knowledge, registered, adaptors, monitors, telemetry, -, accepted, -, -, -, -, same⟩ :=
    Builder.build_eq_ok h
  have all : parts.allStates registered = r := by
    obtain ⟨s, hs⟩ := List.exists_mem_of_ne_nil r.items some
    rw [Builder.allStates_of_mem (by rwa [states])]
    exact Roster.eq_of_mem_iff fun s => by rw [Builder.mem_registered accepted, states]
  have first : parts.activeName = name := by rw [Builder.activeName, active, Option.getD_some]
  rw [same, registry, all, first]
  rfl

/-! ### Operations that go by the registry -/

section

variable {α β : Type} {op : Operation (Block kn mn) α}

/-- Whether the operation is accepted, and what it makes of the registry, depends on the registry
alone. -/
def ByRegistry (op : Operation (Block kn mn) α) : Prop :=
  ∀ ⦃b c a b'⦄, b.registry = c.registry → op.Yields b a b' →
    ∃ a' c', op.Yields c a' c' ∧ c'.registry = b'.registry

lemma ByRegistry.discard (h : ByRegistry op) : ByRegistry (discard op) := by
  intro b c u b' same ok
  obtain ⟨a, ok⟩ := discard_yields.mp ok
  obtain ⟨a', c', ok', after⟩ := h same ok
  exact ⟨⟨⟩, c', discard_yields.mpr ⟨a', ok'⟩, after⟩

lemma byRegistry_check_bind {result : Except Fault β} {f : β → Operation (Block kn mn) α}
    (h : ∀ a, ByRegistry (f a)) : ByRegistry (check result >>= f) := by
  intro b c a b' same ok
  obtain ⟨x, passed, ok⟩ := check_bind_yields.mp ok
  obtain ⟨a', c', ok', after⟩ := h x same ok
  exact ⟨a', c', check_bind_yields.mpr ⟨x, passed, ok'⟩, after⟩

lemma byRegistry_removeState : ByRegistry (removeState name : Operation (Block kn mn) State) := by
  intro b c s b' same ok
  obtain ⟨other, found, rfl⟩ := removeState_yields.mp ok
  obtain ⟨t, found', -⟩ := get?_of_registry same found
  have active : b.active = c.active := congrArg Registry.active same
  exact ⟨t, _, removeState_yields.mpr ⟨active ▸ other, found', rfl⟩, by
    rw [registry_erase, registry_erase, same]⟩

lemma byRegistry_setState : ByRegistry (setState name : Operation (Block kn mn) Unit) := by
  intro b c u b' same ok
  obtain ⟨registered, rfl⟩ := setState_yields.mp ok
  have active : b.active = c.active := congrArg Registry.active same
  have states : b.registry.states = c.registry.states := congrArg Registry.states same
  refine ⟨⟨⟩, _, setState_yields.mpr ⟨contains_of_registry same ▸ registered, rfl⟩, ?_⟩
  rw [active]
  split
  · exact congrArg (Registry.mk name) states.symm
  · exact same.symm

/-- An operation on one state goes by the registry if it goes by what a reset of that state keeps. -/
lemma byRegistry_onState {op : Operation State α}
    (h : ∀ ⦃s t a s'⦄, s.reset = t.reset → op.Yields s a s' →
      ∃ a' t', op.Yields t a' t' ∧ t'.reset = s'.reset) :
    ByRegistry (onState name op : Operation (Block kn mn) α) := by
  intro b c a b' same ok
  obtain ⟨s, s', found, done, rfl⟩ := onState_yields.mp ok
  obtain ⟨t, found', reset⟩ := get?_of_registry same found
  obtain ⟨a', t', ok', after⟩ := h reset.symm done
  exact ⟨a', _, onState_yields.mpr ⟨t, t', found', ok', rfl⟩,
    registry_putState_congr same.symm after⟩

lemma byRegistry_addConstraint {c : Constraint} :
    ByRegistry (addConstraint name c : Operation (Block kn mn) Unit) := by
  refine byRegistry_check_bind fun _ => byRegistry_onState fun s t u s' reset ok => ?_
  obtain ⟨free, rfl⟩ := State.addConstraint_yields.mp ok
  rw [State.contains_of_reset reset] at free
  exact ⟨⟨⟩, _, State.addConstraint_yields.mpr ⟨free, rfl⟩, by
    rw [State.reset_insert, State.reset_insert, reset]⟩

lemma byRegistry_removeConstraint {priority : UInt32} :
    ByRegistry (removeConstraint name priority : Operation (Block kn mn) Constraint) := by
  refine byRegistry_onState fun s t c s' reset ok => ?_
  obtain ⟨found, rfl⟩ := State.removeConstraint_yields.mp ok
  obtain ⟨d, found', -⟩ := State.get?_of_reset reset found
  exact ⟨d, _, State.removeConstraint_yields.mpr ⟨found', rfl⟩, by
    rw [State.reset_erase, State.reset_erase, reset]⟩

lemma byRegistry_setTarget {priority : UInt32} {target : Float} :
    ByRegistry (setTarget name priority target : Operation (Block kn mn) Unit) := by
  refine byRegistry_onState fun s t u s' reset ok => ?_
  obtain ⟨⟨c, found⟩, rfl⟩ := State.setTarget_yields.mp ok
  obtain ⟨d, found', -⟩ := State.get?_of_reset reset found
  exact ⟨⟨⟩, _, State.setTarget_yields.mpr ⟨⟨d, found'⟩, rfl⟩, by
    rw [State.reset_withTarget, State.reset_withTarget, reset]⟩

/-- Where the operation is accepted, what it makes of the registry depends on the registry alone. -/
def SameEffect (op : Operation (Block kn mn) α) : Prop :=
  ∀ ⦃b c a a' b' c'⦄, b.registry = c.registry → op.Yields b a b' → op.Yields c a' c' →
    c'.registry = b'.registry

lemma ByRegistry.sameEffect (h : ByRegistry op) : SameEffect op := by
  intro b c a a' b' c' same ok ok'
  obtain ⟨a'', c'', ok'', after⟩ := h same ok
  rwa [← ok'.2, ok''.2]

lemma sameEffect_addState : SameEffect (addState s : Operation (Block kn mn) Unit) := by
  intro b c _ _ b' c' same ok ok'
  obtain ⟨-, -, rfl⟩ := addState_yields.mp ok
  obtain ⟨-, -, rfl⟩ := addState_yields.mp ok'
  exact registry_putState_congr same.symm rfl

lemma sameEffect_setRank {rank : Rank} :
    SameEffect (setRank name rank : Operation (Block kn mn) Unit) := by
  intro b c _ _ b' c' same ok ok'
  obtain ⟨-, s, found, -, rfl⟩ := setRank_yields.mp ok
  obtain ⟨-, t, found', -, rfl⟩ := setRank_yields.mp ok'
  obtain ⟨t', same', reset⟩ := get?_of_registry same found
  obtain rfl : t = t' := Option.some_inj.mp (found'.symm.trans same')
  exact registry_putState_congr same.symm
    (congrArg (fun s : State => { s with rank := rank }) reset)

end

/-! ### Undoing -/

/-- **A state that was just registered can be taken out again, and nothing is left of it.** -/
theorem undo_addState (h : b.Sound) {u : Unit} (ok : (addState s).Yields b u b') :
    (removeState s.name).Yields b' s b := by
  obtain ⟨-, new, rfl⟩ := addState_yields.mp ok
  -- the active state was there before, so it is another one
  have other : b.active ≠ s.name := fun same => new (same ▸ h.active_registered)
  have found : (b.states.insert s).get? s.name = some s := Roster.get?_insert.trans (if_pos rfl)
  have gone : (b.states.insert s).erase s.name = b.states := Roster.erase_insert new
  refine removeState_yields.mpr ⟨other, found, ?_⟩
  rw [putState, gone]

/-- **A rank that was just replaced can be put back.** -/
theorem undo_setRank (h : b.Sound) {rank : Rank} {u : Unit}
    (found : b.states.get? name = some s) (ok : (setRank name rank).Yields b u b') :
    (setRank name s.rank).Yields b' u b := by
  obtain ⟨-, t, found', -, rfl⟩ := setRank_yields.mp ok
  obtain rfl : s = t := Option.some_inj.mp (found.symm.trans found')
  obtain ⟨hs, rfl⟩ := Roster.get?_eq_some_iff.mp found
  -- the rank was in force, and the knowledge is the same, so it still fits
  obtain ⟨reads, defined⟩ := State.validate_eq_ok.mp (h.fits s hs)
  have indices : s.rank.formula.validateIndices kn mn = .ok ⟨⟩ :=
    State.validateIndices_eq_ok.mpr fun t ht =>
      reads _ (List.mem_append_left _ (List.mem_map_of_mem ht))
  have found' : (b.putState { s with rank := rank }).states.get? s.name =
      some { s with rank := rank } := Roster.get?_insert.trans (if_pos rfl)
  refine setRank_yields.mpr ⟨indices, _, found', defined, ?_⟩
  have back : (b.states.insert { s with rank := rank }).insert s = b.states := by
    rw [Roster.insert_insert, Roster.insert_of_mem hs]
    rfl
  show { b with states := (b.states.insert { s with rank := rank }).insert s } = b
  rw [back]

/-! ### Commands that do not name a state -/

lemma registry_resetStates (b : Block kn mn) : b.resetStates.registry = b.registry :=
  congrArg (Registry.mk b.active) (State.map_reset_reset b.states)

lemma registry_takeUpdate (b : Block kn mn) (update : Update kn mn) :
    (b.takeUpdate update).value.2.registry = b.registry := by
  unfold takeUpdate
  dsimp only
  split
  case h_1 version accepted =>
    obtain ⟨next, -, -, -, same⟩ := updateKnowledge_yields.mp ⟨accepted, rfl⟩
    rw [← same]
    rfl
  case h_2 fault refused => rw [(atomic_updateKnowledge b fault refused).1]

lemma registry_takeUpdates (b : Block kn mn) (updates : List (Update kn mn)) :
    (b.takeUpdates updates).value.2.registry = b.registry := by
  induction updates generalizing b with
  | nil => rfl
  | cons update rest ih => exact (ih _).trans (registry_takeUpdate b update)

lemma registry_apply (b : Block kn mn) (p : OperatingPoint kn mn) :
    (b.apply p).value.registry = b.registry := by
  unfold Block.apply
  split
  · rfl
  · exact registry_resetStates { b with running := some p }

lemma registry_resetAdaptation (b : Block kn mn) : b.resetAdaptation.registry = b.registry :=
  registry_resetStates { b with adaptors := b.adaptors.reset }

lemma registry_update (b : Block kn mn) (bank : Bank) :
    (b.update bank).value.2.registry = b.registry := by
  unfold Block.update
  split
  · rfl
  · dsimp only [Logged.andThen]
    split
    · rfl
    case h_2 s found => exact registry_putState_of_get? found (State.reset_observe s _)

/-- **Commands that set up nothing leave the registry as it is.** -/
theorem registry_execute (b : Block kn mn) {command : Command kn mn} (h : command.KeepsRegistry) :
    (b.execute command).value.2.registry = b.registry := by
  cases command with
  | addState | removeState | setState | addConstraint | removeConstraint | setTarget | setRank =>
    cases h
  | updateKnowledge update =>
    refine call_induction (motive := fun b' => b'.registry = b.registry) atomic_updateKnowledge rfl
      fun _ _ ok => ?_
    obtain ⟨next, -, -, -, rfl⟩ := updateKnowledge_yields.mp ok
    rfl
  | send sender update =>
    unfold execute
    dsimp only
    split
    case h_1 next ok =>
      obtain ⟨inbox, -, same⟩ := bind_eq_ok.mp ok
      obtain rfl := pure_eq_ok.mp same
      rfl
    case h_2 => rfl
  | applyPending => exact registry_takeUpdates _ b.inbox.drain.1
  | apply p => exact registry_apply b p
  | update bank => exact registry_update b bank
  | resetAdaptation => exact registry_resetAdaptation b
  | openQueue | select | restore => rfl

/-! ### What holds of every state -/

section

variable {P : State → Prop}

/-- The property holds of every registered state. -/
def EveryState (P : State → Prop) (b : Block kn mn) : Prop := ∀ s ∈ b.states.items, P s

lemma everyState_of_build {parts : Builder kn mn} {built : Logged (Block kn mn)}
    (h : parts.build = .ok built) (default : P defaultState) (given : ∀ s ∈ parts.states, P s) :
    built.value.EveryState P := by
  obtain ⟨knowledge, registered, adaptors, monitors, telemetry, -, states, -, -, -, -, same⟩ :=
    Builder.build_eq_ok h
  have registered : ∀ s ∈ registered.items, P s :=
    fun s hs => given s ((Builder.mem_registered states).mp hs)
  rw [same]
  intro s hs
  dsimp only [Builder.allStates] at hs
  split at hs
  · obtain rfl | ⟨hs, -⟩ := Roster.mem_insert.mp hs
    · exact default
    · exact registered s hs
  · exact registered s hs

lemma EveryState.of_registry (h : b.EveryState P) (reset : ∀ s : State, P s.reset ↔ P s)
    (same : c.registry = b.registry) : c.EveryState P := by
  intro s hs
  have kept : s.reset ∈ c.registry.states.items := List.mem_map_of_mem hs
  rw [same] at kept
  obtain ⟨t, ht, both⟩ := List.mem_map.mp kept
  exact (reset s).mp (both ▸ (reset t).mpr (h t ht))

lemma EveryState.putState (h : b.EveryState P) (new : P t) : (b.putState t).EveryState P := by
  intro s hs
  obtain rfl | ⟨hs, -⟩ := mem_putState.mp hs
  · exact new
  · exact h s hs

lemma EveryState.of_get? (h : b.EveryState P) (found : b.states.get? name = some s) : P s :=
  h s (Roster.get?_eq_some_iff.mp found).1

/-- **What holds of every state goes on to hold**, if it holds whatever has been observed, if it
holds of a state that is registered, and if the work on a state keeps it. -/
theorem EveryState.execute {command : Command kn mn} (h : b.EveryState P)
    (reset : ∀ s : State, P s.reset ↔ P s) (added : ∀ s, command = .addState s → P s)
    (edited : ∀ s, P s → P (command.edit s)) : (b.execute command).value.2.EveryState P := by
  cases command with
  | addState s =>
    refine call_induction atomic_addState h fun _ _ ok => ?_
    obtain ⟨-, -, rfl⟩ := addState_yields.mp ok
    exact h.putState (added s rfl)
  | removeState name =>
    refine call_induction atomic_removeState h fun _ _ ok => ?_
    obtain ⟨-, -, rfl⟩ := removeState_yields.mp ok
    exact fun s hs => h s (Roster.mem_erase.mp hs).1
  | setState name =>
    refine call_induction atomic_setState h fun _ _ ok => ?_
    obtain ⟨-, rfl⟩ := setState_yields.mp ok
    split <;> exact h
  | addConstraint name c =>
    refine call_induction atomic_addConstraint h fun _ _ ok => ?_
    obtain ⟨-, s, found, -, rfl⟩ := addConstraint_yields.mp ok
    exact h.putState (edited s (h.of_get? found))
  | removeConstraint name priority =>
    refine call_induction atomic_removeConstraint h fun _ _ ok => ?_
    obtain ⟨s, found, -, rfl⟩ := removeConstraint_yields.mp ok
    exact h.putState (edited s (h.of_get? found))
  | setTarget name priority target =>
    refine call_induction atomic_setTarget h fun _ _ ok => ?_
    obtain ⟨s, found, -, rfl⟩ := setTarget_yields.mp ok
    exact h.putState (edited s (h.of_get? found))
  | setRank name rank =>
    refine call_induction atomic_setRank h fun _ _ ok => ?_
    obtain ⟨-, s, found, -, rfl⟩ := setRank_yields.mp ok
    exact h.putState (edited s (h.of_get? found))
  | _ => exact h.of_registry reset (registry_execute b trivial)

end

end Block

end Autotune
