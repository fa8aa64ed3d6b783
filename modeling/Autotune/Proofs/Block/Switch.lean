import Autotune.Proofs.Block.Loop
import Autotune.Proofs.Feedback.Samples
import Autotune.Proofs.State.Votes

/-!
# What is charged to a configuration

When another configuration is applied, every constraint forgets its votes.  What is charged to the
new configuration is what the updates after that make of the monitors: each update casts the votes
of the constraints of the active state and takes the samples of the adaptors, by whatever the
windows hold at that time (`Block.after_updates`).

A monitor keeps its window over a switch.  So the first updates after it may go by observations of
the old configuration, until these are pushed out or cleared: `Block.charged_of_switch` says what
they are charged with, and `Block.exists_stale_vote` that it happens.
-/

namespace Autotune

namespace Block

variable {kn mn : Nat} {b start later : Block kn mn} {p : OperatingPoint kn mn}

/-- What the block observes of a metric: the mean of the monitor that watches it. -/
def observed (b : Block kn mn) (bank : Bank) (metric : Nat) : Option Float :=
  (b.monitor? metric).bind bank.average?

/-- Nothing speaks against any constraint. -/
def Fresh (b : Block kn mn) : Prop := ∀ s ∈ b.states.items, s.Fresh

/-- Nothing that the monitors hold speaks against a constraint of the active state. -/
def Met (b : Block kn mn) (bank : Bank) : Prop := b.activeState.Met (b.observed bank)

lemma met_of_unobserved {bank : Bank} (unobserved : ∀ metric, b.observed bank metric = none) :
    b.Met bank := by
  intro c _ against
  obtain ⟨value, seen, -⟩ := Option.map_eq_some_iff.mp against
  obtain ⟨metric, -, seen⟩ := Option.bind_eq_some_iff.mp seen
  rw [unobserved] at seen
  cases seen

/-! ### Updates -/

/-- An update takes one sample for each adaptor and casts one vote for each constraint of the active
state, where the monitors hold anything. -/
lemma update_next (runs : b.running = some p) (bank : Bank) :
    ∃ telemetry, (b.update bank).value.2 =
      { b with
        states := State.heardBy b.active [b.observed bank] b.states
        adaptors := b.adaptors.taught p [bank]
        telemetry := telemetry } := by
  unfold update
  rw [runs]
  dsimp only [Logged.andThen]
  rw [Adaptors.evaluate_next]
  split
  case h_1 missing =>
    have states : State.heardBy b.active [b.observed bank] b.states = b.states :=
      Roster.modify_of_get?_eq_none missing
    rw [states]
    exact ⟨_, rfl⟩
  case h_2 s found =>
    have states : b.states.insert (s.observe (b.observed bank)).value.2 =
        State.heardBy b.active [b.observed bank] b.states := by
      rw [State.observe_next]
      exact Roster.insert_of_get? found
    rw [← states]
    exact ⟨_, rfl⟩

lemma update_flag (runs : b.running = some p) (bank : Bank) :
    (b.update bank).value.1 = true ↔ ∃ c ∈ b.activeState.constraints.items,
      ∃ vote, c.vote? (b.observed bank) = some vote ∧ (c.tracker.vote vote).1 = true := by
  unfold update activeState
  rw [runs]
  dsimp only [Logged.andThen]
  split
  case h_1 missing =>
    rw [missing]
    simp [Logged.quiet, defaultState, State.ofRank, Roster.empty]
  case h_2 s found =>
    rw [found]
    exact State.observe_flag s _

/-- **Updates add up.**  They touch nothing but what was observed, what was learned and the
telemetry. -/
theorem after_updates (runs : b.running = some p) (banks : List Bank) :
    ∃ telemetry, b.after (banks.map .update) =
      { b with
        states := State.heardBy b.active (banks.map b.observed) b.states
        adaptors := b.adaptors.taught p banks
        telemetry := telemetry } := by
  induction banks generalizing b with
  | nil =>
    rw [List.map_nil, List.map_nil, State.heardBy_nil, Adaptors.taught_nil]
    exact ⟨_, rfl⟩
  | cons bank rest ih =>
    obtain ⟨_, first⟩ := update_next runs bank
    have step : b.after ((bank :: rest).map .update) =
        (b.update bank).value.2.after (rest.map .update) := rfl
    rw [step, first]
    obtain ⟨_, later⟩ := ih (b := { b with
      states := State.heardBy b.active [b.observed bank] b.states
      adaptors := b.adaptors.taught p [bank]
      telemetry := _ }) runs
    rw [later, ← Adaptors.taught_append, ← State.heardBy_append]
    exact ⟨_, rfl⟩

/-! ### After a switch -/

lemma apply_of_switched (switched : b.running.map OperatingPoint.id ≠ some p.id) :
    (b.apply p).value = { b with running := some p }.resetStates := by
  rw [apply, if_neg switched]
  rfl

lemma fresh_resetStates (b : Block kn mn) : b.resetStates.Fresh := by
  intro s hs
  obtain ⟨t, -, rfl⟩ := List.mem_map.mp hs
  exact t.fresh_reset

lemma Fresh.activeState (fresh : b.Fresh) : b.activeState.Fresh := by
  unfold Block.activeState
  cases found : b.states.get? b.active with
  | none => exact nofun
  | some s => exact fresh s (Roster.get?_eq_some_iff.mp found).1

lemma activeState_heard (b : Block kn mn) (history : List (Nat → Option Float))
    (adaptors : Adaptors) (telemetry : Telemetry) :
    activeState { b with
      states := State.heardBy b.active history b.states
      adaptors := adaptors
      telemetry := telemetry } = b.activeState.heard history := by
  have found : (State.heardBy b.active history b.states).get? b.active =
      (b.states.get? b.active).map (State.heard history) := Roster.get?_modify
  rw [activeState, activeState, found]
  cases b.states.get? b.active <;> rfl

/-- What updates charge to a configuration: the votes and samples that they take, and nothing from
before. -/
structure Charged (start : Block kn mn) (p : OperatingPoint kn mn) (banks : List Bank)
    (later : Block kn mn) : Prop where
  /-- Nothing else is touched. -/
  rest : ∃ telemetry, later =
    { start with
      states := State.heardBy start.active (banks.map start.observed) start.states
      adaptors := start.adaptors.taught p banks
      telemetry := telemetry }
  /-- A constraint of the active state has one vote of each update at which its metric was observed,
  another one has none. -/
  votes : ∀ s ∈ later.states.items, ∀ c ∈ s.constraints.items,
    c.tracker = (Debounce.start c.tracker.inertia).after
      (if s.name = start.active then banks.filterMap fun bank => c.vote? (start.observed bank)
        else [])
  /-- An update reports a change exactly when one of its votes changes a status. -/
  changes : ∀ bank, (later.update bank).value.1 = true ↔
    ∃ c ∈ later.activeState.constraints.items,
      ∃ vote, c.vote? (start.observed bank) = some vote ∧ (c.tracker.vote vote).1 = true

/-- From a block on which nothing was observed, updates charge what they see themselves. -/
lemma Fresh.charged (fresh : start.Fresh) (runs : start.running = some p) (banks : List Bank) :
    Charged start p banks (start.after (banks.map .update)) := by
  obtain ⟨telemetry, same⟩ := after_updates runs banks
  refine ⟨⟨telemetry, same⟩, ?_, fun bank => ?_⟩
  · rw [same]
    intro s hs c hc
    obtain ⟨t, ht, active, rfl⟩ | ⟨hs, other⟩ := State.mem_heardBy.mp hs
    · have votes := (fresh t ht).tracker_heard hc
      rw [List.filterMap_map] at votes
      exact votes.trans (congrArg _ (if_pos active).symm)
    · obtain ⟨satisfied, none⟩ := fresh s hs c hc
      rw [if_neg other]
      exact Debounce.eq_start satisfied none
  · rw [update_flag (by rw [same]; exact runs)]
    rw [same]
    rfl

lemma Charged.activeState {banks : List Bank} (h : Charged start p banks later) :
    later.activeState = start.activeState.heard (banks.map start.observed) := by
  obtain ⟨telemetry, same⟩ := h.rest
  rw [same, activeState_heard]

lemma Charged.fresh {banks : List Bank} (h : Charged start p banks later) (fresh : start.Fresh)
    (met : ∀ observed ∈ banks.map start.observed, start.activeState.Met observed) :
    later.Fresh := by
  obtain ⟨telemetry, same⟩ := h.rest
  rw [same]
  intro s hs
  obtain ⟨t, ht, active, rfl⟩ | ⟨hs, -⟩ := State.mem_heardBy.mp hs
  · have here : start.activeState = t := by
      rw [Block.activeState, Roster.get?_eq_some_iff.mpr ⟨ht, active⟩, Option.getD_some]
    exact (fresh t ht).heard (here ▸ met)
  · exact fresh s hs

/-- **What is charged to a new configuration.**  A switch forgets all votes and leaves what was
learned.  From then on each update charges what the monitors hold at that time, whether it was
observed before the switch or after it: nothing, as long as that speaks against no constraint of the
active state and the monitors of the adaptors are empty; but a constraint that it speaks against
counts one vote for each update, although nothing new is observed, until it is reported as
violated. -/
theorem charged_of_switch (switched : b.running.map OperatingPoint.id ≠ some p.id)
    (banks : List Bank) :
    let start := (b.apply p).value
    let later := start.after (banks.map .update)
    start.Fresh ∧ start.adaptors = b.adaptors ∧ Charged start p banks later ∧
      ((∀ bank ∈ banks, start.Met bank) →
        later.Fresh ∧ ∀ bank, start.Met bank → (later.update bank).value.1 = false) ∧
      ((∀ bank ∈ banks, ∀ a ∈ b.adaptors.items, bank.average? a.monitor = none) →
        later.adaptors = b.adaptors) ∧
      ∀ bank n, banks = List.replicate n bank →
        ∀ c ∈ later.activeState.constraints.items, c.vote? (start.observed bank) = some false →
          c.tracker = .missed c.tracker.inertia n := by
  intro start later
  have state : start = { b with running := some p }.resetStates := apply_of_switched switched
  have fresh : start.Fresh := state ▸ fresh_resetStates _
  have runs : start.running = some p := by rw [state]; rfl
  have learned : start.adaptors = b.adaptors := by rw [state]; rfl
  have charged : Charged start p banks later := fresh.charged runs banks
  refine ⟨fresh, learned, charged, fun met => ?_, fun empty => ?_, ?_⟩
  · have met : ∀ observed ∈ banks.map start.observed, start.activeState.Met observed := by
      intro observed ho
      obtain ⟨bank, hb, rfl⟩ := List.mem_map.mp ho
      exact met bank hb
    have silent : later.Fresh := Charged.fresh charged fresh met
    refine ⟨silent, fun bank metNow => Bool.eq_false_of_not_eq_true fun changed => ?_⟩
    obtain ⟨c, hc, vote, cast, flips⟩ := (charged.changes bank).mp changed
    rw [charged.activeState] at hc
    have kept := (fresh.activeState.heard met).not_changed (State.Met.heard metNow) hc cast
    rw [kept] at flips
    cases flips
  · obtain ⟨telemetry, same⟩ := charged.rest
    rw [same, ← learned]
    refine Adaptors.taught_of_unsampled fun bank hb a ha => ?_
    exact Adaptor.sampled?_of_empty (empty bank hb a (learned ▸ ha))
  · intro bank n steady c hc against
    rw [charged.activeState] at hc
    have votes := fresh.activeState.tracker_heard hc
    have all : (banks.map start.observed).filterMap c.vote? = List.replicate n false := by
      rw [steady, List.map_replicate, List.filterMap_replicate, against]
    rwa [all, Debounce.start_after_replicate] at votes

/-- A monitor that holds one observation, which is twice the limit. -/
def heldOver : Bank := ⟨[⟨1, [20], false⟩]⟩

/-- The better one of two points runs when its monitor holds an observation that misses the goal. -/
def switchCommands : List (Command 1 1) := [.apply (State.samplePoint 1 5), .update heldOver]

/-- Had the monitors been cleared, two updates after the switch would charge nothing. -/
theorem charged_of_switch_sample :
    ∃ built, twoPoints.build = .ok built ∧
      let b := built.value.after switchCommands
      let p := State.samplePoint 2 5
      let cleared : Bank := ⟨[.ofCapacity 1]⟩
      b.running.map OperatingPoint.id ≠ some p.id ∧
        ((b.apply p).value.after [.update cleared, .update cleared]).Fresh := by
  have runs : (match (twoPoints.build).map Logged.value with
      | .ok built => (built.after switchCommands).running.map OperatingPoint.id ==
          some (State.samplePoint 1 5).id
      | .error _ => false) = true := by decide +kernel
  have other : (State.samplePoint 1 5).id ≠ (State.samplePoint 2 5).id := by decide +kernel
  cases accepted : twoPoints.build with
  | error fault =>
    rw [accepted] at runs
    cases runs
  | ok built =>
    rw [accepted] at runs
    refine ⟨built, rfl, ?_⟩
    intro b p cleared
    have switched : b.running.map OperatingPoint.id ≠ some p.id := by
      rw [show b.running.map OperatingPoint.id = _ from eq_of_beq runs]
      exact fun same => other (Option.some_inj.mp same)
    have empty (id : MonitorId) : cleared.average? id = none := by
      obtain ⟨_ | place⟩ := id <;> rfl
    have met : (b.apply p).value.Met cleared :=
      met_of_unobserved fun metric => Option.bind_eq_none_iff.mpr fun id _ => empty id
    obtain ⟨-, -, -, uncharged, -⟩ := charged_of_switch switched [cleared, cleared]
    exact ⟨switched, (uncharged (by simpa using met)).1⟩

/-- **An observation of the old configuration may be charged to the new one.**  The monitor still
holds what it held before the switch, and the first update after it reports a violation. -/
theorem exists_stale_vote :
    ∃ (b : Block 1 1) (p : OperatingPoint 1 1) (bank : Bank), b.Reachable ∧
      let before := (b.update bank).value.2
      let later := ((before.apply p).value.update bank).value
      before.running.map OperatingPoint.id ≠ some p.id ∧ later.1 = true ∧
        later.2.activeState.anyViolated = true := by
  have charged : (match (twoPoints.build).map Logged.value with
      | .ok built =>
        let b := built.after [.apply (State.samplePoint 1 5)]
        let p := State.samplePoint 2 5
        let before := (b.update heldOver).value.2
        let later := ((before.apply p).value.update heldOver).value
        before.running.map OperatingPoint.id != some p.id && later.1 &&
          later.2.activeState.anyViolated
      | .error _ => false) = true := by decide +kernel
  cases accepted : twoPoints.build with
  | error fault =>
    rw [accepted] at charged
    cases charged
  | ok built =>
    rw [accepted] at charged
    obtain ⟨both, violated⟩ := Bool.and_eq_true_iff.mp charged
    obtain ⟨switched, changed⟩ := Bool.and_eq_true_iff.mp both
    exact ⟨_, _, heldOver, ⟨twoPoints, built, _, accepted, rfl⟩, bne_iff_ne.mp switched, changed,
      violated⟩

end Block

end Autotune
