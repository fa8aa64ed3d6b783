import Autotune.Proofs.Block.Switch
import Autotune.Proofs.Block.Tally

/-!
# What one update touches

An update compares the monitors with the running point.  `Block.update_next` and `Block.update_flag`
say what it does by the samples and votes that it takes; here this is said item by item, against the
block before it:

* `Adaptor.Updated`: an adaptor takes one sample, by the stored prediction of the running point, or
  stays as it is;
* `Constraint.Updated`: a constraint takes one vote, by its goal and what the monitor holds, or stays
  as it is;
* `State.Updated`: only the constraints of the active state are asked;
* `Block.reported?`: the status that a constraint is reported to have, which the flag is about.

`Block.update_of_build` states it for every run.  Monitors stand in the bank, which an update reads
and cannot write.
-/

namespace Autotune

variable {kn mn : Nat}

/-! ### Items before and after an update -/

/-- What an update makes of an adaptor, while a point runs. -/
structure Adaptor.Updated (p : OperatingPoint kn mn) (bank : Bank) (a later : Adaptor) : Prop where
  /-- If its monitor holds anything, then one sample takes the place of the oldest one. -/
  sampled : ∀ observed, bank.average? a.monitor = some observed →
    ∃ predicted, p.field .metrics a.metric = .ok predicted ∧
      later = a.push ((sample? a.mode observed predicted).getD a.mode.neutral)
  unsampled : bank.average? a.monitor = none → later = a

/-- What an update makes of a constraint of the active state. -/
structure Constraint.Updated (observed : Nat → Option Float) (c later : Constraint) : Prop where
  /-- If something was observed of its metric, then it takes one vote, by its goal alone. -/
  voted : ∀ metric value, c.metric? = some metric → observed metric = some value →
    later = { c with tracker := (c.tracker.vote (c.goal.isMet value)).2 }
  unvoted : (∀ metric, c.metric? = some metric → observed metric = none) → later = c

/-- What an update makes of a state, if the one with the given name is active. -/
structure State.Updated (active : String) (observed : Nat → Option Float) (s later : State) :
    Prop where
  asked : s.name = active → later.name = s.name ∧ later.rank = s.rank ∧
    List.Forall₂ (Constraint.Updated observed) s.constraints.items later.constraints.items
  unasked : s.name ≠ active → later = s

lemma Adaptor.updated_pushed {a : Adaptor} {p : OperatingPoint kn mn}
    (inRange : a.metric < mn) (bank : Bank) :
    a.Updated p bank (a.pushed (a.sampled? p bank).toList) := by
  obtain ⟨predicted, known⟩ : ∃ r, p.field .metrics a.metric = .ok r :=
    State.fieldAt_of_lt inRange
  refine ⟨fun observed held => ⟨predicted, known, ?_⟩, fun empty => ?_⟩
  · simp only [sampled?, known, held]
    rfl
  · rw [sampled?_of_empty empty]
    rfl

lemma Constraint.updated_voted (observed : Nat → Option Float) (c : Constraint) :
    c.Updated observed (c.voted (c.vote? observed).toList) := by
  refine ⟨fun metric value reads seen => ?_, fun unseen => ?_⟩
  · have cast : c.vote? observed = some (c.goal.isMet value) := by
      rw [vote?, reads, Option.bind_some, seen, Option.map_some]
    rw [cast]
    rfl
  · have silent : c.vote? observed = none := by
      rw [vote?, Option.map_eq_none_iff, Option.bind_eq_none_iff]
      exact unseen
    rw [silent]
    rfl

lemma State.updated_heard (active : String) (observed : Nat → Option Float) (s : State) :
    s.Updated active observed (if s.name = active then s.heard [observed] else s) := by
  refine ⟨fun here => ?_, fun other => if_neg other⟩
  rw [if_pos here]
  refine ⟨rfl, rfl, List.forall₂_map_right_iff.mpr (List.forall₂_same.mpr fun c _ => ?_)⟩
  rw [filterMap_singleton]
  exact c.updated_voted observed

/-! ### Changes -/

lemma Debounce.vote_flag (d : Debounce) (satisfied : Bool) :
    (d.vote satisfied).1 = true ↔ (d.vote satisfied).2.status ≠ d.status := by
  unfold vote
  dsimp only
  split_ifs with agrees full
  · simp
  · simpa using agrees
  · simp

lemma Constraint.changed_iff (observed : Nat → Option Float) (c : Constraint) :
    (c.voted (c.vote? observed).toList).status ≠ c.status ↔
      ∃ vote, c.vote? observed = some vote ∧ (c.tracker.vote vote).1 = true := by
  cases cast : c.vote? observed with
  | none => simp [voted, status, Debounce.after]
  | some vote =>
    simp only [Option.some.injEq, exists_eq_left', Debounce.vote_flag]
    rfl

namespace Block

variable {b : Block kn mn} {p : OperatingPoint kn mn}

/-- The reported status of the constraint with a name and a priority, if there is one. -/
def reported? (b : Block kn mn) (name : String) (priority : UInt32) : Option Status :=
  (b.states.get? name).bind fun s => (s.constraints.get? priority).map Constraint.status

/-- What a constraint of the active state is reported to be after an update, and what another one
is. -/
lemma reported?_heard (b : Block kn mn) (observed : Nat → Option Float) (adaptors : Adaptors)
    (telemetry : Telemetry) (name : String) (priority : UInt32) :
    reported? { b with
      states := State.heardBy b.active [observed] b.states
      adaptors := adaptors
      telemetry := telemetry } name priority =
    (b.states.get? name).bind fun s => (s.constraints.get? priority).map fun c =>
      if name = b.active then (c.voted (c.vote? observed).toList).status else c.status := by
  have states : (State.heardBy b.active [observed] b.states).get? name =
      (b.states.get? name).map fun s =>
        if s.name = b.active then s.heard [observed] else s := by
    rw [State.heardBy, Roster.modify, Roster.get?_map]
    rfl
  rw [reported?, states, Option.bind_map]
  refine Option.bind_congr fun s found => ?_
  obtain rfl : s.name = name := (Roster.get?_eq_some_iff.mp found).2
  dsimp only [Function.comp]
  by_cases here : s.name = b.active
  · have votes : (s.heard [observed]).constraints.get? priority =
        (s.constraints.get? priority).map fun c => c.voted ([observed].filterMap c.vote?) := by
      rw [State.heard, Roster.get?_map]
    simp only [if_pos here, votes, Option.map_map, filterMap_singleton]
    rfl
  · simp only [if_neg here]

lemma exists_reported_ne (b : Block kn mn) (observed : Nat → Option Float) (adaptors : Adaptors)
    (telemetry : Telemetry) :
    (∃ name priority, reported? { b with
      states := State.heardBy b.active [observed] b.states
      adaptors := adaptors
      telemetry := telemetry } name priority ≠ b.reported? name priority) ↔
    ∃ c ∈ b.activeState.constraints.items,
      ∃ vote, c.vote? observed = some vote ∧ (c.tracker.vote vote).1 = true := by
  simp only [reported?_heard, ← Constraint.changed_iff]
  constructor
  · rintro ⟨name, priority, differs⟩
    unfold reported? at differs
    cases found : b.states.get? name with
    | none => simp [found] at differs
    | some s =>
      cases kept : s.constraints.get? priority with
      | none => simp [found, kept] at differs
      | some c =>
        by_cases here : name = b.active
        · subst here
          refine ⟨c, ?_, ?_⟩
          · rw [activeState, found, Option.getD_some]
            exact (Roster.get?_eq_some_iff.mp kept).1
          · simpa [found, kept] using differs
        · simp [found, kept, here] at differs
  · rintro ⟨c, hc, differs⟩
    cases found : b.states.get? b.active with
    | none =>
      rw [activeState, found] at hc
      simp [defaultState, State.ofRank, Roster.empty] at hc
    | some s =>
      rw [activeState, found, Option.getD_some] at hc
      have kept : s.constraints.get? c.priority = some c :=
        Roster.get?_eq_some_iff.mpr ⟨hc, rfl⟩
      refine ⟨b.active, c.priority, ?_⟩
      simpa [reported?, found, kept] using differs

/-! ### Every run -/

lemma Sound.evaluate (h : b.Sound) (bank : Bank) (p : OperatingPoint kn mn) :
    (b.evaluate bank p).value.2.Sound :=
  (h.evaluateAdaptors b.telemetry.block bank p).frame

lemma Sound.perform (h : b.Sound) (call : Call kn mn) : (b.perform call).after.Sound := by
  cases call with
  | ask command => exact h.execute command
  | evaluate bank p => exact h.evaluate bank p

lemma Sound.through (h : b.Sound) (calls : List (Call kn mn)) : (b.through calls).Sound := by
  induction calls generalizing b with
  | nil => exact h
  | cons call rest ih => exact ih (h.perform call)

/-- **What one update touches.**  In every run, an update without a running point does nothing.  With
one, it gives each adaptor whose monitor holds anything one sample, and each constraint of the active
state whose metric was observed one vote, and it touches nothing else but the telemetry.  The flag
tells whether a reported status has changed. -/
theorem update_of_build {parts : Builder kn mn} {built : Logged (Block kn mn)}
    (accepted : parts.build = .ok built) (calls : List (Call kn mn)) (bank : Bank) :
    let b := built.value.through calls
    let later := (b.update bank).value.2
    (b.running = none → b.update bank = .quiet (false, b)) ∧
    ∀ p, b.running = some p →
      (∃ states adaptors telemetry, later =
        { b with states := states, adaptors := adaptors, telemetry := telemetry }) ∧
      List.Forall₂ (Adaptor.Updated p bank) b.adaptors.items later.adaptors.items ∧
      List.Forall₂ (State.Updated b.active (b.observed bank)) b.states.items later.states.items ∧
      ((b.update bank).value.1 = true ↔
        ∃ name priority, later.reported? name priority ≠ b.reported? name priority) := by
  intro b later
  have sound : b.Sound := (sound_of_build parts built accepted).through calls
  refine ⟨fun idle => ?_, fun p runs => ?_⟩
  · rw [update, idle]
  · obtain ⟨telemetry, next⟩ := update_next runs bank
    refine ⟨execute_update b bank, ?_, ?_, ?_⟩
    · rw [show later.adaptors = b.adaptors.taught p [bank] from congrArg Block.adaptors next]
      refine List.forall₂_map_right_iff.mpr (List.forall₂_same.mpr fun a ha => ?_)
      rw [filterMap_singleton]
      exact Adaptor.updated_pushed (sound.adapted a ha) bank
    · rw [show later.states = State.heardBy b.active [b.observed bank] b.states from
        congrArg Block.states next]
      exact List.forall₂_map_right_iff.mpr
        (List.forall₂_same.mpr fun s _ => s.updated_heard b.active (b.observed bank))
    · rw [show later = _ from next, exists_reported_ne]
      exact update_flag runs bank

/-- An update by an observation that misses the goal changes a report, and teaches the adaptor. -/
theorem update_of_build_sample :
    ∃ built, sampleBuilder.build = .ok built ∧
      let b := built.value.through [.ask (.apply (State.samplePoint 2 5))]
      let later := (b.update heldOver).value.2
      (∃ p, b.running = some p ∧
        List.Forall₂ (Adaptor.Updated p heldOver) b.adaptors.items later.adaptors.items) ∧
      ∃ name priority, later.reported? name priority ≠ b.reported? name priority := by
  have changes : (match (sampleBuilder.build).map Logged.value with
      | .ok built =>
        let b := built.through [.ask (.apply (State.samplePoint 2 5))]
        b.running.isSome && (b.update heldOver).value.1
      | .error _ => false) = true := by decide +kernel
  cases accepted : sampleBuilder.build with
  | error fault =>
    rw [accepted] at changes
    cases changes
  | ok built =>
    rw [accepted] at changes
    obtain ⟨runs, flag⟩ := Bool.and_eq_true_iff.mp changes
    obtain ⟨p, runs⟩ := Option.isSome_iff_exists.mp runs
    obtain ⟨-, touched⟩ := update_of_build accepted [.ask (.apply (State.samplePoint 2 5))] heldOver
    obtain ⟨-, learned, -, reported⟩ := touched p runs
    exact ⟨built, rfl, ⟨p, runs, learned⟩, reported.mp flag⟩

end Block

end Autotune
