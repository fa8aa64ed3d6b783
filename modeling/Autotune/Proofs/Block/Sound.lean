import Autotune.Proofs.Block.Builder
import Autotune.Proofs.Block.Operations
import Autotune.Proofs.Block.Run
import Autotune.Proofs.State.Selection
import Autotune.Proofs.State.Validate

/-!
# Blocks stay sound

A block is `Block.Sound` when its parts go together: the active state is registered, every state
fits the knowledge, and every adapted or watched metric exists.  Operations touch one part at a time,
so each of them has to see to the others.

* `Block.sound_of_build`: a block that was just built is sound;
* `Block.Sound.execute`: every command keeps a block sound, whether it is accepted or refused;
* `Block.consistent_of_reachable`: so a block is sound in every run, it never lacks an active state,
  and whatever its states read is there.
-/

namespace Autotune

open State (sampleKnowledge sampleState)

namespace State

variable {kn mn : Nat} {s : State} {points : List (OperatingPoint kn mn)}

lemma observeConstraint_selector (name : String) (observed : Nat → Option Float) (c : Constraint) :
    (observeConstraint name observed c).value.2.selector = c.selector := by
  unfold observeConstraint
  split <;> rfl

lemma validate_observe (h : s.validate points = .ok ⟨⟩) (observed : Nat → Option Float) :
    (s.observe observed).value.2.validate points = .ok ⟨⟩ := by
  refine validate_of_subset h rfl fun c hc => ?_
  obtain ⟨d, hd, rfl⟩ := List.mem_map.mp hc
  exact ⟨d, hd, observeConstraint_selector s.name observed d⟩

lemma validate_reset (h : s.validate points = .ok ⟨⟩) : s.reset.validate points = .ok ⟨⟩ := by
  refine validate_of_subset h rfl fun c hc => ?_
  obtain ⟨d, hd, rfl⟩ := List.mem_map.mp hc
  exact ⟨d, hd, rfl⟩

end State

namespace Block

variable {kn mn : Nat} {b : Block kn mn}

/-- The parts of a block go together. -/
structure Sound (b : Block kn mn) : Prop where
  active_registered : b.states.contains b.active = true
  fits : ∀ s ∈ b.states.items, s.validate b.knowledge.points = .ok ⟨⟩
  adapted : ∀ a ∈ b.adaptors.items, a.metric < mn
  watched : ∀ entry ∈ b.monitors, entry.1 < mn

namespace Sound

/-! ### One operation -/

lemma frame (h : b.Sound) {telemetry : Telemetry} {inbox : Inbox kn mn}
    {running : Option (OperatingPoint kn mn)} :
    Sound { b with telemetry := telemetry, inbox := inbox, running := running } :=
  ⟨h.active_registered, h.fits, h.adapted, h.watched⟩

lemma fits_of_get? (h : b.Sound) {name : String} {s : State} (found : b.states.get? name = some s) :
    s.validate b.knowledge.points = .ok ⟨⟩ :=
  h.fits s (Roster.get?_eq_some_iff.mp found).1

lemma putState (h : b.Sound) {s : State} (fit : s.validate b.knowledge.points = .ok ⟨⟩) :
    (b.putState s).Sound where
  active_registered := Roster.contains_insert.mpr (.inr h.active_registered)
  fits t ht := by
    obtain rfl | ⟨ht, -⟩ := mem_putState.mp ht
    · exact fit
    · exact h.fits t ht
  adapted := h.adapted
  watched := h.watched

lemma mapStates (h : b.Sound) {f : State → State} {keeps : ∀ s, Keyed.key (f s) = Keyed.key s}
    (fit : ∀ s : State, s.validate b.knowledge.points = .ok ⟨⟩ →
      (f s).validate b.knowledge.points = .ok ⟨⟩) :
    Sound { b with states := b.states.map f keeps } where
  active_registered := (Roster.contains_map f keeps).trans h.active_registered
  fits t ht := by
    obtain ⟨s, hs, rfl⟩ := List.mem_map.mp ht
    exact fit s (h.fits s hs)
  adapted := h.adapted
  watched := h.watched

lemma resetStates (h : b.Sound) : b.resetStates.Sound :=
  h.mapStates fun _ => State.validate_reset

lemma addState (h : b.Sound) {s : State} {u : Unit} {b' : Block kn mn}
    (ok : (addState s).Yields b u b') : b'.Sound := by
  obtain ⟨fit, -, rfl⟩ := addState_yields.mp ok
  exact h.putState fit

lemma removeState (h : b.Sound) {name : String} {s : State} {b' : Block kn mn}
    (ok : (removeState name).Yields b s b') : b'.Sound := by
  obtain ⟨other, -, rfl⟩ := removeState_yields.mp ok
  exact ⟨Roster.contains_erase.mpr ⟨other, h.active_registered⟩,
    fun s hs => h.fits s (Roster.mem_erase.mp hs).1, h.adapted, h.watched⟩

lemma setState (h : b.Sound) {name : String} {u : Unit} {b' : Block kn mn}
    (ok : (setState name).Yields b u b') : b'.Sound := by
  obtain ⟨registered, rfl⟩ := setState_yields.mp ok
  split
  · exact ⟨registered, h.fits, h.adapted, h.watched⟩
  · exact h

lemma addConstraint (h : b.Sound) {name : String} {c : Constraint} {u : Unit} {b' : Block kn mn}
    (ok : (addConstraint name c).Yields b u b') : b'.Sound := by
  obtain ⟨inRange, s, found, -, rfl⟩ := addConstraint_yields.mp ok
  refine h.putState (State.validate_eq_ok.mpr ?_)
  obtain ⟨reads, defined⟩ := State.validate_eq_ok.mp (h.fits_of_get? found)
  refine ⟨fun selector hs => ?_, defined⟩
  obtain term | constraint := List.mem_append.mp hs
  · exact reads selector (List.mem_append_left _ term)
  · obtain ⟨d, hd, rfl⟩ := List.mem_map.mp constraint
    obtain rfl | ⟨hd, -⟩ := Roster.mem_insert.mp hd
    · exact inRange
    · exact reads _ (List.mem_append_right _ (List.mem_map_of_mem hd))

lemma removeConstraint (h : b.Sound) {name : String} {priority : UInt32} {c : Constraint}
    {b' : Block kn mn} (ok : (removeConstraint name priority).Yields b c b') : b'.Sound := by
  obtain ⟨s, found, -, rfl⟩ := removeConstraint_yields.mp ok
  refine h.putState (State.validate_of_subset (h.fits_of_get? found) rfl fun d hd => ?_)
  exact ⟨d, (Roster.mem_erase.mp hd).1, rfl⟩

lemma setTarget (h : b.Sound) {name : String} {priority : UInt32} {target : Float} {u : Unit}
    {b' : Block kn mn} (ok : (setTarget name priority target).Yields b u b') : b'.Sound := by
  obtain ⟨s, found, -, rfl⟩ := setTarget_yields.mp ok
  refine h.putState (State.validate_of_subset (h.fits_of_get? found) rfl fun c hc => ?_)
  obtain ⟨d, hd, rfl⟩ := List.mem_map.mp hc
  refine ⟨d, hd, ?_⟩
  split <;> rfl

lemma setRank (h : b.Sound) {name : String} {rank : Rank} {u : Unit} {b' : Block kn mn}
    (ok : (setRank name rank).Yields b u b') : b'.Sound := by
  obtain ⟨inRange, s, found, defined, rfl⟩ := setRank_yields.mp ok
  refine h.putState (State.validate_eq_ok.mpr ⟨fun selector hs => ?_, defined⟩)
  obtain term | constraint := List.mem_append.mp hs
  · obtain ⟨t, ht, rfl⟩ := List.mem_map.mp term
    exact State.validateIndices_eq_ok.mp inRange t ht
  · exact (State.validate_eq_ok.mp (h.fits_of_get? found)).1 selector
      (List.mem_append_right _ constraint)

lemma updateKnowledge (h : b.Sound) {update : Update kn mn} {version : Nat} {b' : Block kn mn}
    (ok : (updateKnowledge update).Yields b version b') : b'.Sound := by
  obtain ⟨next, -, fits, -, rfl⟩ := updateKnowledge_yields.mp ok
  exact ⟨h.active_registered, fits, h.adapted, h.watched⟩

lemma takeUpdate (h : b.Sound) (update : Update kn mn) : (b.takeUpdate update).value.2.Sound := by
  unfold Block.takeUpdate
  dsimp only
  split
  case h_1 version accepted => exact h.updateKnowledge ⟨accepted, rfl⟩
  case h_2 fault refused =>
    rw [(atomic_updateKnowledge b fault refused).1]
    exact h

lemma takeUpdates (h : b.Sound) (updates : List (Update kn mn)) :
    (b.takeUpdates updates).value.2.Sound := by
  induction updates generalizing b with
  | nil => exact h
  | cons update rest ih => exact ih (h.takeUpdate update)

lemma apply (h : b.Sound) (p : OperatingPoint kn mn) : (b.apply p).value.Sound := by
  have next : Sound { b with running := some p } := h.frame
  unfold Block.apply
  split
  · exact next
  · exact next.resetStates

lemma withAdaptors (h : b.Sound) {as : Adaptors}
    (same : ∀ a ∈ as.items, ∃ d ∈ b.adaptors.items, a.metric = d.metric) :
    Sound { b with adaptors := as } where
  active_registered := h.active_registered
  fits := h.fits
  adapted a ha := by
    obtain ⟨d, hd, metric⟩ := same a ha
    exact metric ▸ h.adapted d hd
  watched := h.watched

lemma restore (h : b.Sound) (coefficients : List (Nat × Float)) :
    (b.restore coefficients).Sound := by
  induction coefficients generalizing b with
  | nil => exact h
  | cons entry rest ih =>
    obtain ⟨metric, coefficient⟩ := entry
    have next : Sound { b with
        adaptors := b.adaptors.modify metric (fun a => a.setCoefficient coefficient) fun _ => rfl } := by
      refine h.withAdaptors fun a ha => ?_
      obtain ⟨d, hd, rfl⟩ := List.mem_map.mp ha
      refine ⟨d, hd, ?_⟩
      split <;> rfl
    exact ih next

lemma resetAdaptation (h : b.Sound) : b.resetAdaptation.Sound := by
  refine (h.withAdaptors fun a ha => ?_).resetStates
  obtain ⟨d, hd, rfl⟩ := List.mem_map.mp ha
  exact ⟨d, hd, rfl⟩

lemma evaluateAdaptors (h : b.Sound) (block : String) (bank : Bank) (p : OperatingPoint kn mn) :
    Sound { b with adaptors := (b.adaptors.evaluate block bank p).value.2 } := by
  refine h.withAdaptors fun a ha => ?_
  obtain ⟨d, hd, rfl⟩ := List.mem_map.mp ha
  exact ⟨d, hd, Adaptors.evaluateAt_metric block bank p d⟩

lemma update (h : b.Sound) (bank : Bank) : (b.update bank).value.2.Sound := by
  unfold Block.update
  split
  · exact h
  case h_2 running _ =>
    have learned := h.evaluateAdaptors b.telemetry.block bank running
    dsimp only [Logged.andThen]
    split
    · exact learned.frame
    case h_2 s found =>
      have observed := State.validate_observe (h.fits_of_get? found)
        fun metric => (b.monitor? metric).bind bank.average?
      exact (learned.putState observed).frame

/-! ### Every operation -/

/-- **Every command keeps a block sound.** -/
theorem execute (h : b.Sound) (command : Command kn mn) : (b.execute command).value.2.Sound := by
  cases command with
  | addState s => exact call_induction atomic_addState h fun _ _ => h.addState
  | removeState name => exact call_induction atomic_removeState h fun _ _ => h.removeState
  | setState name => exact call_induction atomic_setState h fun _ _ => h.setState
  | addConstraint state c => exact call_induction atomic_addConstraint h fun _ _ => h.addConstraint
  | removeConstraint state priority =>
    exact call_induction atomic_removeConstraint h fun _ _ => h.removeConstraint
  | setTarget state priority target =>
    exact call_induction atomic_setTarget h fun _ _ => h.setTarget
  | setRank state rank => exact call_induction atomic_setRank h fun _ _ => h.setRank
  | updateKnowledge update =>
    exact call_induction atomic_updateKnowledge h fun _ _ => h.updateKnowledge
  | openQueue capacity => exact h.frame
  | send sender update =>
    unfold Block.execute
    dsimp only
    split
    case h_1 next ok =>
      obtain ⟨inbox, -, same⟩ := bind_eq_ok.mp ok
      obtain rfl := pure_eq_ok.mp same
      exact h.frame
    case h_2 => exact h
  | applyPending =>
    have drained : Sound { b with inbox := b.inbox.drain.2 } := h.frame
    exact drained.takeUpdates b.inbox.drain.1
  | select => exact h.frame
  | apply p => exact h.apply p
  | update bank => exact h.update bank
  | restore coefficients => exact h.restore coefficients
  | resetAdaptation => exact h.resetAdaptation

end Sound

/-! ### Every run -/

lemma validate_defaultState (points : List (OperatingPoint kn mn)) :
    defaultState.validate points = .ok ⟨⟩ := by
  have none : defaultState.selectors = [] := rfl
  rw [State.validate_eq_ok, none]
  exact ⟨fun _ hs => (List.not_mem_nil hs).elim, rfl⟩

/-- **A block that was just built is sound.** -/
theorem sound_of_build (parts : Builder kn mn) (built : Logged (Block kn mn))
    (h : parts.build = .ok built) : built.value.Sound := by
  obtain ⟨knowledge, registered, adaptors, monitors, telemetry, -, states, active, added, inRange,
    watched, same⟩ := Builder.build_eq_ok h
  have adapted := Adaptors.validate_eq_ok.mp inRange
  rw [same]
  refine ⟨active, ?_, adapted, ?_⟩
  · have fits := Builder.fits_of_register states
    intro s hs
    dsimp only [Builder.allStates] at hs
    split at hs
    · obtain rfl | ⟨hs, -⟩ := Roster.mem_insert.mp hs
      · exact validate_defaultState _
      · exact fits s hs
    · exact fits s hs
  · refine Builder.lt_of_watch (fun entry he => ?_) watched
    obtain ⟨a, ha, rfl⟩ := List.mem_map.mp he
    exact adapted a ((Builder.mem_adaptors added).mpr (.inr ha))

lemma Reachable.sound (h : b.Reachable) : b.Sound :=
  h.induction sound_of_build fun _ command sound => sound.execute command

lemma Sound.get?_active (h : b.Sound) : b.states.get? b.active = some b.activeState := by
  obtain ⟨s, hs, name⟩ := Roster.contains_iff.mp h.active_registered
  have found := Roster.get?_eq_some_iff.mpr ⟨hs, name⟩
  rw [activeState, found, Option.getD_some]

/-- **The parts of a block go together in every run.**  The active state is registered, so that the
default never stands in for it, and everything is found under its own name or priority.  There is
knowledge, every state fits it, and every adapted or watched metric exists; hence whatever a state
reads is there. -/
theorem consistent_of_reachable (h : b.Reachable) :
    b.states.get? b.active = some b.activeState ∧
      (∀ name s, b.states.get? name = some s ↔ s ∈ b.states.items ∧ s.name = name) ∧
      (∀ s ∈ b.states.items, ∀ priority c, s.constraints.get? priority = some c ↔
        c ∈ s.constraints.items ∧ c.priority = priority) ∧
      b.knowledge.points ≠ [] ∧
      (∀ s ∈ b.states.items, s.validate b.knowledge.points = .ok ⟨⟩) ∧
      (∀ a ∈ b.adaptors.items, a.metric < mn) ∧
      (∀ entry ∈ b.monitors, entry.1 < mn) ∧
      (∀ s ∈ b.states.items, ∀ selector ∈ s.selectors, ∀ p ∈ b.knowledge.points,
        ∃ r, p.field selector.segment selector.index = .ok r) := by
  have sound := h.sound
  refine ⟨sound.get?_active, fun _ _ => Roster.get?_eq_some_iff,
    fun _ _ _ _ => Roster.get?_eq_some_iff, b.knowledge.nonempty, sound.fits, sound.adapted,
    sound.watched, fun s hs selector reads p _ => ?_⟩
  exact State.readable_of_validate (sound.fits s hs) reads p

/-- A block with one state, whose only metric is adapted. -/
def sampleBuilder : Builder 1 1 where
  block := "sample"
  points := sampleKnowledge.points
  states := [sampleState .satisfied]
  active := none
  adaptors := [.fresh 0 ⟨0⟩ 1 .multiplicative]
  watched := []

lemma sampleBuilder_accepted : ∃ built, sampleBuilder.build = .ok built :=
  exists_eq_ok (by decide +kernel)

/-- A block that loses points and is asked to give up its only state still has that state. -/
theorem consistent_of_reachable_sample :
    ∃ built, sampleBuilder.build = .ok built ∧
      (built.value.after
        [.updateKnowledge (.remove ["2", "3"]), .removeState "sample"]).Reachable ∧
      (built.value.after
        [.updateKnowledge (.remove ["2", "3"]), .removeState "sample"]).knowledge.points ≠ [] := by
  obtain ⟨built, accepted⟩ := sampleBuilder_accepted
  have reachable : (built.value.after
      [.updateKnowledge (.remove ["2", "3"]), .removeState "sample"]).Reachable :=
    ⟨sampleBuilder, built, _, accepted, rfl⟩
  obtain ⟨-, -, -, nonempty, -⟩ := consistent_of_reachable reachable
  exact ⟨built, accepted, reachable, nonempty⟩

end Block

end Autotune
