import Autotune.Proofs.Block.Sound
import Autotune.Proofs.State.Reset

/-!
# Selecting, applying and selecting again

One turn of the control loop chooses a point and applies it.  `Block.reselect` is the choice that
follows when nothing is observed in between.  Applying a new configuration forgets the reports, the
one that led away from the old configuration included; so the loop may go back to it.

`Block.Relapses` says when: the old configuration, which a report had blocked, is the best eligible
point as soon as the report is forgotten.  `Block.reselect_eq` shows that this is the only way in
which the loop does not come to rest at once, and `Block.exists_relapse` that it happens.
-/

namespace Autotune

namespace Block

variable {kn mn : Nat} {b : Block kn mn}

/-- The point that is chosen. -/
def chosen (b : Block kn mn) : OperatingPoint kn mn := b.select.value.1.point

/-- The selection after the chosen point was applied, when nothing happens in between. -/
def reselect (b : Block kn mn) : Selection kn mn :=
  (b.select.value.2.apply b.chosen).value.select.value.1

/-- The running configuration is left because a violation is reported, and it is the best eligible
point when the report is forgotten. -/
def Relapses (b : Block kn mn) : Prop :=
  ∃ i p, b.activeState.reset.Best b.adaptors.corrections none b.knowledge.points i p ∧
    (∃ c ∈ b.activeState.constraints.items, c.status = .violated) ∧
    b.running.map OperatingPoint.id = some p.id ∧ p.id ≠ b.chosen.id

/-! ### One turn of the loop -/

lemma activeState_resetStates : b.resetStates.activeState = b.activeState.reset := by
  have found : b.resetStates.states.get? b.active = (b.states.get? b.active).map State.reset :=
    Roster.get?_map State.reset fun _ => rfl
  have same : b.resetStates.active = b.active := rfl
  rw [activeState, activeState, same, found]
  cases b.states.get? b.active <;> rfl

lemma chosen_eq :
    b.chosen = (b.activeState.select b.knowledge b.adaptors.corrections
      (b.running.map OperatingPoint.id)).point := rfl

lemma reselect_of_running (h : b.running.map OperatingPoint.id = some b.chosen.id) :
    b.reselect = b.activeState.select b.knowledge b.adaptors.corrections (some b.chosen.id) := by
  have same : b.select.value.2.running.map OperatingPoint.id = some b.chosen.id := h
  rw [reselect, apply, if_pos same]
  rfl

lemma reselect_of_switched (h : b.running.map OperatingPoint.id ≠ some b.chosen.id) :
    b.reselect =
      b.activeState.reset.select b.knowledge b.adaptors.corrections (some b.chosen.id) := by
  have other : b.select.value.2.running.map OperatingPoint.id ≠ some b.chosen.id := h
  rw [reselect, apply, if_neg other, ← activeState_resetStates]
  rfl

/-! ### Coming to rest -/

lemma not_relapses_of_running (h : b.running.map OperatingPoint.id = some b.chosen.id) :
    ¬ b.Relapses := by
  rintro ⟨i, p, -, -, left, other⟩
  exact other (Option.some_inj.mp (left.symm.trans h))

/-- A block that does not relapse stays with the point that was just applied. -/
lemma reselect_of_not_relapses (h : ¬ b.Relapses) : b.reselect.point = b.chosen := by
  by_cases runs : b.running.map OperatingPoint.id = some b.chosen.id
  · rw [reselect_of_running runs, ← runs]
    rfl
  · rw [reselect_of_switched runs, chosen_eq]
    refine State.select_reset.resolve_right ?_
    rintro ⟨i, p, best, violated, left, -⟩
    refine h ⟨i, p, best, violated, left, fun same => runs ?_⟩
    rw [left, same]

/-- A block that relapses goes back to the configuration that it left. -/
lemma reselect_of_relapses (h : b.Relapses) :
    b.running.map OperatingPoint.id = some b.reselect.point.id ∧
      b.reselect.point.id ≠ b.chosen.id := by
  have switched : b.running.map OperatingPoint.id ≠ some b.chosen.id :=
    fun runs => not_relapses_of_running runs h
  obtain ⟨i, p, best, -, left, other⟩ := h
  have back : b.reselect.point = p := by
    rw [reselect_of_switched switched]
    exact best.reset_running.select_point
  rw [back]
  exact ⟨left, other⟩

lemma reselect_changed : b.reselect.changed = (some b.chosen.id != some b.reselect.point.id) := by
  by_cases runs : b.running.map OperatingPoint.id = some b.chosen.id
  · rw [reselect_of_running runs, State.select_changed]
  · rw [reselect_of_switched runs, State.select_changed]

/-- **The loop comes to rest at once, unless it relapses.**  In the next turn the configuration is
the one that was just applied and nothing has to change, except when the configuration that was left
is the best one again; then the loop goes back to it. -/
theorem reselect_eq (b : Block kn mn) :
    (b.reselect.point.id = b.chosen.id ↔ ¬ b.Relapses) ∧
      (b.reselect.changed = true ↔ b.Relapses) ∧
      (b.Relapses → b.running.map OperatingPoint.id = some b.reselect.point.id) := by
  have rests : b.reselect.point.id = b.chosen.id ↔ ¬ b.Relapses :=
    ⟨fun same relapses => (reselect_of_relapses relapses).2 same,
      fun stays => by rw [reselect_of_not_relapses stays]⟩
  refine ⟨rests, ?_, fun relapses => (reselect_of_relapses relapses).1⟩
  rw [reselect_changed, bne_iff_ne, ne_eq, Option.some_inj, eq_comm, rests, Classical.not_not]

/-- A block with two points that keep to the limit, as predicted, and a monitor for it. -/
def twoPoints : Builder 1 1 :=
  { sampleBuilder with
    points := [State.samplePoint 1 5, State.samplePoint 2 5]
    adaptors := []
    watched := [(0, ⟨0⟩)] }

/-- **The loop may go back.**  The better one of two points runs, its metric is observed to be twice
the limit, and the loop leaves it for the other one; in the next turn it is chosen again. -/
theorem exists_relapse :
    ∃ b : Block 1 1, b.Reachable ∧ b.reselect.point.id ≠ b.chosen.id ∧
      b.reselect.changed = true := by
  have goesBack : (match (twoPoints.build).map Logged.value with
      | .ok built =>
        let b := built.after [.apply (State.samplePoint 1 5), .update ⟨[⟨1, [20], false⟩]⟩]
        b.reselect.point.id != b.chosen.id && b.reselect.changed
      | .error _ => false) = true := by decide +kernel
  cases accepted : twoPoints.build with
  | error fault =>
    rw [accepted] at goesBack
    cases goesBack
  | ok built =>
    rw [accepted] at goesBack
    obtain ⟨other, changed⟩ := Bool.and_eq_true_iff.mp goesBack
    exact ⟨_, ⟨twoPoints, built, _, accepted, rfl⟩, by simpa using other, changed⟩

end Block

end Autotune
