import Autotune.Proofs.Block.Switch
import Autotune.Proofs.Block.Tally

/-!
# Which metrics are constrained

The constraints of a block are those that it was built with and those that were handed in.  What
holds of all constrained metrics of a block goes on to hold if it holds of the metrics of the
constraints that a call hands in (`Block.constrainsOnly_through`).

A constraint has its say at an update if its metric is observed then (`Block.vote_of_update`).
-/

namespace Autotune

variable {kn mn : Nat} {P : Nat → Prop}

lemma Constraint.metric?_eq_some_iff {c : Constraint} {metric : Nat} :
    c.metric? = some metric ↔ c.selector.segment = .metrics ∧ c.selector.index = metric := by
  unfold metric?
  split <;> simp [*]

/-- The constraints that a command hands in. -/
def Command.constraints : Command kn mn → List Constraint
  | .addState s => s.constraints.items
  | .addConstraint _ c => [c]
  | _ => []

/-- The constraints that a call hands in. -/
def Call.constraints : Call kn mn → List Constraint
  | .ask command => command.constraints
  | .evaluate .. => []

namespace State

/-- Every metric that the state constrains has the property. -/
def ConstrainsOnly (P : Nat → Prop) (s : State) : Prop :=
  ∀ c ∈ s.constraints.items, ∀ metric, c.metric? = some metric → P metric

lemma constrainsOnly_reset {s : State} : s.reset.ConstrainsOnly P ↔ s.ConstrainsOnly P :=
  List.forall_mem_map

lemma ConstrainsOnly.edit {s : State} (h : s.ConstrainsOnly P) {command : Command kn mn}
    (new : ∀ c ∈ command.constraints, ∀ metric, c.metric? = some metric → P metric) :
    (command.edit s).ConstrainsOnly P := by
  cases command with
  | addConstraint name c =>
    intro d hd
    obtain rfl | ⟨hd, -⟩ := Roster.mem_insert.mp hd
    · exact new d List.mem_cons_self
    · exact h d hd
  | removeConstraint name priority => exact fun d hd => h d (Roster.mem_erase.mp hd).1
  | setTarget name priority target =>
    intro d hd
    obtain ⟨e, he, rfl⟩ := List.mem_map.mp hd
    split
    · exact h e he
    · exact h e he
  | _ => exact h

end State

namespace Block

variable {b : Block kn mn}

/-- **Only the constraints that a call hands in bring in further metrics.** -/
lemma constrainsOnly_perform (h : b.EveryState (State.ConstrainsOnly P)) (call : Call kn mn)
    (new : ∀ c ∈ call.constraints, ∀ metric, c.metric? = some metric → P metric) :
    (b.perform call).after.EveryState (State.ConstrainsOnly P) := by
  cases call with
  | ask command =>
    refine h.execute (fun _ => State.constrainsOnly_reset) ?_ fun s limited => limited.edit new
    rintro s rfl
    exact new
  | evaluate bank p => exact h

lemma constrainsOnly_through (h : b.EveryState (State.ConstrainsOnly P))
    {calls : List (Call kn mn)}
    (new : ∀ call ∈ calls, ∀ c ∈ call.constraints, ∀ metric, c.metric? = some metric → P metric) :
    (b.through calls).EveryState (State.ConstrainsOnly P) := by
  induction calls generalizing b with
  | nil => exact h
  | cons call rest ih =>
    obtain ⟨here, later⟩ := List.forall_mem_cons.mp new
    exact ih (constrainsOnly_perform h call here) later

lemma constrainsOnly_activeState (h : b.EveryState (State.ConstrainsOnly P)) :
    b.activeState.ConstrainsOnly P := by
  unfold activeState
  cases found : b.states.get? b.active with
  | none => exact fun _ hc => (List.not_mem_nil hc).elim
  | some s => exact h.of_get? found

/-- **A constraint on an observed metric has its say.**  At an update it takes one vote, by its goal
and what is observed. -/
theorem vote_of_update {p : OperatingPoint kn mn} (runs : b.running = some p) {bank : Bank}
    {c : Constraint} (hc : c ∈ b.activeState.constraints.items) {metric : Nat} {value : Float}
    (about : c.metric? = some metric) (seen : b.observed bank metric = some value) :
    (b.update bank).value.2.activeState.constraints.get? c.priority =
      some { c with tracker := (c.tracker.vote (c.goal.isMet value)).2 } := by
  obtain ⟨telemetry, next⟩ := update_next runs bank
  have cast : c.vote? (b.observed bank) = some (c.goal.isMet value) := by
    rw [Constraint.vote?, about, Option.bind_some, seen, Option.map_some]
  have kept : b.activeState.constraints.get? c.priority = some c :=
    Roster.get?_eq_some_iff.mpr ⟨hc, rfl⟩
  rw [next, activeState_heard, State.heard, Roster.get?_map, kept, Option.map_some,
    filterMap_singleton, cast]
  rfl

end Block

end Autotune
