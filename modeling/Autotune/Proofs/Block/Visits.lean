import Autotune.Proofs.Block.Operations
import Autotune.Proofs.Feedback.Visits
import Autotune.Proofs.State.Selection

/-!
# A block in any order of its parts

The adaptors and the states of a block are filed by key, and where all of them take part, the order
in which they do is left open.  For adaptors see `Autotune.Proofs.Feedback.Visits`.  States are
asked whether they fit new knowledge, and the first that does not ends the inquiry, so the order may
decide which fault is reported, and nothing else:

* `Block.updateUnder` puts an update before any check, and checks that accept the same points lead
  to attempts that are `Attempt.Alike` (`Block.alike_updateUnder`);
* `Block.alike_of_perm`: asking the states in different orders accepts the same points.

`Block.same_in_any_order` says so of evaluations, corrections and updates together.
-/

namespace Autotune

open Operation (read check change)

/-- Two attempts differ at most in the fault that a refusal reports. -/
structure Attempt.Alike {σ α : Type} (a b : Attempt σ α) : Prop where
  accepted : ∀ result, a.outcome = .ok result ↔ b.outcome = .ok result
  state : a.state = b.state
  events : a.events = b.events

namespace Block

variable {kn mn : Nat} {b : Block kn mn} {update : Update kn mn}
  {accepts accepts' : Block kn mn → List (OperatingPoint kn mn) → Except Fault Unit}

/-- Puts an update of the knowledge in force if a check accepts the result, and yields the new
version. -/
def updateUnder (accepts : Block kn mn → List (OperatingPoint kn mn) → Except Fault Unit)
    (update : Update kn mn) : Operation (Block kn mn) Nat := do
  let b ← read
  let next ← check (b.knowledge.apply update)
  check (accepts b next.points)
  change fun b => { b with knowledge := next }
  announce fun telemetry => telemetry.knowledgeSwapped next.version next.size
  return next.version

/-- Asks the named states, one after the other, whether they fit a set of points. -/
def validateIn (order : List String) (b : Block kn mn) (points : List (OperatingPoint kn mn)) :
    Except Fault Unit :=
  (order.filterMap b.states.get?).forM fun s => s.validate points

/-- An update for which the states are asked in the given order. -/
def updateKnowledgeIn (order : List String) (update : Update kn mn) :
    Operation (Block kn mn) Nat :=
  updateUnder (validateIn order) update

/-- Asking the states as they are filed is what blocks do. -/
theorem run_updateKnowledgeIn_stateNames (b : Block kn mn) (update : Update kn mn) :
    (updateKnowledgeIn b.stateNames update).run b = (updateKnowledge update).run b := by
  have all : b.stateNames.filterMap b.states.get? = b.states.items := b.states.filterMap_get?_keys
  have asked (points : List (OperatingPoint kn mn)) :
      validateIn b.stateNames b points = b.validate points := by
    rw [validateIn, all, validate]
  simp only [updateKnowledgeIn, updateUnder, updateKnowledge, Operation.run_read_bind, asked]

/-- Checks that accept the same points let through the same updates. -/
lemma alike_updateUnder
    (same : ∀ points, accepts b points = .ok ⟨⟩ ↔ accepts' b points = .ok ⟨⟩) :
    ((updateUnder accepts update).run b).Alike ((updateUnder accepts' update).run b) := by
  simp only [updateUnder, Operation.run_read_bind, Operation.run_check_bind]
  cases b.knowledge.apply update with
  | error fault => exact ⟨fun _ => Iff.rfl, rfl, rfl⟩
  | ok next =>
    dsimp only
    cases h : accepts b next.points with
    | ok u =>
      rw [(same _).mp h]
      exact ⟨fun _ => Iff.rfl, rfl, rfl⟩
    | error fault =>
      cases h' : accepts' b next.points with
      | ok u =>
        rw [(same _).mpr h'] at h
        cases h
      | error fault' => exact ⟨fun _ => ⟨nofun, nofun⟩, rfl, rfl⟩

/-- **The order in which states are asked does not decide about an update.** -/
theorem alike_of_perm {order order' : List String} (perm : order.Perm b.stateNames)
    (perm' : order'.Perm b.stateNames) :
    ((updateKnowledgeIn order update).run b).Alike ((updateKnowledgeIn order' update).run b) := by
  have fits {order : List String} (perm : order.Perm b.stateNames)
      (points : List (OperatingPoint kn mn)) :
      validateIn order b points = .ok ⟨⟩ ↔ ∀ s ∈ b.states.items, s.validate points = .ok ⟨⟩ := by
    have asked := Roster.perm_filterMap_get? perm
    rw [validateIn, forM_eq_ok]
    exact forall_congr' fun s => imp_congr_left asked.mem_iff
  exact alike_updateUnder fun points => (fits perm points).trans (fits perm' points).symm

/-- **Nothing that a block decides depends on the order of its adaptors and states.**  Adaptors that
compare their monitors, which they may share, with one prediction end with the same windows in
whichever order they are visited; as many have something to compare, and every counter, that of
undefined corrections among them, moves alike.  The table of corrections is the same, and it
corrects each metric as the adaptor of that metric does.  New knowledge is accepted or refused in
whichever order the states are asked, and the block is the same afterwards. -/
theorem same_in_any_order (as : Adaptors) (block : String) (bank : Bank)
    (p : OperatingPoint kn mn) (b : Block kn mn) (update : Update kn mn) :
    (∀ order order' : List Nat, order.Perm as.metrics → order'.Perm as.metrics →
      (as.evaluateIn order block bank p).value = (as.evaluateIn order' block bank p).value ∧
        (∀ telemetry : Telemetry,
          telemetry.count (as.evaluateIn order block bank p).events =
            telemetry.count (as.evaluateIn order' block bank p).events) ∧
        as.correctionsIn order = as.correctionsIn order') ∧
    (as.evaluateIn as.metrics block bank p = as.evaluate block bank p ∧
      as.correctionsIn as.metrics = as.corrections) ∧
    (∀ metric predicted, as.corrections.correct metric predicted =
      match as.get? metric with
      | some a => a.correct predicted
      | none => predicted) ∧
    (∀ order order' : List String, order.Perm b.stateNames → order'.Perm b.stateNames →
      ((updateKnowledgeIn order update).run b).Alike
        ((updateKnowledgeIn order' update).run b)) ∧
    (updateKnowledgeIn b.stateNames update).run b = (updateKnowledge update).run b := by
  refine ⟨fun order order' perm perm' => ?_,
    ⟨as.evaluateIn_metrics block bank p, as.correctionsIn_metrics⟩, as.correct_corrections,
    fun order order' => alike_of_perm, run_updateKnowledgeIn_stateNames b update⟩
  obtain ⟨value, events⟩ := Adaptors.evaluateIn_of_perm perm perm'
  exact ⟨value, Telemetry.count_of_perm events,
    Adaptors.correctionsIn_of_perm (perm.trans perm'.symm)⟩

/-- A monitor that holds one observation. -/
def sharedBank : Bank := ⟨[(Monitor.ofCapacity 1).push 5]⟩

/-- Two adaptors that compare that monitor with their predictions. -/
def sharingAdaptors : Adaptors :=
  (Roster.empty.insert (.fresh 0 ⟨0⟩ 2 .additive)).insert (.fresh 1 ⟨0⟩ 1 .multiplicative)

/-- A point of which the second metric is predicted to be zero. -/
def sharedPoint : OperatingPoint 1 2 :=
  ⟨(State.samplePoint 1 20).knobs, (State.samplePoint 1 20).metrics.push (.double (.number 0))⟩

/-- A block with two states, of which one divides by the knob. -/
def twoStates : Block 1 2 where
  telemetry := .ofBlock "sample"
  knowledge := ⟨.ofPoints [sharedPoint], 0, by simp [Table.ofPoints]⟩
  inbox := .closed
  states := (Roster.empty.insert (State.sampleState .satisfied)).insert
    (.ofRank "inverse" ⟨.minimize, ⟨.geometric, [⟨.averageOf .knobs 0, -1⟩]⟩⟩)
  active := "sample"
  adaptors := sharingAdaptors
  monitors := []
  running := none

/-- The later adaptor is visited first, and the state that is filed last is asked first. -/
theorem same_in_any_order_sample :
    (sharingAdaptors.evaluateIn [1, 0] "sample" sharedBank sharedPoint).value =
        (sharingAdaptors.evaluateIn [0, 1] "sample" sharedBank sharedPoint).value ∧
      (sharingAdaptors.evaluate "sample" sharedBank sharedPoint).value.1 = 2 ∧
      ((updateKnowledgeIn ["sample", "inverse"] (.merge [sharedPoint])).run twoStates).Alike
        ((updateKnowledgeIn ["inverse", "sample"] (.merge [sharedPoint])).run twoStates) := by
  obtain ⟨visits, -, -, asked, -⟩ := same_in_any_order sharingAdaptors "sample" sharedBank
    sharedPoint twoStates (.merge [sharedPoint])
  obtain ⟨adapted, -, -⟩ := visits [1, 0] [0, 1] (by decide +kernel) (by decide +kernel)
  exact ⟨adapted, by decide +kernel,
    asked ["sample", "inverse"] ["inverse", "sample"] (by decide +kernel) (by decide +kernel)⟩

end Block

end Autotune
