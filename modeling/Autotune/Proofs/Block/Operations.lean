import Autotune.Block.Control
import Autotune.Proofs.Operation
import Autotune.Proofs.Refusal
import Autotune.Proofs.Roster

/-!
# What the operations of a block do

For each operation that can be refused there is one lemma that says when it is accepted and which
block it yields then (`…_yields`), and one that says that its refusal leaves everything as it was
(`atomic_…`).  Whatever is proved about operations starts from these lemmas.

Every operation on one state ends in `Block.putState`, so what it does to the registry is said once,
by `Block.mem_putState`.
-/

namespace Autotune

open Operation

/-! ### Operations on a state -/

namespace State

variable {s s' : State} {c : Constraint} {priority : UInt32} {target : Float} {u : Unit}

lemma constraint_eq_ok : s.constraint priority = .ok c ↔ s.constraints.get? priority = some c := by
  unfold constraint
  split <;> simp [*]

lemma addConstraint_yields :
    (addConstraint c).Yields s u s' ↔
      ¬ s.constraints.contains c.priority ∧
        { s with constraints := s.constraints.insert c } = s' := by
  simp only [addConstraint, read_bind_yields, ensure_bind_yields, change_yields]

lemma removeConstraint_yields :
    (removeConstraint priority).Yields s c s' ↔
      s.constraints.get? priority = some c ∧
        { s with constraints := s.constraints.erase priority } = s' := by
  simp only [removeConstraint, read_bind_yields, check_bind_yields, change_bind_yields, pure_yields,
    constraint_eq_ok]
  constructor
  · rintro ⟨c, found, rfl, done⟩
    exact ⟨found, done⟩
  · rintro ⟨found, done⟩
    exact ⟨c, found, rfl, done⟩

lemma setTarget_yields :
    (setTarget priority target).Yields s u s' ↔
      (∃ c, s.constraints.get? priority = some c) ∧
        { s with constraints :=
            s.constraints.modify priority (fun c => c.withTarget target) fun _ => rfl } = s' := by
  simp only [setTarget, read_bind_yields, check_bind_yields, change_yields, constraint_eq_ok,
    exists_and_right]

lemma atomic_addConstraint : (addConstraint c).Atomic :=
  silent_read.bind fun _ => (silent_ensure _ _).bind fun _ => (sure_change _).atomic

lemma atomic_removeConstraint : (removeConstraint priority).Atomic :=
  silent_read.bind fun _ => (silent_check _).bind fun c =>
    ((sure_change _).bind fun _ => sure_pure c).atomic

lemma atomic_setTarget : (setTarget priority target).Atomic :=
  silent_read.bind fun _ => (silent_check _).bind fun _ => (sure_change _).atomic

end State

/-! ### Operations on a block -/

namespace Block

variable {kn mn : Nat} {b b' : Block kn mn} {s t : State} {c : Constraint} {name : String}
  {priority : UInt32} {target : Float} {rank : Rank} {update : Update kn mn} {u : Unit}

lemma state_eq_ok : b.state name = .ok s ↔ b.states.get? name = some s := by
  unfold state
  split <;> simp [*]

lemma mem_putState :
    t ∈ (b.putState s).states.items ↔ t = s ∨ t ∈ b.states.items ∧ t.name ≠ s.name :=
  Roster.mem_insert

lemma putState_of_get? (found : b.states.get? name = some s) : b.putState s = b := by
  rw [putState, Roster.insert_of_mem (Roster.get?_eq_some_iff.mp found).1]

section

variable {α : Type} {op : Operation State α} {a : α}

lemma onState_yields :
    (onState name op).Yields b a b' ↔
      ∃ s s', b.states.get? name = some s ∧ op.Yields s a s' ∧ b.putState s' = b' := by
  unfold Yields run onState
  cases b.states.get? name with
  | none => simp
  | some s =>
    constructor
    · rintro ⟨ok, done⟩
      exact ⟨s, _, rfl, ⟨ok, rfl⟩, done⟩
    · rintro ⟨_, _, ⟨⟩, ⟨ok, rfl⟩, done⟩
      exact ⟨ok, done⟩

lemma atomic_onState (h : op.Atomic) : (onState name op : Operation (Block kn mn) α).Atomic := by
  intro b fault refused
  unfold run onState at refused ⊢
  cases found : b.states.get? name with
  | none => exact ⟨rfl, rfl⟩
  | some s =>
    rw [found] at refused
    obtain ⟨same, quiet⟩ := h s fault refused
    dsimp only
    exact ⟨by rw [same, putState_of_get? found], quiet⟩

end

lemma announce_yields {event : Telemetry → Logged Telemetry} :
    (announce event).Yields b u b' ↔ { b with telemetry := (event b.telemetry).value } = b' := by
  simp [announce, step_yields, Logged.map]

lemma announce_bind_yields {α : Type} {event : Telemetry → Logged Telemetry}
    {f : Unit → Operation (Block kn mn) α} {a : α} :
    (announce event >>= f).Yields b a b' ↔
      (f ⟨⟩).Yields { b with telemetry := (event b.telemetry).value } a b' := Iff.rfl

lemma sure_announce (event : Telemetry → Logged Telemetry) :
    (announce event : Operation (Block kn mn) Unit).Sure := sure_step _

lemma validate_eq_ok {points : List (OperatingPoint kn mn)} :
    b.validate points = .ok ⟨⟩ ↔ ∀ s ∈ b.states.items, s.validate points = .ok ⟨⟩ :=
  forM_eq_ok

/-! ### When they are accepted -/

lemma addState_yields :
    (addState s).Yields b u b' ↔
      s.validate b.knowledge.points = .ok ⟨⟩ ∧ ¬ b.states.contains s.name ∧ b.putState s = b' := by
  simp only [addState, read_bind_yields, check_bind_yields, ensure_bind_yields, change_yields]
  constructor
  · rintro ⟨⟨⟩, accepted⟩
    exact accepted
  · intro accepted
    exact ⟨⟨⟩, accepted⟩

lemma removeState_yields :
    (removeState name).Yields b s b' ↔
      b.active ≠ name ∧ b.states.get? name = some s ∧
        { b with states := b.states.erase name } = b' := by
  simp only [removeState, read_bind_yields, ensure_bind_yields, check_bind_yields,
    change_bind_yields, pure_yields, state_eq_ok]
  constructor
  · rintro ⟨other, s, found, rfl, done⟩
    exact ⟨other, found, done⟩
  · rintro ⟨other, found, done⟩
    exact ⟨other, s, found, rfl, done⟩

lemma setState_yields :
    (setState name).Yields b u b' ↔
      b.states.contains name ∧
        (if b.active ≠ name then
          { b with
            telemetry := (b.telemetry.stateSwitched b.active name).value
            active := name }
        else b) = b' := by
  simp only [setState, read_bind_yields, ensure_bind_yields]
  split
  case isTrue => simp only [change_bind_yields, announce_yields]
  case isFalse => simp only [pure_yields, true_and]

lemma addConstraint_yields :
    (addConstraint name c).Yields b u b' ↔
      c.selector.check kn mn = .ok ⟨⟩ ∧
        ∃ s, b.states.get? name = some s ∧ ¬ s.constraints.contains c.priority ∧
          b.putState { s with constraints := s.constraints.insert c } = b' := by
  simp only [addConstraint, check_bind_yields, onState_yields, State.addConstraint_yields]
  constructor
  · rintro ⟨⟨⟩, inRange, s, _, found, ⟨free, rfl⟩, done⟩
    exact ⟨inRange, s, found, free, done⟩
  · rintro ⟨inRange, s, found, free, done⟩
    exact ⟨⟨⟩, inRange, s, _, found, ⟨free, rfl⟩, done⟩

lemma removeConstraint_yields :
    (removeConstraint name priority).Yields b c b' ↔
      ∃ s, b.states.get? name = some s ∧ s.constraints.get? priority = some c ∧
        b.putState { s with constraints := s.constraints.erase priority } = b' := by
  simp only [removeConstraint, onState_yields, State.removeConstraint_yields]
  constructor
  · rintro ⟨s, _, found, ⟨present, rfl⟩, done⟩
    exact ⟨s, found, present, done⟩
  · rintro ⟨s, found, present, done⟩
    exact ⟨s, _, found, ⟨present, rfl⟩, done⟩

lemma setTarget_yields :
    (setTarget name priority target).Yields b u b' ↔
      ∃ s, b.states.get? name = some s ∧ (∃ c, s.constraints.get? priority = some c) ∧
        b.putState { s with constraints :=
          s.constraints.modify priority (fun c => c.withTarget target) fun _ => rfl } = b' := by
  simp only [setTarget, onState_yields, State.setTarget_yields]
  constructor
  · rintro ⟨s, _, found, ⟨present, rfl⟩, done⟩
    exact ⟨s, found, present, done⟩
  · rintro ⟨s, found, present, done⟩
    exact ⟨s, _, found, ⟨present, rfl⟩, done⟩

lemma setRank_yields :
    (setRank name rank).Yields b u b' ↔
      rank.formula.validateIndices kn mn = .ok ⟨⟩ ∧
        ∃ s, b.states.get? name = some s ∧
          rank.formula.validatePoints b.knowledge.points = .ok ⟨⟩ ∧
            b.putState { s with rank := rank } = b' := by
  simp only [setRank, check_bind_yields, read_bind_yields, onState_yields, change_yields]
  constructor
  · rintro ⟨⟨⟩, inRange, s, _, found, ⟨⟨⟩, defined, rfl⟩, done⟩
    exact ⟨inRange, s, found, defined, done⟩
  · rintro ⟨inRange, s, found, defined, done⟩
    exact ⟨⟨⟩, inRange, s, _, found, ⟨⟨⟩, defined, rfl⟩, done⟩

lemma updateKnowledge_yields {version : Nat} :
    (updateKnowledge update).Yields b version b' ↔
      ∃ next, b.knowledge.apply update = .ok next ∧
        (∀ s ∈ b.states.items, s.validate next.points = .ok ⟨⟩) ∧ next.version = version ∧
        { b with
          telemetry := (b.telemetry.knowledgeSwapped next.version next.size).value
          knowledge := next } = b' := by
  simp only [updateKnowledge, read_bind_yields, check_bind_yields, change_bind_yields,
    announce_bind_yields, pure_yields, ← validate_eq_ok]
  constructor
  · rintro ⟨next, accepted, ⟨⟩, done⟩
    exact ⟨next, accepted, done⟩
  · rintro ⟨next, accepted, done⟩
    exact ⟨next, accepted, ⟨⟩, done⟩

/-! ### What a refusal leaves -/

lemma atomic_addState : (addState s : Operation (Block kn mn) Unit).Atomic :=
  silent_read.bind fun _ => (silent_check _).bind fun _ => (silent_ensure _ _).bind fun _ =>
    (sure_change _).atomic

lemma atomic_removeState : (removeState name : Operation (Block kn mn) State).Atomic :=
  silent_read.bind fun _ => (silent_ensure _ _).bind fun _ => (silent_check _).bind fun s =>
    ((sure_change _).bind fun _ => sure_pure s).atomic

lemma atomic_setState : (setState name : Operation (Block kn mn) Unit).Atomic := by
  refine silent_read.bind fun b => (silent_ensure _ _).bind fun _ => Sure.atomic ?_
  split
  · exact (sure_change _).bind fun _ => sure_announce _
  · exact sure_pure _

lemma atomic_addConstraint : (addConstraint name c : Operation (Block kn mn) Unit).Atomic :=
  (silent_check _).bind fun _ => atomic_onState State.atomic_addConstraint

lemma atomic_removeConstraint :
    (removeConstraint name priority : Operation (Block kn mn) Constraint).Atomic :=
  atomic_onState State.atomic_removeConstraint

lemma atomic_setTarget :
    (setTarget name priority target : Operation (Block kn mn) Unit).Atomic :=
  atomic_onState State.atomic_setTarget

lemma atomic_setRank : (setRank name rank : Operation (Block kn mn) Unit).Atomic :=
  (silent_check _).bind fun _ => silent_read.bind fun _ => atomic_onState <|
    (silent_check _).bind fun _ => (sure_change _).atomic

lemma atomic_updateKnowledge : (updateKnowledge update : Operation (Block kn mn) Nat).Atomic :=
  silent_read.bind fun _ => (silent_check _).bind fun next => (silent_check _).bind fun _ =>
    ((sure_change _).bind fun _ => (sure_announce _).bind fun _ => sure_pure next.version).atomic

end Block

end Autotune
