import Autotune.Proofs.Block.Frame

/-!
# Refused commands and earlier knowledge

A refused command changes nothing and announces nothing (`Block.execute_refused`), because each
operation is `Operation.Atomic`.

`Block.snapshots` lists the knowledge that a reader finds at the start of a run and after each of
its commands.  Knowledge is replaced as a whole and under a new version (`Block.execute_succeeds`),
so two readers who find the same version have the same knowledge.
-/

namespace Autotune

open Operation

namespace Knowledge

variable {kn mn : Nat} {k k' k'' : Knowledge kn mn}

/-- The same knowledge, or knowledge of a later version. -/
def Succeeds (next k : Knowledge kn mn) : Prop := next = k ∨ k.version < next.version

lemma Succeeds.trans (second : k''.Succeeds k') (first : k'.Succeeds k) : k''.Succeeds k := by
  obtain rfl | later := second
  · exact first
  · obtain rfl | earlier := first
    · exact .inr later
    · exact .inr (Nat.lt_trans earlier later)

end Knowledge

namespace Block

variable {kn mn : Nat} {b : Block kn mn} {fault : Fault}

/-! ### Refusal -/

lemma call_refused {α : Type} {op : Operation (Block kn mn) α} {answer : α → Response kn mn}
    (atomic : op.Atomic) (answers : ∀ a fault, answer a ≠ .refused fault)
    (refused : (b.call op answer).value.1 = .refused fault) :
    (b.call op answer).value.2 = b ∧ (b.call op answer).events = [] := by
  cases h : (op.run b).outcome with
  | error fault' => exact atomic b fault' h
  | ok a =>
    have answered : (b.call op answer).value.1 = answer a := by simp only [call, h]
    exact absurd (answered.symm.trans refused) (answers a fault)

/-- **A refused command leaves the block as it was and announces nothing.** -/
theorem execute_refused {command : Command kn mn}
    (refused : (b.execute command).value.1 = .refused fault) :
    (b.execute command).value.2 = b ∧ (b.execute command).events = [] := by
  cases command with
  | addState s => exact call_refused atomic_addState (by simp) refused
  | removeState name => exact call_refused atomic_removeState (by simp) refused
  | setState name => exact call_refused atomic_setState (by simp) refused
  | addConstraint state c => exact call_refused atomic_addConstraint (by simp) refused
  | removeConstraint state priority =>
    exact call_refused atomic_removeConstraint (by simp) refused
  | setTarget state priority target => exact call_refused atomic_setTarget (by simp) refused
  | setRank state rank => exact call_refused atomic_setRank (by simp) refused
  | updateKnowledge update => exact call_refused atomic_updateKnowledge (by simp) refused
  | send sender update =>
    unfold execute at refused
    dsimp only at refused
    split at refused <;> cases refused
  | openQueue | applyPending | select | apply | update | restore | resetAdaptation => cases refused

/-! ### Earlier knowledge -/

/-- **Every command keeps the knowledge or puts a later version in its place.** -/
theorem execute_succeeds (b : Block kn mn) (command : Command kn mn) :
    (b.execute command).value.2.knowledge.Succeeds b.knowledge := by
  refine knowledge_induction (motive := fun k => k.Succeeds b.knowledge)
    (fun k update next accepted earlier => Knowledge.Succeeds.trans (.inr ?_) earlier) (.inl rfl)
    command
  rw [Knowledge.version_of_apply accepted]
  exact Nat.lt_succ_self _

/-- The knowledge that a reader finds at the start of a run and after each of its commands. -/
def snapshots (b : Block kn mn) : List (Command kn mn) → List (Knowledge kn mn)
  | [] => [b.knowledge]
  | command :: rest => b.knowledge :: (b.execute command).value.2.snapshots rest

lemma snapshots_prefix (b : Block kn mn) (commands later : List (Command kn mn)) :
    b.snapshots commands <+: b.snapshots (commands ++ later) := by
  induction commands generalizing b with
  | nil => cases later <;> simp [snapshots]
  | cons command rest ih => exact (List.prefix_cons_inj _).mpr (ih _)

lemma succeeds_of_mem_snapshots {commands : List (Command kn mn)} {k : Knowledge kn mn}
    (hk : k ∈ b.snapshots commands) : k.Succeeds b.knowledge := by
  induction commands generalizing b with
  | nil => exact .inl (List.mem_singleton.mp hk)
  | cons command rest ih =>
    obtain rfl | hk := List.mem_cons.mp hk
    · exact .inl rfl
    · exact (ih hk).trans (execute_succeeds b command)

lemma pairwise_snapshots (b : Block kn mn) (commands : List (Command kn mn)) :
    (b.snapshots commands).Pairwise fun k next => next.Succeeds k := by
  induction commands generalizing b with
  | nil => exact List.pairwise_singleton _ _
  | cons command rest ih =>
    refine List.pairwise_cons.mpr ⟨fun k hk => ?_, ih _⟩
    exact (succeeds_of_mem_snapshots hk).trans (execute_succeeds b command)

/-- **A refused command leaves everything as it was, and knowledge that was read stays as it is.**
Whatever commands follow, the readers have found what they have found, and a later reader finds the
same knowledge or a later version. -/
theorem refused_unchanged (b : Block kn mn) :
    (∀ command fault, (b.execute command).value.1 = .refused fault →
      (b.execute command).value.2 = b ∧ (b.execute command).events = []) ∧
    (∀ commands later, b.snapshots commands <+: b.snapshots (commands ++ later)) ∧
    ∀ commands, (b.snapshots commands).Pairwise fun k next =>
      next = k ∨ k.version < next.version :=
  ⟨fun _ _ => execute_refused, snapshots_prefix b, pairwise_snapshots b⟩

/-- The active state is not given up. -/
theorem refused_unchanged_sample :
    ∃ built fault, sampleBuilder.build = .ok built ∧
      (built.value.execute (.removeState built.value.active)).value.1 = .refused fault ∧
      (built.value.execute (.removeState built.value.active)).value.2 = built.value := by
  obtain ⟨built, accepted⟩ := sampleBuilder_accepted
  cases h : ((removeState built.value.active).run built.value).outcome with
  | error fault =>
    have refused : (built.value.execute (.removeState built.value.active)).value.1 =
        .refused fault := by simp only [execute, call, h]
    exact ⟨built, fault, accepted, refused, ((refused_unchanged built.value).1 _ _ refused).1⟩
  | ok s => exact absurd rfl (removeState_yields.mp ⟨h, rfl⟩).1

end Block

end Autotune
