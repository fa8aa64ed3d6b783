import Autotune.Proofs.Block.Ranks
import Autotune.Proofs.Cluster.Agreement

/-!
# Where the ranks of clusters come from

Every cluster is built from the template, which stays (`Clusters.keeps_template`), or with the
states that another one has, so the blocks of clusters have no ranks but those of the template and
those that commands hand in (`Clusters.Ranked.run`).  Putting a rank back where another one was
refused hands in none.

`arity_of_run`: hence in every run, of a block or of clusters, each registered formula has as many
terms as its composer takes, unless it was handed in with another number.
-/

namespace Autotune

open Operation

namespace Clusters

variable {kn mn fn : Nat} {cs : Clusters kn mn fn} {P : Rank → Prop}

/-- The rank that a command hands in. -/
def Command.rank? : Command kn mn fn → Option Rank
  | .addState s => some s.rank
  | .setRank _ rank => some rank
  | .direct _ command => command.rank?
  | _ => none

/-! ### The template stays -/

lemma keeps_template_attemptAll (op undo : Operation (Block kn mn) Unit) :
    Keeps Clusters.template (attemptAll op undo : Operation (Clusters kn mn fn) Unit) := by
  intro cs
  unfold run attemptAll
  split <;> rfl

lemma template_putCurrent (b : Block kn mn) : (cs.putCurrent b).template = cs.template := by
  unfold putCurrent
  split <;> rfl

lemma template_handOver (best : Nat) : (cs.handOver best).value.2.template = cs.template := by
  unfold handOver
  split
  · rfl
  · split <;> rfl

/-- **No command changes the template.** -/
theorem keeps_template (command : Command kn mn fn) :
    Keeps Clusters.template command.operation := by
  cases command with
  | add features points =>
    exact (silent_check _).keeps.bind fun _ => silent_read.keeps.bind fun _ =>
      (silent_ensure _ _).keeps.bind fun _ => (silent_check _).keeps.bind fun _ =>
        keeps_step fun _ => rfl
  | remove features =>
    exact silent_read.keeps.bind fun _ => (silent_check _).keeps.bind fun _ =>
      (silent_ensure _ _).keeps.bind fun _ => keeps_step fun _ => rfl
  | selectFor input =>
    refine ((silent_check _).keeps.bind fun _ => silent_read.keeps.bind fun cs => ?_).discard
    split
    · exact (silent_check _).keeps
    · exact keeps_step fun cs => template_handOver _
  | select =>
    refine (silent_read.keeps.bind fun _ => (silent_check _).keeps.bind fun c => ?_).discard
    exact keeps_step fun cs => template_putCurrent _
  | apply p =>
    exact silent_read.keeps.bind fun _ => (silent_check _).keeps.bind fun c =>
      keeps_step fun cs => template_putCurrent _
  | update bank =>
    refine keeps_step fun cs => ?_
    show (cs.update bank).value.2.template = cs.template
    unfold Clusters.update
    split
    · rfl
    · exact template_putCurrent _
  | setRank state rank =>
    exact silent_read.keeps.bind fun _ => (silent_check _).keeps.bind fun _ =>
      (silent_check _).keeps.bind fun _ => keeps_template_attemptAll _ _
  | direct place command =>
    refine keeps_step fun cs => ?_
    show (cs.executeAt place command).value.template = cs.template
    unfold executeAt
    split <;> rfl
  | addState | removeState | setState | addConstraint | removeConstraint | setTarget =>
    exact keeps_template_attemptAll _ _

/-! ### Ranks -/

/-- The property holds of the ranks of the template and of those of every block. -/
structure Ranked (P : Rank → Prop) (cs : Clusters kn mn fn) : Prop where
  template : ∀ s ∈ cs.template.states, P s.rank
  blocks : cs.Every (Block.Ranked P)

/-- The states of a new block are those of the template or those that another one has. -/
lemma Ranked.sibling (h : cs.Ranked P) (points : List (OperatingPoint kn mn)) :
    ∀ s ∈ (cs.sibling points).states, P s.rank := by
  unfold Clusters.sibling
  cases first : cs.entries.head? with
  | none => exact h.template
  | some c =>
    intro s hs
    obtain ⟨t, ht, rfl⟩ := List.mem_map.mp hs
    exact h.blocks c (List.mem_of_head? first) t ht

/-- **A command keeps what holds of all ranks, if it holds of the rank that it hands in.** -/
theorem Ranked.run (h : cs.Ranked P) (unranked : P .unranked) {command : Command kn mn fn}
    (new : ∀ r, command.rank? = some r → P r) : (command.operation.run cs).state.Ranked P := by
  refine ⟨keeps_template command cs ▸ h.template, ?_⟩
  have blocks := h.blocks
  have stable : Block.Stable (@Block.Ranked kn mn P) :=
    fun b hb _ keeps => hb.of_registry (Block.registry_execute b keeps)
  have handsNone {b : Block kn mn} (hb : b.Ranked P) (command : Autotune.Command kn mn)
      (none : command.rank? = none) : (b.execute command).value.2.Ranked P :=
    hb.execute command fun r handed => by simp [none] at handed
  cases command with
  | add features points =>
    cases outcome : ((Clusters.add features points).run cs).outcome with
    | error fault =>
      have same : ((Clusters.add features points).run cs).state = cs :=
        (atomic_add cs fault outcome).1
      exact same.symm ▸ blocks
    | ok u =>
      refine blocks.add (fun built accepted => ?_) ⟨outcome, rfl⟩
      exact Block.ranked_of_build accepted unranked (h.sibling points)
  | addState s =>
    exact blocks.attemptAll (fun b hb => hb.execute (.addState s) new)
      fun b hb => run_discard_state.symm ▸ handsNone hb (.removeState s.name) rfl
  | removeState name => exact blocks.each fun b hb => handsNone hb (.removeState name) rfl
  | setState name => exact blocks.each fun b hb => handsNone hb (.setState name) rfl
  | addConstraint state c => exact blocks.each fun b hb => handsNone hb (.addConstraint state c) rfl
  | removeConstraint state priority =>
    exact blocks.each fun b hb => handsNone hb (.removeConstraint state priority) rfl
  | setTarget state priority target =>
    exact blocks.each fun b hb => handsNone hb (.setTarget state priority target) rfl
  | setRank state rank =>
    obtain ⟨fault, refused⟩ | ⟨first, s, leader, found, same⟩ := setRank_run cs state rank
    · have same : ((setRank state rank).run cs).state = cs := by rw [refused]
      exact same.symm ▸ blocks
    · -- what is put back is a rank of the first block
      have old : P s.rank :=
        (blocks first (mem_of_leader leader)).of_get? (Block.state_eq_ok.mp found)
      have all := blocks.attemptAll (fun b hb => hb.execute (.setRank state rank) new)
        fun b hb => hb.execute (.setRank state s.rank) fun r handed => by
          cases handed
          exact old
      exact same.symm ▸ all
  | direct place command => exact blocks.executeAt fun b hb => hb.execute command new
  | remove features | selectFor input | select | apply p | update bank =>
    exact blocks.run stable trivial

/-- **Every rank of a cluster was handed in.**  It is the one that holds all points equal, or that
of a state of the template, or one that a command brought along. -/
theorem rank_of_run {template : Builder kn mn} {comparisons : Vector FeatureComparison fn}
    {distance : FeatureDistance} {start : Clusters kn mn fn}
    (h : ofTemplate template comparisons distance = .ok start)
    (commands : List (Command kn mn fn)) :
    (start.after commands).Every <| Block.Ranked fun r =>
      r = .unranked ∨ (∃ s ∈ template.states, r = s.rank) ∨
        ∃ command ∈ commands, command.rank? = some r := by
  have none := entries_of_ofTemplate h
  have own : start.template = template := by
    unfold ofTemplate at h
    split at h
    · cases h
    · cases h
      rfl
  have first : start.Ranked fun r =>
      r = .unranked ∨ (∃ s ∈ template.states, r = s.rank) ∨
        ∃ command ∈ commands, command.rank? = some r := by
    refine ⟨fun s hs => .inr (.inl ⟨s, own ▸ hs, rfl⟩), fun c hc => ?_⟩
    rw [none] at hc
    cases hc
  have each : ∀ command ∈ commands, command ∈ commands := fun _ hc => hc
  refine (after_induction (fun cs command hc ranked => ?_) each first).blocks
  exact ranked.run (.inl rfl) fun r handed => .inr (.inr ⟨command, hc, handed⟩)

end Clusters

/-- **No registered formula has a wrong number of terms unless it was handed in with it.**  This is
so in every run of a block and of clusters, and the planned ranks of a blueprint are handed in with
the right number. -/
theorem arity_of_run {kn mn fn : Nat} :
    (∀ (parts : Builder kn mn) (built : Logged (Block kn mn)) (commands : List (Command kn mn)),
      parts.build = .ok built → ∀ s ∈ (built.value.after commands).states.items,
        s.rank.formula.Fits ∨ (∃ t ∈ parts.states, s.rank = t.rank) ∨
          ∃ command ∈ commands, command.rank? = some s.rank) ∧
    (∀ (template : Builder kn mn) (comparisons : Vector FeatureComparison fn) (distance)
        (start : Clusters kn mn fn) (commands : List (Clusters.Command kn mn fn)),
      Clusters.ofTemplate template comparisons distance = .ok start →
        ∀ c ∈ (start.after commands).entries, ∀ s ∈ c.block.states.items,
          s.rank.formula.Fits ∨ (∃ t ∈ template.states, s.rank = t.rank) ∨
            ∃ command ∈ commands, command.rank? = some s.rank) ∧
    ∀ (d : Blueprint) (bank bank' : Bank) (parts : Builder kn mn),
      d.builder kn mn bank = .ok (parts, bank') → ∀ s ∈ parts.states, s.rank.formula.Fits := by
  have even {r : Rank} (unranked : r = .unranked) : r.formula.Fits := by
    rw [unranked]
    exact Formula.fits_constant
  refine ⟨?_, ?_, fun d bank bank' parts => Blueprint.fits_of_builder⟩
  · intro parts built commands accepted s hs
    exact (Block.rank_of_run accepted commands s hs).imp_left even
  · intro template comparisons distance start commands accepted c hc s hs
    exact (Clusters.rank_of_run accepted commands c hc s hs).imp_left even

/-- A block that is handed nothing but sums has no other formula than sums. -/
theorem arity_of_run_sample :
    ∃ built, Block.sampleBuilder.build = .ok built ∧
      ∀ s ∈ (built.value.after [.setRank "sample" ⟨.maximize, .constant⟩]).states.items,
        s.rank.formula.Fits := by
  obtain ⟨built, accepted⟩ := Block.sampleBuilder_accepted
  refine ⟨built, accepted, fun s hs => ?_⟩
  obtain ⟨runs, -⟩ := @arity_of_run 1 1 1
  obtain fits | ⟨t, ht, rank⟩ | ⟨command, hc, handed⟩ := runs _ built _ accepted s hs
  · exact fits
  · obtain rfl := List.mem_singleton.mp ht
    rw [rank]
    exact Formula.fits_iff.mpr (by decide)
  · obtain rfl := List.mem_singleton.mp hc
    rw [← Option.some_inj.mp handed]
    exact Formula.fits_constant

end Autotune
