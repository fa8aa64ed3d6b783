import Autotune.Proofs.Block.Refusals
import Autotune.Proofs.Blueprint.Resolve

/-!
# From a blueprint to a block

Whatever a blueprint is resolved into names only what exists (`Blueprint.inRange_of_builder`), so that
no name, no index and no number of terms or fields is left to be wrong when the points are added.
`Blueprint.builds_iff_complete` says which blueprints can be resolved and why the block may still be
refused.
-/

namespace Autotune

open State (samplePoint)

variable {kn mn : Nat} {d : Blueprint} {bank : Bank}

lemma Bank.map_fst_allocateEach {α : Type} (bank : Bank) (owners : List (α × Nat)) :
    (bank.allocateEach owners).1.map Prod.fst = owners.map Prod.fst := by
  induction owners generalizing bank with
  | nil => rfl
  | cons owner rest ih => exact congrArg (owner.1 :: ·) (ih _)

/-- The parts of a block with more points. -/
def Builder.addPoints (parts : Builder kn mn) (points : List (OperatingPoint kn mn)) :
    Builder kn mn :=
  { parts with points := parts.points ++ points }

namespace Blueprint

lemma exists_plan_of_mem {plan : StatePlan} {s : State} (h : d.state plan = .ok s) {c : Constraint}
    (hc : c ∈ s.constraints.items) : ∃ planned ∈ plan.constraints, d.constraint planned = .ok c := by
  obtain ⟨terms, r, cs, -, -, made, -, rfl⟩ := state_eq_ok.mp h
  have given : c ∈ cs := (Roster.mem_foldl_insert hc).resolve_right List.not_mem_nil
  exact exists_of_mem_mapM (mapM_eq_ok.mpr made) c given

lemma exists_selects {plan : StatePlan} {s : State} (h : d.state plan = .ok s)
    {selector : Selector} (reads : selector ∈ s.selectors) : ∃ field, d.Selects field selector := by
  obtain reads | reads := List.mem_append.mp reads
  · obtain ⟨terms, r, cs, made, ranked, -, -, rfl⟩ := state_eq_ok.mp h
    rw [(rank_eq_ok ranked).1] at reads
    obtain ⟨t, ht, rfl⟩ := List.mem_map.mp reads
    obtain ⟨planned, -, here⟩ := exists_of_mem_mapM (mapM_eq_ok.mpr made) t ht
    exact ⟨_, selects_term here⟩
  · obtain ⟨c, hc, rfl⟩ := List.mem_map.mp reads
    obtain ⟨planned, -, here⟩ := exists_plan_of_mem h hc
    exact ⟨_, selects_constraint here⟩

lemma lt_of_mem_constrainedMetrics {metric : Nat} (h : metric ∈ d.constrainedMetrics) :
    metric < d.metrics.length :=
  List.mem_range.mp (List.mem_filter.mp h).1

/-- **What a blueprint is resolved into names only what exists**, whatever points are added. -/
lemma inRange_of_builder {made : Builder kn mn × Bank} (h : d.builder kn mn bank = .ok made)
    (points : List (OperatingPoint kn mn)) : (made.1.addPoints points).InRange := by
  obtain ⟨knobs, metrics, states, ⟨adaptors, _⟩, planned, adapted, rfl⟩ := builder_eq_ok.mp h
  constructor
  · intro s hs selector reads
    obtain ⟨plan, -, here⟩ := exists_of_mem_mapM (mapM_eq_ok.mpr planned) s hs
    obtain ⟨field, selects⟩ := exists_selects here reads
    exact selects.check knobs metrics
  · intro a ha
    obtain ⟨plan, -, found, -⟩ := exists_of_mem_forall₂ (forall₂_resolveAdaptors adapted) a ha
    exact metrics ▸ lt_of_indexOf found
  · intro entry he
    have owned : entry.1 ∈ d.owners.map Prod.fst := by
      rw [← Bank.map_fst_allocateEach]
      exact List.mem_map_of_mem he
    simp only [owners, List.map_map, List.mem_map] at owned
    obtain ⟨metric, hm, same⟩ := owned
    exact metrics ▸ same ▸ lt_of_mem_constrainedMetrics hm

/-- **Which blueprints can be resolved, and why the block may still be refused.**  A blueprint can be
resolved when it is complete.  Whatever points are added to what it was resolved into, the block is
built or is refused for a cause that no name, index or number of terms has a part in. -/
theorem builds_iff_complete (d : Blueprint) (kn mn : Nat) (bank : Bank) :
    ((∃ made : Builder kn mn × Bank, d.builder kn mn bank = .ok made) ↔ d.Complete kn mn) ∧
    ∀ made : Builder kn mn × Bank, d.builder kn mn bank = .ok made →
      ∀ points : List (OperatingPoint kn mn),
        (∃ built, (made.1.addPoints points).build = .ok built) ∨
          ∃ fault, (made.1.addPoints points).build = .error fault ∧
            (made.1.addPoints points).Refuses fault := by
  refine ⟨exists_builder_iff, fun made resolved points => ?_⟩
  cases outcome : (made.1.addPoints points).build with
  | ok built => exact .inl ⟨built, rfl⟩
  | error fault =>
    have inRange := inRange_of_builder resolved points
    exact .inr ⟨fault, rfl, Builder.refuses_of_build inRange outcome⟩

/-- A block with an adaptor for one metric and a constraint on another one. -/
def twoMetrics : Blueprint where
  name := "sample"
  knobs := ["threads"]
  metrics := ["latency", "power"]
  states := [⟨"fast", .minimize, .linear, [⟨⟨.metrics, "latency"⟩, .average, 0, 1⟩],
    [⟨⟨.metrics, "power"⟩, .lessOrEqual, 8, 0, 1, 0⟩]⟩]
  activeState := some "fast"
  adaptors := [⟨"latency", 1, .additive, 4⟩]

/-- As long as no point is added, the block is refused for that. -/
theorem builds_iff_complete_sample :
    twoMetrics.Complete 1 2 ∧
    ∃ made : Builder 1 2 × Bank, twoMetrics.builder 1 2 .empty = .ok made ∧
      ∃ fault, (made.1.addPoints []).build = .error fault ∧
        (made.1.addPoints []).Refuses fault := by
  obtain ⟨resolves, refused⟩ := builds_iff_complete twoMetrics 1 2 .empty
  obtain ⟨made, resolved⟩ :=
    exists_eq_ok (x := twoMetrics.builder 1 2 .empty) (by decide +kernel)
  obtain ⟨-, -, states, adaptors, -, -, rfl⟩ := builder_eq_ok.mp resolved
  refine ⟨resolves.mp ⟨_, resolved⟩, _, resolved, ?_⟩
  obtain ⟨built, accepted⟩ | refuses := refused _ resolved []
  · cases accepted
  · exact refuses

end Blueprint

end Autotune
