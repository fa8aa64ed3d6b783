import Autotune.Proofs.State.Selection

/-!
# Selecting after a reset

`State.reset` forgets what was observed and nothing else.  A reset state admits the same points, ranks
them alike and violates by as much; it only reports no violation, so the running configuration is no
longer blocked and does not matter any more (`State.eligible_reset`).

* `State.Best.unique`: there is at most one best eligible point;
* `State.select_reset`: a reset changes the chosen point only in favour of a configuration that was
  blocked, and then that one is the best.
-/

namespace Autotune

namespace State

variable {kn mn : Nat} {s : State} {corrections : Corrections} {running running' : Option String}
  {points : List (OperatingPoint kn mn)} {p q : OperatingPoint kn mn} {i j : Nat}
  {k : Knowledge kn mn}

/-! ### What a reset leaves alone -/

lemma mem_reset {c : Constraint} :
    c ∈ s.reset.constraints.items ↔ ∃ d ∈ s.constraints.items, d.reset = c :=
  List.mem_map

lemma candidate_reset : s.reset.candidate corrections p i = s.candidate corrections p i := by
  have admits : s.reset.admits p corrections = s.admits p corrections := List.all_map
  have violation : s.reset.violation p corrections = s.violation p corrections :=
    congrArg Number.sum List.map_map
  simp only [candidate, admits, violation]
  rfl

lemma candidates_reset :
    s.reset.candidates points corrections = s.candidates points corrections := by
  simp only [candidates, candidate_reset]

lemma allowed_reset :
    s.reset.Allowed corrections running p ↔
      ∀ c ∈ s.constraints.items, c.admits p corrections = true := by
  constructor
  · intro allowed c hc
    exact allowed.admitted c.reset (mem_reset.mpr ⟨c, hc, rfl⟩)
  · intro admitted
    refine ⟨?_, fun c hc => ?_⟩
    · rintro ⟨⟨c, hc, violated⟩, -⟩
      obtain ⟨d, -, rfl⟩ := mem_reset.mp hc
      cases violated
    · obtain ⟨d, hd, rfl⟩ := mem_reset.mp hc
      exact admitted d hd

lemma eligible_reset :
    s.reset.Eligible corrections running p ↔
      (∀ c ∈ s.constraints.items, c.admits p corrections = true) ∧
        s.rank.isDefined p corrections = true := by
  constructor
  · intro eligible
    exact ⟨allowed_reset.mp eligible.toAllowed, eligible.defined⟩
  · rintro ⟨admitted, defined⟩
    exact ⟨allowed_reset.mpr admitted, defined⟩

lemma Eligible.reset (h : s.Eligible corrections running p) :
    s.reset.Eligible corrections running' p :=
  eligible_reset.mpr ⟨h.admitted, h.defined⟩

/-- What is eligible only after a reset was blocked before. -/
lemma Eligible.of_reset (h : s.reset.Eligible corrections running' p)
    (free : ¬ ((∃ c ∈ s.constraints.items, c.status = .violated) ∧ running = some p.id)) :
    s.Eligible corrections running p := by
  obtain ⟨admitted, defined⟩ := eligible_reset.mp h
  exact ⟨⟨free, admitted⟩, defined⟩

/-! ### Comparing the selections -/

lemma Best.unique (hp : s.Best corrections running points i p)
    (hq : s.Best corrections running points j q) : p = q := by
  by_cases same : j = i
  · subst same
    exact Option.some_inj.mp (hp.at_position.symm.trans hq.at_position)
  · have before := hp.first j q hq.at_position hq.eligible same
    have after := hq.first i p hp.at_position hp.eligible (Ne.symm same)
    rw [Std.OrientedCmp.gt_of_lt before] at after
    cases after

lemma Best.reset_running (h : s.reset.Best corrections running points i p) :
    s.reset.Best corrections running' points i p where
  at_position := h.at_position
  eligible := eligible_reset.mpr (eligible_reset.mp h.eligible)
  first j q hq eligible := h.first j q hq (eligible_reset.mpr (eligible_reset.mp eligible))

/-- The best point after a reset was the best before it, unless it was blocked. -/
lemma Best.of_reset (h : s.reset.Best corrections running' points i p)
    (free : ¬ ((∃ c ∈ s.constraints.items, c.status = .violated) ∧ running = some p.id)) :
    s.Best corrections running points i p where
  at_position := h.at_position
  eligible := h.eligible.of_reset free
  first j q hq eligible := h.first j q hq eligible.reset

lemma Best.select_point (h : s.Best corrections running k.points i p) :
    (s.select k corrections running).point = p := by
  obtain ⟨j, q, best, selected⟩ :=
    select_eq_bestSelection ⟨p, List.mem_of_getElem? h.at_position, h.eligible⟩
  rw [selected]
  exact best.unique h

/-- **A reset changes the chosen point only in favour of a blocked configuration.** -/
theorem select_reset :
    (s.reset.select k corrections running').point = (s.select k corrections running).point ∨
      ∃ i p, s.reset.Best corrections none k.points i p ∧
        (∃ c ∈ s.constraints.items, c.status = .violated) ∧ running = some p.id ∧
        (s.reset.select k corrections running').point = p := by
  by_cases eligible : ∃ p ∈ k.points, s.reset.Eligible corrections running' p
  · obtain ⟨i, p, best, selected⟩ := select_eq_bestSelection eligible
    by_cases blocked : (∃ c ∈ s.constraints.items, c.status = .violated) ∧ running = some p.id
    · exact .inr ⟨i, p, best.reset_running, blocked.1, blocked.2, by rw [selected]; rfl⟩
    · left
      rw [best.select_point, (best.of_reset blocked).select_point]
  · -- nothing was eligible before either, and the fallback takes no notice of the reports
    have none : ∀ p ∈ k.points, ¬ s.reset.Eligible corrections running' p :=
      fun p hp h => eligible ⟨p, hp, h⟩
    have none' : ∀ p ∈ k.points, ¬ s.Eligible corrections running p :=
      fun p hp h => none p hp h.reset
    left
    rw [select_eq_fallback none, select_eq_fallback none', candidate_reset, candidates_reset]
    rfl

end State

end Autotune
