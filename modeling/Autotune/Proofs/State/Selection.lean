import Autotune.Proofs.Rank.Order
import Autotune.Proofs.Roster
import Autotune.State.Selection

/-!
# What a selection is

`State.Allowed` and `State.Eligible` say who may be chosen, in terms of the state, the corrections
and the running configuration.  Candidates stand at different positions, so both orders on them are
strict (`compareRanked_eq_lt` and `compareViolating_eq_lt`) and each has a single least candidate.

* `select_best`: as long as some point is eligible, the chosen one is eligible and comes before every
  other eligible one;
* `select_leastViolating`: otherwise, as long as some rank is defined, the chosen point is the one of
  defined rank that comes first by violation, rank and position.
-/

namespace Autotune

namespace State

variable {kn mn : Nat} {s : State} {corrections : Corrections} {running : Option String}
  {points : List (OperatingPoint kn mn)} {p q : OperatingPoint kn mn} {i j : Nat}
  {c d : Candidate kn mn}

/-! ### Who may be chosen -/

/-- A point may be chosen when it is not the configuration whose violation is reported and every
constraint admits it. -/
structure Allowed (s : State) (corrections : Corrections) (running : Option String)
    (p : OperatingPoint kn mn) : Prop where
  notBlocked : ¬ ((∃ k ∈ s.constraints.items, k.status = .violated) ∧ running = some p.id)
  admitted : ∀ k ∈ s.constraints.items, k.admits p corrections = true

/-- An allowed point of defined rank. -/
structure Eligible (s : State) (corrections : Corrections) (running : Option String)
    (p : OperatingPoint kn mn) : Prop extends Allowed s corrections running p where
  defined : s.rank.isDefined p corrections = true

instance : Decidable (s.Allowed corrections running p) :=
  decidable_of_iff
    (¬ ((∃ k ∈ s.constraints.items, k.status = .violated) ∧ running = some p.id) ∧
      ∀ k ∈ s.constraints.items, k.admits p corrections = true)
    ⟨fun ⟨notBlocked, admitted⟩ => ⟨notBlocked, admitted⟩,
      fun ⟨notBlocked, admitted⟩ => ⟨notBlocked, admitted⟩⟩

instance : Decidable (s.Eligible corrections running p) :=
  decidable_of_iff
    (s.Allowed corrections running p ∧ s.rank.isDefined p corrections = true)
    ⟨fun ⟨allowed, defined⟩ => ⟨allowed, defined⟩, fun h => ⟨h.toAllowed, h.defined⟩⟩

/-- The number of allowed points without a defined rank. -/
def undefinedCount (s : State) (corrections : Corrections) (running : Option String)
    (points : List (OperatingPoint kn mn)) : Nat :=
  points.countP fun p => s.Allowed corrections running p ∧ s.rank.isDefined p corrections = false

lemma anyViolated_iff :
    s.anyViolated = true ↔ ∃ k ∈ s.constraints.items, k.status = .violated := by
  simp [anyViolated]

lemma allows_candidate :
    s.allows running (s.candidate corrections p i) = true ↔ s.Allowed corrections running p := by
  have reported : s.anyViolated = false ↔ ¬ ∃ k ∈ s.constraints.items, k.status = .violated := by
    rw [← anyViolated_iff, Bool.not_eq_true]
  simp only [allows, candidate, admits, Bool.and_eq_true, Bool.not_eq_true', Bool.and_eq_false_iff,
    beq_eq_false_iff_ne, List.all_eq_true, reported]
  constructor
  · rintro ⟨free, admitted⟩
    exact ⟨fun ⟨violated, runs⟩ => free.elim (· violated) (· runs), admitted⟩
  · rintro ⟨notBlocked, admitted⟩
    exact ⟨Decidable.not_and_iff_or_not.mp notBlocked, admitted⟩

/-! ### Candidates -/

lemma mem_candidates :
    c ∈ s.candidates points corrections ↔
      ∃ i p, points[i]? = some p ∧ s.candidate corrections p i = c := by
  simp only [candidates, List.mem_map, Prod.exists, List.mem_zipIdx_iff_getElem?]
  exact exists_comm

lemma countP_candidates {f : Candidate kn mn → Bool} {g : OperatingPoint kn mn → Bool}
    (h : ∀ p i, f (s.candidate corrections p i) = g p) :
    (s.candidates points corrections).countP f = points.countP g := by
  have forget : points.countP g = (points.zipIdx.map Prod.fst).countP g := by
    rw [List.zipIdx_map_fst]
  rw [candidates, forget, List.countP_map, List.countP_map]
  exact List.countP_congr fun ⟨p, i⟩ _ => by simp [h]

/-! ### The two orders on candidates -/

instance : Std.TransCmp fun a b : Candidate kn mn => s.compareRanked a b :=
  transCmp_on fun c : Candidate kn mn => (c.rank, c.position)

instance : Std.TransCmp fun a b : Candidate kn mn => s.compareViolating a b :=
  have : Std.TransCmp fun a b : Candidate kn mn => compare b.defined a.defined :=
    inferInstanceAs (Std.TransCmp fun a b => compareOn Candidate.defined b a)
  have : Std.TransCmp fun a b : Candidate kn mn => Number.compareTotal a.violation b.violation :=
    transCmp_on Candidate.violation
  inferInstanceAs (Std.TransCmp (compareLex (compareLex
    (fun a b : Candidate kn mn => compare b.defined a.defined)
    fun a b => Number.compareTotal a.violation b.violation) s.compareRanked))

lemma position_eq (h : s.compareRanked c d = .eq) : c.position = d.position := by
  simp only [compareRanked, Objective.compare, Ordering.then_eq_eq] at h
  exact Nat.compare_eq_eq.mp h.2

lemma compareRanked_eq_lt (h : (s.compareRanked c d).isLE) (apart : c.position ≠ d.position) :
    s.compareRanked c d = .lt := by
  refine (Ordering.isLE_iff_eq_lt_or_eq_eq.mp h).resolve_right fun same => apart ?_
  exact position_eq same

lemma compareViolating_eq_lt (h : (s.compareViolating c d).isLE)
    (apart : c.position ≠ d.position) : s.compareViolating c d = .lt := by
  refine (Ordering.isLE_iff_eq_lt_or_eq_eq.mp h).resolve_right fun same => apart ?_
  rw [compareViolating, Ordering.then_eq_eq] at same
  exact position_eq same.2

/-! ### A state to try things on -/

/-- The state that prefers a small knob and limits the metric to less than ten, with what is
reported about that limit. -/
def sampleState (status : Status) : State where
  name := "sample"
  rank := ⟨.minimize, ⟨.linear, [⟨.averageOf .knobs 0, 1⟩]⟩⟩
  constraints :=
    Roster.empty.insert { Constraint.on (.averageOf .metrics 0) ⟨.less, 10⟩ 0 0 0 with
      tracker := ⟨0, status, 0⟩ }

/-- The point with the given knob and metric. -/
def samplePoint (knob metric : Float) : OperatingPoint 1 1 :=
  ⟨#v[.double (.number knob)], #v[.double (.number metric)]⟩

/-- Three points, of which only the second one keeps to the limit. -/
def sampleKnowledge : Knowledge 1 1 :=
  ⟨.ofPoints [samplePoint 1 20, samplePoint 2 5, samplePoint 3 15], 0, by simp [Table.ofPoints]⟩

/-! ### The best eligible point -/

/-- An eligible point, with its position, that comes before every other eligible one. -/
structure Best (s : State) (corrections : Corrections) (running : Option String)
    (points : List (OperatingPoint kn mn)) (i : Nat) (p : OperatingPoint kn mn) : Prop where
  at_position : points[i]? = some p
  eligible : s.Eligible corrections running p
  first : ∀ j q, points[j]? = some q → s.Eligible corrections running q → j ≠ i →
    s.rank.objective.compare (s.rank.valueCorrected p corrections, i)
      (s.rank.valueCorrected q corrections, j) = .lt

/-- The candidates that `select` prefers by rank are the eligible points. -/
lemma mem_eligible :
    c ∈ ((s.candidates points corrections).filter (s.allows running)).filter (·.defined) ↔
      ∃ i p, points[i]? = some p ∧ s.Eligible corrections running p ∧
        s.candidate corrections p i = c := by
  simp only [List.mem_filter, mem_candidates]
  constructor
  · rintro ⟨⟨⟨i, p, hp, rfl⟩, allowed⟩, defined⟩
    exact ⟨i, p, hp, ⟨allows_candidate.mp allowed, defined⟩, rfl⟩
  · rintro ⟨i, p, hp, eligible, rfl⟩
    exact ⟨⟨⟨i, p, hp, rfl⟩, allows_candidate.mpr eligible.toAllowed⟩, eligible.defined⟩

lemma least_eligible
    (h : least? s.compareRanked
      (((s.candidates points corrections).filter (s.allows running)).filter (·.defined)) = some c) :
    ∃ i p, s.Best corrections running points i p ∧ s.candidate corrections p i = c := by
  obtain ⟨hc, least⟩ := least?_eq_some h
  obtain ⟨i, p, hp, eligible, rfl⟩ := mem_eligible.mp hc
  refine ⟨i, p, ⟨hp, eligible, fun j q hq eligible' apart => ?_⟩, rfl⟩
  have before := least _ (mem_eligible.mpr ⟨j, q, hq, eligible', rfl⟩)
  have strict := compareRanked_eq_lt before fun same => apart same.symm
  exact strict

lemma excluded_eq :
    ((s.candidates points corrections).filter (s.allows running)).countP (fun c => !c.defined) =
      s.undefinedCount corrections running points := by
  rw [List.countP_filter, undefinedCount]
  refine countP_candidates fun p i => ?_
  have allowed : s.allows running (s.candidate corrections p i) =
      decide (s.Allowed corrections running p) := by
    rw [Bool.eq_iff_iff, allows_candidate, decide_eq_true_eq]
  rw [allowed, Bool.decide_and, Bool.and_comm]
  cases h : s.rank.isDefined p corrections <;> simp [candidate, h]

/-- The selection of the best eligible point. -/
def bestSelection (s : State) (k : Knowledge kn mn) (corrections : Corrections)
    (running : Option String) (p : OperatingPoint kn mn) : Selection kn mn where
  point := p
  rank := s.rank.valueCorrected p corrections
  status :=
    if s.undefinedCount corrections running k.points = 0 then .optimal
    else .degraded (.undefinedRank (s.undefinedCount corrections running k.points))
  version := k.version
  changed := running != some p.id

lemma select_eq_bestSelection {k : Knowledge kn mn}
    (h : ∃ p ∈ k.points, s.Eligible corrections running p) :
    ∃ i p, s.Best corrections running k.points i p ∧
      s.select k corrections running = s.bestSelection k corrections running p := by
  cases found : least? s.compareRanked
      (((s.candidates k.points corrections).filter (s.allows running)).filter (·.defined)) with
  | some best =>
    obtain ⟨i, p, isBest, rfl⟩ := least_eligible found
    refine ⟨i, p, isBest, ?_⟩
    simp only [select, found, excluded_eq]
    rfl
  | none =>
    obtain ⟨p, hp, eligible⟩ := h
    obtain ⟨i, hi⟩ := List.mem_iff_getElem?.mp hp
    have present := mem_eligible.mpr ⟨i, p, hi, eligible, rfl⟩
    rw [least?_eq_none.mp found] at present
    cases present

lemma select_changed {k : Knowledge kn mn} :
    (s.select k corrections running).changed =
      (running != some (s.select k corrections running).point.id) := by
  simp only [select]
  split <;> rfl

/-- **As long as some point is eligible, the best eligible one is chosen.**  No other eligible point
has a numerically better rank, every number is preferred to NaN, and of ranks that are held equal
the earliest counts.  The selection is degraded exactly when an allowed point had to be left out. -/
theorem select_best {k : Knowledge kn mn} (h : ∃ p ∈ k.points, s.Eligible corrections running p) :
    ∃ i p, s.Best corrections running k.points i p ∧
      (∀ j q, k.points[j]? = some q → s.Eligible corrections running q → j ≠ i →
        ¬ s.rank.objective.Better (s.rank.valueCorrected q corrections)
            (s.rank.valueCorrected p corrections) ∧
          ((s.rank.valueCorrected p corrections).isNaN = true →
            (s.rank.valueCorrected q corrections).isNaN = true) ∧
          (s.rank.objective.compareValues (s.rank.valueCorrected p corrections)
            (s.rank.valueCorrected q corrections) = .eq → i < j)) ∧
      (s.select k corrections running).point = p ∧
      (s.select k corrections running).rank = s.rank.valueCorrected p corrections ∧
      ((s.select k corrections running).status = .optimal ↔
        ∀ q ∈ k.points, s.Allowed corrections running q → s.rank.isDefined q corrections = true) ∧
      ((s.select k corrections running).status ≠ .optimal →
        (s.select k corrections running).status =
          .degraded (.undefinedRank (s.undefinedCount corrections running k.points))) ∧
      (s.select k corrections running).version = k.version ∧
      ((s.select k corrections running).changed = true ↔ running ≠ some p.id) := by
  obtain ⟨i, p, isBest, selected⟩ := select_eq_bestSelection h
  have complete : s.undefinedCount corrections running k.points = 0 ↔
      ∀ q ∈ k.points, s.Allowed corrections running q → s.rank.isDefined q corrections = true := by
    simp [undefinedCount, List.countP_eq_zero]
  refine ⟨i, p, isBest, fun j q hq eligible apart => ?_, ?_⟩
  · exact Objective.of_compare_eq_lt (isBest.first j q hq eligible apart)
  · rw [selected, ← complete]
    by_cases none : s.undefinedCount corrections running k.points = 0
    · simp [bestSelection, none]
    · simp [bestSelection, none]

/-- The running point is blocked and over the limit; the one that keeps to the limit is chosen. -/
theorem select_best_sample :
    (∃ p ∈ sampleKnowledge.points, (sampleState .violated).Eligible .none (some "1") p) ∧
      ∃ i p, (sampleState .violated).Best .none (some "1") sampleKnowledge.points i p ∧
        ((sampleState .violated).select sampleKnowledge .none (some "1")).point = p := by
  have eligible : ∃ p ∈ sampleKnowledge.points,
      (sampleState .violated).Eligible .none (some "1") p := by decide +kernel
  obtain ⟨i, p, isBest, -, chosen, -⟩ := select_best eligible
  exact ⟨eligible, i, p, isBest, chosen⟩

/-! ### The least violating point -/

/-- A point of defined rank, with its position, that comes before every other one of defined rank,
by violation, then by rank and then by position. -/
structure LeastViolating (s : State) (corrections : Corrections)
    (points : List (OperatingPoint kn mn)) (i : Nat) (p : OperatingPoint kn mn) : Prop where
  at_position : points[i]? = some p
  defined : s.rank.isDefined p corrections = true
  first : ∀ j q, points[j]? = some q → s.rank.isDefined q corrections = true → j ≠ i →
    (Number.compareTotal (s.violation p corrections) (s.violation q corrections)).then
      (s.rank.objective.compare (s.rank.valueCorrected p corrections, i)
        (s.rank.valueCorrected q corrections, j)) = .lt

lemma candidates_eq_cons {k : Knowledge kn mn} :
    s.candidate corrections k.first 0 :: (s.candidates k.points corrections).drop 1 =
      s.candidates k.points corrections := by
  obtain ⟨⟨points, index⟩, version, nonempty⟩ := k
  cases points with
  | nil => exact absurd rfl nonempty
  | cons p points => simp [candidates, Knowledge.first]

lemma select_eq_fallback {k : Knowledge kn mn}
    (h : ∀ p ∈ k.points, ¬ s.Eligible corrections running p) :
    s.select k corrections running =
      s.fallback running k.version (s.candidate corrections k.first 0)
        ((s.candidates k.points corrections).drop 1) := by
  have none : ((s.candidates k.points corrections).filter (s.allows running)).filter (·.defined) =
      [] := by
    refine List.eq_nil_iff_forall_not_mem.mpr fun c hc => ?_
    obtain ⟨i, p, hp, eligible, -⟩ := mem_eligible.mp hc
    exact h p (List.mem_of_getElem? hp) eligible
  simp only [select, none, least?]

lemma compareViolating_of_defined (hc : c.defined = true) (hd : d.defined = false) :
    s.compareViolating c d = .lt := by
  simp only [compareViolating, hc, hd]
  rfl

lemma compareViolating_defined (hc : c.defined = true) (hd : d.defined = true) :
    s.compareViolating c d =
      (Number.compareTotal c.violation d.violation).then (s.compareRanked c d) := by
  simp only [compareViolating, hc, hd]
  rfl

/-- The candidate that the fallback chooses comes before all others. -/
lemma exists_leastViolating (s : State) (k : Knowledge kn mn) (corrections : Corrections) :
    ∃ i p, k.points[i]? = some p ∧
      leastOf s.compareViolating (s.candidate corrections k.first 0)
          ((s.candidates k.points corrections).drop 1) = s.candidate corrections p i ∧
      ∀ j q, k.points[j]? = some q →
        (s.compareViolating (s.candidate corrections p i) (s.candidate corrections q j)).isLE := by
  have chosen : leastOf s.compareViolating (s.candidate corrections k.first 0)
      ((s.candidates k.points corrections).drop 1) ∈ s.candidates k.points corrections := by
    rw [← candidates_eq_cons]
    exact leastOf_mem
  obtain ⟨i, p, hp, same⟩ := mem_candidates.mp chosen
  refine ⟨i, p, hp, same.symm, fun j q hq => ?_⟩
  rw [same]
  refine isLE_leastOf ?_
  rw [candidates_eq_cons]
  exact mem_candidates.mpr ⟨j, q, hq, rfl⟩

/-- **When no point is eligible, the least violating one is chosen.**  It may be one that is not
allowed, but not one of undefined rank as long as another has a defined one, and the selection
reports how much it violates the constraints. -/
theorem select_leastViolating {k : Knowledge kn mn}
    (blocked : ∀ p ∈ k.points, ¬ s.Eligible corrections running p)
    (ranked : ∃ p ∈ k.points, s.rank.isDefined p corrections = true) :
    ∃ i p, s.LeastViolating corrections k.points i p ∧
      s.select k corrections running =
        { point := p
          rank := s.rank.valueCorrected p corrections
          status := .degraded (.emptyEligibleSet (s.violation p corrections))
          version := k.version
          changed := running != some p.id } := by
  obtain ⟨i, p, hp, chosen, least⟩ := exists_leastViolating s k corrections
  have defined : s.rank.isDefined p corrections = true := by
    cases hdef : s.rank.isDefined p corrections with
    | true => rfl
    | false =>
      -- an undefined winner would come before a point whose rank is defined
      obtain ⟨q, hq, hdef'⟩ := ranked
      obtain ⟨j, hj⟩ := List.mem_iff_getElem?.mp hq
      have before : s.compareViolating (s.candidate corrections q j)
          (s.candidate corrections p i) = .lt := compareViolating_of_defined hdef' hdef
      have after := least j q hj
      rw [Std.OrientedCmp.gt_of_lt before] at after
      cases after
  refine ⟨i, p, ⟨hp, defined, fun j q hq hdef apart => ?_⟩, ?_⟩
  · have strict := compareViolating_eq_lt (least j q hq) fun same => apart same.symm
    rw [compareViolating_defined defined hdef] at strict
    exact strict
  · rw [select_eq_fallback blocked]
    have reported : (s.candidate corrections p i).defined = true := defined
    simp only [fallback, chosen, reported, if_true]
    rfl

/-- While the only point that keeps to the limit runs and is blocked, no point is eligible. -/
theorem select_leastViolating_sample :
    (∀ p ∈ sampleKnowledge.points, ¬ (sampleState .violated).Eligible .none (some "2") p) ∧
      (∃ p ∈ sampleKnowledge.points, (sampleState .violated).rank.isDefined p .none = true) ∧
      ∃ i p, (sampleState .violated).LeastViolating .none sampleKnowledge.points i p ∧
        ((sampleState .violated).select sampleKnowledge .none (some "2")).point = p := by
  have blocked : ∀ p ∈ sampleKnowledge.points,
      ¬ (sampleState .violated).Eligible .none (some "2") p := by decide +kernel
  have ranked : ∃ p ∈ sampleKnowledge.points,
      (sampleState .violated).rank.isDefined p .none = true := by decide +kernel
  obtain ⟨i, p, least, chosen⟩ := select_leastViolating blocked ranked
  exact ⟨blocked, ranked, i, p, least, by rw [chosen]⟩

/-! ### The chosen point -/

lemma exists_getElem?_select (s : State) (k : Knowledge kn mn) (corrections : Corrections)
    (running : Option String) :
    ∃ i : Nat, k.points[i]? = some (s.select k corrections running).point := by
  by_cases eligible : ∃ p ∈ k.points, s.Eligible corrections running p
  · obtain ⟨i, p, isBest, selected⟩ := select_eq_bestSelection eligible
    rw [selected]
    exact ⟨i, isBest.at_position⟩
  · obtain ⟨i, p, hp, chosen, -⟩ := exists_leastViolating s k corrections
    rw [select_eq_fallback fun p hp h => eligible ⟨p, hp, h⟩]
    simp only [fallback, chosen]
    exact ⟨i, hp⟩

end State

end Autotune
