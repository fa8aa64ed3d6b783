import Autotune.Proofs.Refusal
import Autotune.Proofs.State.Selection

/-!
# Selections without any defined rank

Corrections may leave no point with a defined rank.  A point is chosen all the same, and the number
of points is reported.  Which point it is depends on values that have no meaning then: points are
still compared by their violations, and for equal ones by what the formula computes outside its
domain (`State.compareUndefined`).

* `State.select_undefined`: the chosen point comes before all others in that order, which need not be
  the first one;
* `State.exists_later_selection`: a point may be chosen over the first one.
-/

namespace Autotune

namespace State

variable {kn mn : Nat} {s : State} {corrections : Corrections}
  {points : List (OperatingPoint kn mn)} {p q : OperatingPoint kn mn} {i j : Nat}

/-- The order of points without a defined rank: by violation, then by the value that the formula
computes nevertheless. -/
def compareUndefined (s : State) (corrections : Corrections) (p q : OperatingPoint kn mn) :
    Ordering :=
  (Number.compareTotal (s.violation p corrections) (s.violation q corrections)).then
    (s.rank.objective.compareValues (s.rank.valueCorrected p corrections)
      (s.rank.valueCorrected q corrections))

instance : Std.TransCmp fun p q : OperatingPoint kn mn => s.compareUndefined corrections p q :=
  have : Std.TransCmp fun p q : OperatingPoint kn mn =>
      Number.compareTotal (s.violation p corrections) (s.violation q corrections) :=
    transCmp_on fun p => s.violation p corrections
  have : Std.TransCmp fun p q : OperatingPoint kn mn =>
      s.rank.objective.compareValues (s.rank.valueCorrected p corrections)
        (s.rank.valueCorrected q corrections) :=
    transCmp_on fun p => s.rank.valueCorrected p corrections
  inferInstanceAs (Std.TransCmp (compareLex
    (fun p q : OperatingPoint kn mn =>
      Number.compareTotal (s.violation p corrections) (s.violation q corrections))
    fun p q => s.rank.objective.compareValues (s.rank.valueCorrected p corrections)
      (s.rank.valueCorrected q corrections)))

/-- A point, with its position, that comes before every other one although none has a rank. -/
structure Foremost (s : State) (corrections : Corrections) (points : List (OperatingPoint kn mn))
    (i : Nat) (p : OperatingPoint kn mn) : Prop where
  at_position : points[i]? = some p
  first : ∀ j q, points[j]? = some q → j ≠ i →
    (s.compareUndefined corrections p q).then (compare i j) = .lt

lemma compareViolating_undefined (hp : s.rank.isDefined p corrections = false)
    (hq : s.rank.isDefined q corrections = false) :
    s.compareViolating (s.candidate corrections p i) (s.candidate corrections q j) =
      (s.compareUndefined corrections p q).then (compare i j) := by
  have same : compare (s.candidate corrections q j).defined
      (s.candidate corrections p i).defined = .eq := by
    show compare (s.rank.isDefined q corrections) (s.rank.isDefined p corrections) = .eq
    rw [hp, hq]
    rfl
  rw [compareViolating, same, Ordering.eq_then, compareUndefined, Ordering.then_assoc]
  rfl

lemma Foremost.eq_zero_iff {k : Knowledge kn mn} (h : s.Foremost corrections k.points i p) :
    i = 0 ↔ ∀ q ∈ k.points, s.compareUndefined corrections k.first q ≠ .gt := by
  have start : k.points[0]? = some k.first := by
    rw [← List.head?_eq_getElem?, List.head?_eq_some_head k.nonempty]
    rfl
  constructor
  · rintro rfl q hq later
    obtain rfl : k.first = p := Option.some_inj.mp (start.symm.trans h.at_position)
    obtain ⟨j, hj⟩ := List.mem_iff_getElem?.mp hq
    by_cases here : j = 0
    · subst here
      obtain rfl : k.first = q := Option.some_inj.mp (start.symm.trans hj)
      have same : s.compareUndefined corrections k.first k.first = .eq :=
        Std.ReflCmp.compare_self
      rw [same] at later
      cases later
    · have before := h.first j q hj here
      rw [later] at before
      cases before
  · intro least
    by_contra elsewhere
    -- the first point stands further ahead, so only the order can speak for another one
    have before := h.first 0 k.first start (Ne.symm elsewhere)
    have behind : compare i 0 = .gt := Nat.compare_eq_gt.mpr (Nat.pos_of_ne_zero elsewhere)
    rw [behind] at before
    have less : s.compareUndefined corrections p k.first = .lt := by
      cases order : s.compareUndefined corrections p k.first with
      | lt => rfl
      | eq => rw [order] at before; cases before
      | gt => rw [order] at before; cases before
    exact least p (List.mem_of_getElem? h.at_position) (Std.OrientedCmp.gt_of_lt less)

/-- **When no rank is defined, the selection goes by what is left.**  All points are reported as
being without a rank.  The one that is chosen violates the constraints least and has, among those,
the best of the values that are computed outside of the domain; so it is the first one exactly when
no other one comes before that in this order. -/
theorem select_undefined {k : Knowledge kn mn} (running : Option String)
    (undefined : ∀ p ∈ k.points, s.rank.isDefined p corrections = false) :
    ∃ i p, s.Foremost corrections k.points i p ∧
      s.select k corrections running =
        { point := p
          rank := s.rank.valueCorrected p corrections
          status := .degraded (.undefinedRank k.points.length)
          version := k.version
          changed := running != some p.id } ∧
      (i = 0 ↔ ∀ q ∈ k.points, s.compareUndefined corrections k.first q ≠ .gt) := by
  obtain ⟨i, p, hp, chosen, least⟩ := exists_leastViolating s k corrections
  have lacking : s.rank.isDefined p corrections = false :=
    undefined p (List.mem_of_getElem? hp)
  have foremost : s.Foremost corrections k.points i p := by
    refine ⟨hp, fun j q hq apart => ?_⟩
    have strict := compareViolating_eq_lt (least j q hq) fun same => apart same.symm
    rwa [compareViolating_undefined lacking (undefined q (List.mem_of_getElem? hq))] at strict
  refine ⟨i, p, foremost, ?_, foremost.eq_zero_iff⟩
  have blocked : ∀ q ∈ k.points, ¬ s.Eligible corrections running q := by
    intro q hq eligible
    have defined := eligible.defined
    rw [undefined q hq] at defined
    cases defined
  have all : (s.candidates k.points corrections).countP (fun c => !c.defined) =
      k.points.length := by
    rw [countP_candidates (g := fun p => !s.rank.isDefined p corrections) fun _ _ => rfl,
      List.countP_eq_length]
    intro q hq
    rw [undefined q hq]
    rfl
  have reported : (s.candidate corrections p i).defined = false := lacking
  rw [select_eq_fallback blocked]
  simp only [fallback, chosen, candidates_eq_cons, all, reported]
  rfl

/-- The state that prefers a small root of the metric and wants the knob to be two at least. -/
def rootState : State where
  name := "sample"
  rank := ⟨.minimize, ⟨.geometric, [⟨.averageOf .metrics 0, 0.5⟩]⟩⟩
  constraints :=
    Roster.empty.insert (Constraint.on (.averageOf .knobs 0) ⟨.greaterOrEqual, 2⟩ 0 0 0)

/-- Two points, of which only the second one keeps to the limit. -/
def rootKnowledge : Knowledge 1 1 :=
  ⟨.ofPoints [samplePoint 1 3, samplePoint 2 4], 0, by simp [Table.ofPoints]⟩

/-- The metric is eight less than predicted. -/
def rootCorrections : Corrections := Corrections.none.set 0 ⟨.additive, -8⟩

/-- With both metrics below zero, no point has a rank, and both are reported. -/
theorem select_undefined_sample :
    (∀ p ∈ rootKnowledge.points, rootState.rank.isDefined p rootCorrections = false) ∧
      ∃ i p, rootState.Foremost rootCorrections rootKnowledge.points i p ∧
        (rootState.select rootKnowledge rootCorrections none).point = p ∧
        (rootState.select rootKnowledge rootCorrections none).status =
          .degraded (.undefinedRank 2) := by
  have undefined : ∀ p ∈ rootKnowledge.points,
      rootState.rank.isDefined p rootCorrections = false := by decide +kernel
  obtain ⟨i, p, foremost, selected, -⟩ := select_undefined none undefined
  exact ⟨undefined, i, p, foremost, by rw [selected], by rw [selected]; rfl⟩

/-- **A later point may be chosen although no point has a rank.**  The second one keeps to the limit
on the knob, and the first one does not. -/
theorem exists_later_selection :
    rootState.validate rootKnowledge.points = .ok ⟨⟩ ∧
      (∀ p ∈ rootKnowledge.points, rootState.rank.isDefined p rootCorrections = false) ∧
      (rootState.select rootKnowledge rootCorrections none).point.id ≠ rootKnowledge.first.id := by
  have fits : ∃ u, rootState.validate rootKnowledge.points = .ok u :=
    exists_eq_ok (by decide +kernel)
  obtain ⟨⟨⟩, fits⟩ := fits
  exact ⟨fits, by decide +kernel, by decide +kernel⟩

end State

end Autotune
