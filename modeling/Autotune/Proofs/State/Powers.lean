import Autotune.Proofs.Block.Uncorrected
import Autotune.Proofs.Number.Product
import Mathlib.Data.List.Infix

/-!
# Ranks that are products of powers

A state fits the knowledge when each power of a geometric rank is defined at each point.  This is
asked of one power at a time.  The rank is their product, which is taken in binary arithmetic from
left to right, and there a product of numbers need not be a number (`Formula.Clashes`): an infinite
partial product may meet a power that is zero, or the other way round.

* `State.select_of_validate`: that is the only way in which a state that fits comes to a rank that is
  NaN, and it chooses such a point only if it has nothing better to choose;
* `State.exists_nan_rank`: it may happen.

The law of powers on which this rests is `Number.LawfulPower`.
-/

namespace Autotune

namespace Number

variable {base exponent : Float}

/-- The law of powers: a power is a number, unless one of its arguments is none or the base is
negative and the exponent is not whole. -/
def LawfulPower (base exponent : Float) : Prop :=
  base.isNaN = false → exponent.isNaN = false → (base < 0 → isWhole exponent = true) →
    (power base exponent).isNaN = false

lemma lawfulPower_one (base : Float) : LawfulPower base 1 := by
  intro number _ _
  rwa [power, if_pos (by decide +kernel)]

lemma LawfulPower.isNaN_eq_false (lawful : LawfulPower base exponent)
    (number : exponent.isNaN = false) (defined : undefinedPower base exponent = false) :
    (power base exponent).isNaN = false := by
  simp only [undefinedPower, Bool.or_eq_false_iff] at defined
  obtain ⟨⟨isNumber, negative⟩, -⟩ := defined
  refine lawful isNumber number fun below => ?_
  simpa [below] using negative

end Number

namespace Formula

open Number (Clash LawfulPower product)

variable {kn mn : Nat} {f : Formula} {p : OperatingPoint kn mn}

/-- The powers at a point, of which a geometric formula takes the product. -/
def powers (f : Formula) (p : OperatingPoint kn mn) : List Float :=
  f.terms.map fun t => Number.power (t.selector.read p) t.coefficient

/-- The product of the first powers is infinite where the next one is zero, or the other way
round. -/
def Clashes (f : Formula) (p : OperatingPoint kn mn) : Prop :=
  ∃ before x, before ++ [x] <+: f.powers p ∧ Clash (product before) x

/-- Nothing clashes as long as nothing is infinite. -/
lemma not_clashes (powers : ∀ x ∈ f.powers p, x.isInf = false)
    (products : ∀ before, before <+: f.powers p → (product before).isInf = false) :
    ¬ f.Clashes p := by
  rintro ⟨before, x, start, ⟨overflow, -⟩ | ⟨-, overflow⟩⟩
  · rw [products before ((List.prefix_append ..).trans start)] at overflow
    cases overflow
  · rw [powers x (start.mem (by simp))] at overflow
    cases overflow

lemma value_of_geometric (geometric : f.composer = .geometric) (p : OperatingPoint kn mn) :
    f.value p = product (f.powers p) := by
  rw [value, geometric, compose, List.map_map]
  rfl

/-- **Where every power is defined, only a clash makes the product NaN.** -/
theorem isNaN_value_iff (geometric : f.composer = .geometric)
    (defined : f.isDefined p .none = true) (numbers : ∀ t ∈ f.terms, t.coefficient.isNaN = false)
    (lawful : ∀ t ∈ f.terms, LawfulPower (t.selector.read p) t.coefficient) :
    (f.value p).isNaN = true ↔ f.Clashes p := by
  rw [value_of_geometric geometric]
  refine Number.isNaN_product_iff fun x hx => ?_
  obtain ⟨t, ht, rfl⟩ := List.mem_map.mp hx
  refine (lawful t ht).isNaN_eq_false (numbers t ht) ?_
  simp only [isDefined, geometric, List.all_eq_true, Bool.not_eq_true'] at defined
  have known := defined t ht
  rwa [(uncorrected_none f).readCorrected ht] at known

end Formula

namespace State

open Number (LawfulPower product)

variable {kn mn : Nat} {s : State} {k : Knowledge kn mn}

lemma select_mem (corrections : Corrections) (running : Option String)
    (defined : ∀ p ∈ k.points, s.rank.isDefined p corrections = true) :
    (s.select k corrections running).point ∈ k.points ∧
      (s.select k corrections running).rank =
        s.rank.valueCorrected (s.select k corrections running).point corrections := by
  by_cases eligible : ∃ p ∈ k.points, s.Eligible corrections running p
  · obtain ⟨i, p, best, selected⟩ := select_eq_bestSelection eligible
    rw [selected]
    exact ⟨List.mem_of_getElem? best.at_position, rfl⟩
  · have blocked : ∀ p ∈ k.points, ¬ s.Eligible corrections running p :=
      fun p hp h => eligible ⟨p, hp, h⟩
    have some : k.first ∈ k.points := List.head_mem k.nonempty
    obtain ⟨i, p, least, selected⟩ :=
      select_leastViolating blocked ⟨k.first, some, defined k.first some⟩
    rw [selected]
    exact ⟨List.mem_of_getElem? least.at_position, rfl⟩

/-- **What a state that fits is sure of.**  Its rank takes powers, and no corrections are in force.
Then the rank of the chosen point is NaN exactly when infinity meets zero in the product of its
powers, and so it is a number as long as neither a power nor a product of the first powers is
infinite.  A rank that is NaN is chosen among eligible points only if all of them have one, and no
selection is degraded for the lack of a rank. -/
theorem select_of_validate (geometric : s.rank.formula.composer = .geometric)
    (fits : s.validate k.points = .ok ⟨⟩)
    (numbers : ∀ t ∈ s.rank.formula.terms, t.coefficient.isNaN = false)
    (lawful : ∀ p ∈ k.points, ∀ t ∈ s.rank.formula.terms,
      LawfulPower (t.selector.read p) t.coefficient) (running : Option String) :
    let chosen := s.select k .none running
    (chosen.rank.isNaN = true ↔ s.rank.formula.Clashes chosen.point) ∧
    ((∀ x ∈ s.rank.formula.powers chosen.point, x.isInf = false) →
      (∀ before, before <+: s.rank.formula.powers chosen.point →
        (product before).isInf = false) → chosen.rank.isNaN = false) ∧
    (chosen.rank.isNaN = true →
      ∀ p ∈ k.points, s.Eligible .none running p → (s.rank.value p).isNaN = true) ∧
    (chosen.status = .optimal ∨
      ∃ violation, chosen.status = .degraded (.emptyEligibleSet violation)) := by
  intro chosen
  have defined : ∀ p ∈ k.points, s.rank.isDefined p .none = true :=
    Formula.validatePoints_eq_ok.mp (validate_eq_ok.mp fits).2
  have predicted (p : OperatingPoint kn mn) : s.rank.valueCorrected p .none = s.rank.value p :=
    Formula.valueCorrected_eq_value (Formula.uncorrected_none _) p
  have ranked {p : OperatingPoint kn mn} (hp : p ∈ k.points) :
      (s.rank.value p).isNaN = true ↔ s.rank.formula.Clashes p :=
    Formula.isNaN_value_iff geometric (defined p hp) numbers (lawful p hp)
  obtain ⟨known, rank⟩ := select_mem .none running defined
  have clash : chosen.rank.isNaN = true ↔ s.rank.formula.Clashes chosen.point := by
    rw [show chosen.rank = _ from rank, predicted]
    exact ranked known
  refine ⟨clash, fun powers products => ?_, fun lost p hp eligible => ?_,
    status_of_defined running defined⟩
  · rw [← Bool.not_eq_true, clash]
    exact Formula.not_clashes powers products
  · obtain ⟨i, q, best, better, point, -⟩ := select_best ⟨p, hp, eligible⟩
    obtain ⟨j, hj⟩ := List.mem_iff_getElem?.mp hp
    rw [show chosen.rank = _ from rank, show chosen.point = q from point] at lost
    rw [← predicted]
    by_cases here : j = i
    · subst here
      obtain rfl := Option.some_inj.mp (best.at_position.symm.trans hj)
      exact lost
    · obtain ⟨-, last, -⟩ := better j p hj eligible here
      exact last lost

/-- The state that prefers a small product of knob and metric. -/
def productState : State :=
  .ofRank "sample" ⟨.minimize, ⟨.geometric, [⟨.averageOf .knobs 0, 1⟩, ⟨.averageOf .metrics 0, 1⟩]⟩⟩

/-- Products of small numbers are numbers. -/
theorem select_of_validate_sample :
    productState.validate sampleKnowledge.points = .ok ⟨⟩ ∧
      (∀ t ∈ productState.rank.formula.terms, t.coefficient.isNaN = false) ∧
      (productState.select sampleKnowledge .none none).rank.isNaN = false := by
  obtain ⟨⟨⟩, fits⟩ : ∃ u, productState.validate sampleKnowledge.points = .ok u :=
    exists_eq_ok (by decide +kernel)
  have ones : ∀ t ∈ productState.rank.formula.terms, t.coefficient = 1 := by decide +kernel
  have numbers : ∀ t ∈ productState.rank.formula.terms, t.coefficient.isNaN = false := by
    decide +kernel
  have small : ∀ before ∈ List.inits (productState.rank.formula.powers
      (productState.select sampleKnowledge .none none).point),
      (product before).isInf = false := by decide +kernel
  obtain ⟨-, number, -⟩ := select_of_validate rfl fits numbers
    (fun p _ t ht => ones t ht ▸ Number.lawfulPower_one _) none
  refine ⟨fits, numbers, number (by decide +kernel) fun before start => ?_⟩
  exact small before ((List.mem_inits ..).mpr start)

/-- The state that prefers a small product of the metric and the square of the knob. -/
def overflowState : State :=
  .ofRank "sample" ⟨.minimize, ⟨.geometric,
    [⟨.averageOf .knobs 0, 1⟩, ⟨.averageOf .knobs 0, 1⟩, ⟨.averageOf .metrics 0, 1⟩]⟩⟩

/-- One point, whose knob is too great to be squared and whose metric is zero. -/
def overflowKnowledge : Knowledge 1 1 :=
  ⟨.ofPoints [samplePoint 1e200 0], 0, by simp [Table.ofPoints]⟩

/-- **A state that fits may choose a rank that is NaN.**  Each power is defined and finite, but the
square overflows before it meets the zero, and nothing is reported. -/
theorem exists_nan_rank :
    Formula.ofTerms .geometric overflowState.rank.formula.terms = .ok overflowState.rank.formula ∧
      overflowState.validate overflowKnowledge.points = .ok ⟨⟩ ∧
      (∀ p ∈ overflowKnowledge.points, ∀ t ∈ overflowState.rank.formula.terms,
        LawfulPower (t.selector.read p) t.coefficient ∧ t.coefficient.isFinite = true ∧
          t.selector.sigma.isFinite = true ∧ (t.selector.read p).isFinite = true) ∧
      (overflowState.select overflowKnowledge .none none).rank.isNaN = true ∧
      (overflowState.select overflowKnowledge .none none).status.isDegraded = false := by
  obtain ⟨⟨⟩, fits⟩ : ∃ u, overflowState.validate overflowKnowledge.points = .ok u :=
    exists_eq_ok (by decide +kernel)
  have ones : ∀ t ∈ overflowState.rank.formula.terms, t.coefficient = 1 := by decide +kernel
  have finite : ∀ p ∈ overflowKnowledge.points, ∀ t ∈ overflowState.rank.formula.terms,
      t.coefficient.isFinite = true ∧ t.selector.sigma.isFinite = true ∧
        (t.selector.read p).isFinite = true := by decide +kernel
  refine ⟨rfl, fits, fun p hp t ht => ⟨?_, finite p hp t ht⟩, ?_, ?_⟩
  · rw [ones t ht]
    exact Number.lawfulPower_one _
  · decide +kernel
  · decide +kernel

end State

end Autotune
