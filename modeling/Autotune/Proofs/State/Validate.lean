import Autotune.Proofs.Refusal
import Autotune.Proofs.Roster
import Autotune.State.Basic

/-!
# What it means that a state fits

`State.validate` accepts a set of points exactly when every selector of the state is in range and the
rank is defined at every point (`State.validate_eq_ok`).

* `State.readable_of_validate`: every selector of a state that fits finds its field in every point;
* `State.validate_of_subset`: a state that fits goes on to fit when it loses constraints or when
  their goals, confidences and trackers change.
-/

namespace Autotune

variable {kn mn : Nat}

namespace State

variable {s t : State} {points : List (OperatingPoint kn mn)}

/-- The selectors that a state reads: those of its rank and those of its constraints. -/
def selectors (s : State) : List Selector :=
  s.rank.formula.terms.map Term.selector ++ s.constraints.items.map Constraint.selector

lemma validateIndices_eq_ok {f : Formula} :
    f.validateIndices kn mn = .ok ⟨⟩ ↔ ∀ t ∈ f.terms, t.selector.check kn mn = .ok ⟨⟩ :=
  forM_eq_ok

/-- **A state fits when its selectors are in range and its rank is defined.** -/
theorem validate_eq_ok :
    s.validate points = .ok ⟨⟩ ↔
      (∀ selector ∈ s.selectors, selector.check kn mn = .ok ⟨⟩) ∧
        s.rank.formula.validatePoints points = .ok ⟨⟩ := by
  have inRange : (∀ selector ∈ s.selectors, selector.check kn mn = .ok ⟨⟩) ↔
      s.rank.formula.validateIndices kn mn = .ok ⟨⟩ ∧
        (s.constraints.items.forM fun c => c.selector.check kn mn) = .ok ⟨⟩ := by
    rw [validateIndices_eq_ok, forM_eq_ok]
    simp [selectors, or_imp, forall_and]
  simp only [validate, bind_eq_ok, inRange]
  constructor
  · rintro ⟨⟨⟩, terms, ⟨⟩, constraints, defined⟩
    exact ⟨⟨terms, constraints⟩, defined⟩
  · rintro ⟨⟨terms, constraints⟩, defined⟩
    exact ⟨⟨⟩, terms, ⟨⟩, constraints, defined⟩

lemma fieldAt_of_lt {n : Nat} {segment : Segment} {row : Vector Field n} {index : Nat}
    (h : index < n) : ∃ r, fieldAt segment row index = .ok r := by
  unfold fieldAt
  rw [Vector.getElem?_eq_getElem h]
  exact ⟨_, rfl⟩

lemma check_eq_ok {selector : Selector} :
    selector.check kn mn = .ok ⟨⟩ ↔
      selector.index < match selector.segment with
        | .knobs => kn
        | .metrics => mn := by
  cases h : selector.segment <;> simp [Selector.check, h]

lemma field_of_check {selector : Selector} (h : selector.check kn mn = .ok ⟨⟩)
    (p : OperatingPoint kn mn) : ∃ r, p.field selector.segment selector.index = .ok r := by
  rw [check_eq_ok] at h
  cases hs : selector.segment with
  | knobs => exact fieldAt_of_lt (by simpa only [hs] using h)
  | metrics => exact fieldAt_of_lt (by simpa only [hs] using h)

/-- **Every selector of a state that fits finds its field in every point.** -/
theorem readable_of_validate (h : s.validate points = .ok ⟨⟩) {selector : Selector}
    (hs : selector ∈ s.selectors) (p : OperatingPoint kn mn) :
    ∃ r, p.field selector.segment selector.index = .ok r :=
  field_of_check ((validate_eq_ok.mp h).1 selector hs) p

/-- A state of the same rank that reads nothing else fits wherever the other one does. -/
lemma validate_of_subset (h : s.validate points = .ok ⟨⟩) (rank : t.rank = s.rank)
    (reads : ∀ c ∈ t.constraints.items, ∃ d ∈ s.constraints.items, c.selector = d.selector) :
    t.validate points = .ok ⟨⟩ := by
  rw [validate_eq_ok] at h ⊢
  refine ⟨fun selector hs => h.1 selector ?_, rank ▸ h.2⟩
  rw [selectors, List.mem_append, rank] at hs
  rw [selectors, List.mem_append]
  refine hs.imp_right fun hs => ?_
  obtain ⟨c, hc, rfl⟩ := List.mem_map.mp hs
  obtain ⟨d, hd, same⟩ := reads c hc
  exact List.mem_map.mpr ⟨d, hd, same.symm⟩

end State

end Autotune
