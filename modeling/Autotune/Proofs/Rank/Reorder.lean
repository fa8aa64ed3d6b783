import Autotune.Proofs.Block.Uncorrected
import Mathlib.Data.Fin.Basic
import Mathlib.Logic.Equiv.Basic

/-!
# Metrics in another order

A permutation `σ` of the metrics moves the metric at index `i` to index `σ i`.  The metrics of a point
move (`OperatingPoint.reorder`), and the indices of whatever reads them follow (`Selector.reorder`,
`Formula.reorder`, `Rank.reorder`), as a table of corrections may do (`Corrections.Reordered`).

* `OperatingPoint.field_reorder`: a field is found at its new index, and what was out of range stays
  out of range;
* `Selector.readCorrected_reorder`: so everything that is read is what was read before;
* `Formula.validatePoints_reorder`: a formula is accepted on the points that it was accepted on.
-/

namespace Autotune

open Equiv (Perm)

/-! ### Indices -/

section

variable {n i : Nat} {σ : Perm (Fin n)}

/-- Where a permutation of the first `n` indices moves any index. -/
def moved (σ : Perm (Fin n)) : Perm Nat := σ.extendDomain Fin.equivSubtype

lemma moved_val (i : Fin n) : moved σ i = σ i := σ.extendDomain_apply_image Fin.equivSubtype i

lemma moved_of_le (outside : n ≤ i) : moved σ i = i :=
  σ.extendDomain_apply_not_subtype Fin.equivSubtype (Nat.not_lt.mpr outside)

lemma moved_lt_iff : moved σ i < n ↔ i < n := by
  by_cases inside : i < n
  · rw [moved_val ⟨i, inside⟩]
    exact iff_of_true (σ ⟨i, inside⟩).isLt inside
  · rw [moved_of_le (Nat.not_lt.mp inside)]

lemma getElem?_ofFn_moved {α : Type} (row : Fin n → α) :
    (List.ofFn fun j => row (σ.symm j))[moved σ i]? = (List.ofFn row)[i]? := by
  by_cases inside : i < n
  · simp [moved_val ⟨i, inside⟩, inside]
  · simp [moved_of_le (Nat.not_lt.mp inside), inside]

end

variable {kn mn : Nat} {σ : Perm (Fin mn)} {p : OperatingPoint kn mn} {c c' : Corrections}

/-- Where an index of a segment is moved.  Knobs stay. -/
def relocated (σ : Perm (Fin mn)) (segment : Segment) (index : Nat) : Nat :=
  match segment with
  | .knobs => index
  | .metrics => moved σ index

/-! ### Points and corrections -/

namespace OperatingPoint

/-- The point with its metrics moved. -/
def reorder (σ : Perm (Fin mn)) (p : OperatingPoint kn mn) : OperatingPoint kn mn :=
  ⟨p.knobs, Vector.ofFn fun j => p.metrics[σ.symm j]⟩

@[simp] lemma id_reorder : (p.reorder σ).id = p.id := rfl

lemma metrics_reorder (i : Nat) : (p.reorder σ).metrics[moved σ i]? = p.metrics[i]? := by
  have entries : List.ofFn (fun j : Fin mn => p.metrics[j]) = p.metrics.toList := by
    rw [← Vector.toList_ofFn]
    exact congrArg Vector.toList Vector.ofFn_getElem
  rw [← Vector.getElem?_toList, reorder, Vector.toList_ofFn,
    getElem?_ofFn_moved fun j => p.metrics[j], entries, Vector.getElem?_toList]

lemma lt_of_field {i : Nat} {reading : Reading}
    (found : p.field .metrics i = .ok reading) : i < mn := by
  by_contra outside
  have missing : p.metrics[i]? = none := Vector.getElem?_eq_none (Nat.not_lt.mp outside)
  rw [field, fieldAt, missing] at found
  cases found

/-- **A field is found where it was moved**, and what was out of range still is. -/
theorem field_reorder (segment : Segment) (i : Nat) :
    (p.reorder σ).field segment (relocated σ segment i) = p.field segment i := by
  cases segment with
  | knobs => rfl
  | metrics =>
    show fieldAt .metrics (p.reorder σ).metrics (moved σ i) = fieldAt .metrics p.metrics i
    unfold fieldAt
    rw [metrics_reorder]
    cases found : p.metrics[i]? with
    | some field => rfl
    | none =>
      have outside : mn ≤ i := Vector.getElem?_eq_none_iff.mp found
      rw [moved_of_le outside]

end OperatingPoint

namespace Corrections

/-- The second table corrects each metric, where it is moved, as the first one does. -/
def Reordered (σ : Perm (Fin mn)) (c c' : Corrections) : Prop :=
  ∀ i : Fin mn, c'.get? (σ i) = c.get? i

lemma reordered_none : Reordered σ none none := fun _ => rfl

/-- The table with its corrections moved. -/
def reorder (σ : Perm (Fin mn)) (c : Corrections) : Corrections :=
  ⟨List.ofFn fun j => c.get? (σ.symm j)⟩

lemma reordered_reorder (σ : Perm (Fin mn)) (c : Corrections) : Reordered σ c (c.reorder σ) := by
  intro i
  simp [reorder, get?]

end Corrections

/-! ### Selectors -/

namespace Selector

variable {s : Selector}

/-- The selector of the same field at its new index. -/
def reorder (σ : Perm (Fin mn)) (s : Selector) : Selector :=
  { s with index := relocated σ s.segment s.index }

lemma read_reorder : (s.reorder σ).read (p.reorder σ) = s.read p := by
  rw [read, read, ← OperatingPoint.field_reorder (σ := σ) s.segment s.index]
  rfl

/-- **What is read under corrections is what was read before.** -/
theorem readCorrected_reorder (h : c.Reordered σ c') :
    (s.reorder σ).readCorrected (p.reorder σ) c' = s.readCorrected p c := by
  cases segment : s.segment with
  | knobs =>
    have same : (s.reorder σ).readCorrected (p.reorder σ) c' = (s.reorder σ).read (p.reorder σ) := by
      rw [readCorrected, reorder, segment]
    rw [same, read_reorder, readCorrected, segment]
  | metrics =>
    have found := OperatingPoint.field_reorder (σ := σ) (p := p) .metrics s.index
    simp only [readCorrected, reorder, segment, found]
    cases field : p.field .metrics s.index with
    | error fault => rfl
    | ok reading =>
      have inside : s.index < mn := OperatingPoint.lt_of_field field
      have correction : c'.get? (moved σ s.index) = c.get? s.index := by
        rw [moved_val ⟨s.index, inside⟩]
        exact h ⟨s.index, inside⟩
      simp only [relocated, Corrections.correct, correction]
      rfl

lemma check_reorder : (s.reorder σ).check kn mn = .ok ⟨⟩ ↔ s.check kn mn = .ok ⟨⟩ := by
  rw [State.check_eq_ok, State.check_eq_ok]
  cases segment : s.segment with
  | knobs => simp [reorder, segment, relocated]
  | metrics => simp [reorder, segment, relocated, moved_lt_iff]

end Selector

/-! ### Formulas and ranks -/

/-- The term of the same field at its new index. -/
def Term.reorder (σ : Perm (Fin mn)) (t : Term) : Term :=
  { t with selector := t.selector.reorder σ }

namespace Formula

variable {f : Formula}

/-- The formula of the same fields at their new indices. -/
def reorder (σ : Perm (Fin mn)) (f : Formula) : Formula :=
  { f with terms := f.terms.map (Term.reorder σ) }

lemma valueCorrected_reorder (h : c.Reordered σ c') :
    (f.reorder σ).valueCorrected (p.reorder σ) c' = f.valueCorrected p c := by
  rw [valueCorrected, valueCorrected, reorder, List.map_map]
  refine congrArg (compose f.composer) (List.map_congr_left fun t _ => ?_)
  exact congrArg (·, t.coefficient) (Selector.readCorrected_reorder h)

lemma isDefined_reorder (h : c.Reordered σ c') :
    (f.reorder σ).isDefined (p.reorder σ) c' = f.isDefined p c := by
  have power (t : Term) : (t.reorder σ).selector.readCorrected (p.reorder σ) c' =
      t.selector.readCorrected p c := Selector.readCorrected_reorder h
  obtain ⟨composer, terms⟩ := f
  cases composer with
  | simple => rfl
  | linear => rfl
  | geometric =>
    simp only [isDefined, reorder, List.all_map, Function.comp_def, power]
    rfl

/-- **A formula is accepted on the points that it was accepted on.** -/
theorem validatePoints_reorder {points : List (OperatingPoint kn mn)} :
    (f.reorder σ).validatePoints (points.map (OperatingPoint.reorder σ)) = .ok ⟨⟩ ↔
      f.validatePoints points = .ok ⟨⟩ := by
  rw [validatePoints_eq_ok, validatePoints_eq_ok, List.forall_mem_map]
  simp only [isDefined_reorder Corrections.reordered_none]

end Formula

/-- The rank of the same fields at their new indices. -/
def Rank.reorder (σ : Perm (Fin mn)) (r : Rank) : Rank := { r with formula := r.formula.reorder σ }

end Autotune
