import Autotune.Proofs.Number.Order
import Autotune.Rank.Order

/-!
# The order of ranks

Both objectives order rank values by a key: NaN after every number, numbers by their place in the
total order or by its reverse.  So `Objective.compareValues` is transitive, and
`Objective.compare`, which goes on to positions, is transitive too.

* `compareValues_of_better`: a value that is numerically better in the direction of the objective
  comes first;
* `compareValues_of_isNaN`: every number comes before NaN;
* `of_compare_eq_lt`: what it means for candidates that one comes first.
-/

namespace Autotune

lemma transCmp_on {α β : Type} {cmp : α → α → Ordering} [Std.TransCmp cmp] (f : β → α) :
    Std.TransCmp fun a b => cmp (f a) (f b) where
  eq_swap := Std.OrientedCmp.eq_swap
  isLE_trans := Std.TransCmp.isLE_trans

namespace Objective

variable {o : Objective} {a b : Float}

/-- Whether a value is numerically better than another one. -/
def Better (o : Objective) (a b : Float) : Prop :=
  match o with
  | .minimize => a < b
  | .maximize => b < a

/-- The place of a rank value among the numbers, the better first.  All NaNs share one. -/
def placeOf (o : Objective) (x : Float) : Int :=
  if x.isNaN then 0
  else
    match o with
    | .minimize => Number.totalKey x
    | .maximize => -Number.totalKey x

lemma compareValues_eq (o : Objective) :
    o.compareValues = compareLex (compareOn Float.isNaN) (compareOn o.placeOf) := by
  have numberFirst : Ord.compare false true = .lt := rfl
  have nanLast : Ord.compare true false = .gt := rfl
  funext a b
  unfold compareValues compareLex compareOn placeOf Number.compareTotal
  cases a.isNaN <;> cases b.isNaN <;> cases o <;> simp [Number.compare_neg, numberFirst, nanLast]

instance (o : Objective) : Std.TransCmp o.compareValues := by
  rw [compareValues_eq]
  infer_instance

instance (o : Objective) : Std.TransCmp o.compare :=
  have : Std.TransCmp fun a b : Float × Nat => o.compareValues a.1 b.1 := transCmp_on Prod.fst
  inferInstanceAs (Std.TransCmp (compareLex (fun a b : Float × Nat => o.compareValues a.1 b.1)
    (compareOn Prod.snd)))

/-- **A numerically better value comes first.** -/
theorem compareValues_of_better (h : o.Better a b) : o.compareValues a b = .lt := by
  unfold Better at h
  cases o with
  | minimize =>
    obtain ⟨ha, hb⟩ := Number.not_isNaN_of_lt h
    simp only [compareValues, ha, hb]
    exact Number.compareTotal_of_lt h
  | maximize =>
    obtain ⟨hb, ha⟩ := Number.not_isNaN_of_lt h
    simp only [compareValues, ha, hb]
    exact Number.compareTotal_of_lt h

/-- **Every number comes before NaN.** -/
theorem compareValues_of_isNaN (ha : a.isNaN = false) (hb : b.isNaN = true) :
    o.compareValues a b = .lt := by
  simp only [compareValues, ha, hb]

/-! ### What coming first means -/

/-- **What it means that a candidate comes first.**  The other one is not numerically better, it is
NaN if the first one is, and it stands further behind if the values are held equal. -/
theorem of_compare_eq_lt {i j : Nat} (h : o.compare (a, i) (b, j) = .lt) :
    ¬ o.Better b a ∧ (a.isNaN = true → b.isNaN = true) ∧ (o.compareValues a b = .eq → i < j) := by
  refine ⟨fun better => ?_, fun ha => ?_, fun same => ?_⟩
  · have swapped := Std.OrientedCmp.gt_of_lt (compareValues_of_better better)
    simp [compare, swapped] at h
  · cases hb : b.isNaN with
    | true => rfl
    | false =>
      have swapped := Std.OrientedCmp.gt_of_lt (compareValues_of_isNaN (o := o) hb ha)
      simp [compare, swapped] at h
  · simpa [compare, same, Nat.compare_eq_lt] using h

end Objective

end Autotune
