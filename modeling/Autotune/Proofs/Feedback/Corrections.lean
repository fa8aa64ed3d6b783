import Autotune.Feedback.Adaptors
import Autotune.Proofs.Roster

/-!
# The table of corrections

Setting the correction of one metric leaves the others alone (`Corrections.get?_set`), so the table
that the adaptors yield holds for each metric what the adaptor of that metric has learned, and
nothing for a metric without an adaptor (`Adaptors.get?_corrections`).
-/

namespace Autotune

namespace Corrections

variable {c : Corrections} {correction : Correction} {metric n : Nat}

@[simp] lemma get?_none : none.get? n = Option.none := rfl

/-- The table after one correction was set has room for the metrics up to that one.  What was added
for the others says nothing. -/
lemma getElem?_set :
    (c.set metric correction).entries[n]? =
      if n = metric then some (some correction)
      else if n < metric then some (c.get? n) else c.entries[n]? := by
  obtain ⟨entries⟩ := c
  have room : metric < (entries ++ List.replicate (metric + 1 - entries.length)
      (Option.none : Option Correction)).length := by
    rw [List.length_append, List.length_replicate]
    omega
  by_cases here : n = metric
  · subst here
    rw [if_pos rfl]
    exact List.getElem?_set_self room
  · rw [if_neg here, set, List.getElem?_set_ne (Ne.symm here), get?]
    by_cases inside : n < entries.length
    · rw [List.getElem?_append_left inside, List.getElem?_eq_getElem inside, Option.join_some,
        ite_self]
    · have outside : entries.length ≤ n := by omega
      rw [List.getElem?_append_right outside, List.getElem?_replicate,
        List.getElem?_eq_none outside, Option.join_none]
      refine if_congr ?_ rfl rfl
      dsimp only
      omega

/-- **Setting one correction replaces that one only.** -/
theorem get?_set :
    (c.set metric correction).get? n = if n = metric then some correction else c.get? n := by
  rw [get?, getElem?_set]
  by_cases here : n = metric
  · rw [if_pos here, if_pos here, Option.join_some]
  · rw [if_neg here, if_neg here]
    by_cases before : n < metric
    · rw [if_pos before, Option.join_some]
    · rw [if_neg before, get?]

/-- **Corrections of different metrics may be set in either order**, although the table grows as they
are set. -/
theorem set_comm {m : Nat} {other : Correction} (apart : metric ≠ m) :
    (c.set metric correction).set m other = (c.set m other).set metric correction := by
  have entries : ((c.set metric correction).set m other).entries =
      ((c.set m other).set metric correction).entries := by
    refine List.ext_getElem? fun i => ?_
    simp only [getElem?_set, get?_set]
    -- what is left is where `i` lies with respect to the two metrics
    grind
  exact congrArg Corrections.mk entries

lemma correct_of_get?_eq_none {predicted : Float} (h : c.get? n = Option.none) :
    c.correct n predicted = predicted := by
  rw [correct, h]

end Corrections

namespace Adaptors

variable {as : Adaptors} {n : Nat}

lemma get?_foldl_set {items : List Adaptor} (apart : items.Pairwise fun a d => a.metric ≠ d.metric)
    (c : Corrections) :
    (items.foldl (fun c a => c.set a.metric a.correction) c).get? n =
      ((items.find? fun a => a.metric = n).map Adaptor.correction).or (c.get? n) := by
  induction items generalizing c with
  | nil => rfl
  | cons a rest ih =>
    obtain ⟨other, apart⟩ := List.pairwise_cons.mp apart
    rw [List.foldl_cons, ih apart, Corrections.get?_set]
    by_cases here : n = a.metric
    · subst here
      have absent : (rest.find? fun d => d.metric = a.metric) = none := by
        refine List.find?_eq_none.mpr fun d hd same => other d hd ?_
        exact (of_decide_eq_true same).symm
      rw [absent, if_pos rfl, List.find?_cons_of_pos (by simp)]
      rfl
    · rw [if_neg here, List.find?_cons_of_neg (by simpa using Ne.symm here)]

/-- **The corrections hold what the adaptor of each metric has learned, and nothing else.** -/
theorem get?_corrections : as.corrections.get? n = (as.get? n).map Adaptor.correction := by
  have apart : as.items.Pairwise fun a d => a.metric ≠ d.metric :=
    as.ascending.imp fun less => Nat.ne_of_lt less
  rw [corrections, get?_foldl_set apart, Corrections.get?_none, Option.or_none]
  rfl

end Adaptors

end Autotune
