import Autotune.Journal.Telemetry
import Autotune.Proofs.Feedback.Corrections
import Mathlib.Data.List.Perm.Basic

/-!
# Visiting adaptors in any order

The adaptors of a block are filed by metric, and neither an evaluation nor the table of corrections
asks for an order in which to visit them.  `Adaptors.evaluateIn` and `Adaptors.correctionsIn` visit
the metrics of a list: each adaptor is looked up, takes its step and is filed again, while the count
and the table grow.

* `Adaptors.foldl_visit`: after any metrics have been visited, each once, exactly their adaptors
  have taken their steps, and the count and the events are those of these steps;
* `Adaptors.evaluateIn_of_perm`: so every order of all metrics ends with the same adaptors and the
  same count, and the events differ in their order only, which no counter sees
  (`Telemetry.count_of_perm`);
* `Adaptors.correctionsIn_of_perm`: every order yields the same table of corrections, although the
  table grows on demand.
-/

namespace Autotune

variable {kn mn : Nat}

/-! ### Counting -/

lemma Counters.count_comm (c : Counters) (e e' : Event) :
    (c.count e).count e' = (c.count e').count e := by
  have degradation (d : Degradation) (e : Event) (block : String) :
      (c.count (.degraded block d)).count e = (c.count e).count (.degraded block d) := by
    cases d <;> cases e with
    | degraded block d => cases d <;> rfl
    | _ => rfl
  cases e with
  | degraded block d => exact degradation d e' block
  | _ =>
    cases e' with
    | degraded block d => exact (degradation d _ block).symm
    | _ => rfl

/-- **No counter sees the order of events.** -/
theorem Telemetry.count_of_perm {events events' : List Event} (perm : events.Perm events')
    (t : Telemetry) : t.count events = t.count events' := by
  have counters : events.foldl Counters.count t.counters =
      events'.foldl Counters.count t.counters :=
    perm.foldl_eq' (fun e _ e' _ c => c.count_comm e e') _
  rw [count, counters, count]

namespace Adaptors

variable {as : Adaptors} {order : List Nat} {block : String} {bank : Bank}
  {p : OperatingPoint kn mn}

/-- The metrics that have adaptors. -/
def metrics (as : Adaptors) : List Nat := as.items.map Adaptor.metric

lemma filterMap_metrics (as : Adaptors) : as.metrics.filterMap as.get? = as.items :=
  as.filterMap_get?_keys

lemma nodup_of_perm (perm : order.Perm as.metrics) : order.Nodup :=
  perm.nodup_iff.mpr as.nodup_keys

/-! ### Evaluations -/

/-- Goes on to the adaptor of a metric.  It compares its monitor with the prediction of the running
point, is filed again, and counts if it had something to compare. -/
def visit (block : String) (bank : Bank) (p : OperatingPoint kn mn)
    (done : Logged (Nat × Adaptors)) (metric : Nat) : Logged (Nat × Adaptors) :=
  match done.value.2.get? metric with
  | some a =>
    done.andThen fun (count, as) =>
      (evaluateAt block bank p a).map fun (compared, next) =>
        (count + compared.toNat, as.insert next)
  | none => done

/-- An evaluation that visits the given metrics, one after the other. -/
def evaluateIn (as : Adaptors) (order : List Nat) (block : String) (bank : Bank)
    (p : OperatingPoint kn mn) : Logged (Nat × Adaptors) :=
  order.foldl (visit block bank p) (.quiet (0, as))

/-- The adaptor after its step. -/
def stepped (block : String) (bank : Bank) (p : OperatingPoint kn mn) (a : Adaptor) : Adaptor :=
  (evaluateAt block bank p a).value.2

lemma key_stepped (a : Adaptor) : Keyed.key (stepped block bank p a) = Keyed.key a :=
  evaluateAt_metric block bank p a

/-- The adaptor after the given metrics have been visited. -/
def visited (order : List Nat) (block : String) (bank : Bank) (p : OperatingPoint kn mn)
    (a : Adaptor) : Adaptor :=
  if a.metric ∈ order then stepped block bank p a else a

lemma key_visited (a : Adaptor) : Keyed.key (visited order block bank p a) = Keyed.key a := by
  unfold visited
  split
  · exact key_stepped a
  · rfl

/-- The adaptors after the given metrics have been visited. -/
def afterVisits (as : Adaptors) (order : List Nat) (block : String) (bank : Bank)
    (p : OperatingPoint kn mn) : Adaptors :=
  as.map (visited order block bank p) key_visited

lemma afterVisits_nil (as : Adaptors) : as.afterVisits [] block bank p = as :=
  Roster.map_of_fixed fun _ _ => if_neg List.not_mem_nil

lemma afterVisits_of_mem (all : ∀ a ∈ as.items, a.metric ∈ order) :
    as.afterVisits order block bank p = as.map (stepped block bank p) key_stepped :=
  Roster.map_congr fun a ha => if_pos (all a ha)

lemma visited_cons_of_ne {a : Adaptor} {metric : Nat} (other : a.metric ≠ metric) :
    visited (metric :: order) block bank p a = visited order block bank p a :=
  if_congr (List.mem_cons.trans (or_iff_right other)) rfl rfl

lemma afterVisits_of_get?_eq_none {metric : Nat} (missing : as.get? metric = none) :
    as.afterVisits (metric :: order) block bank p = as.afterVisits order block bank p := by
  refine Roster.map_congr fun a ha => visited_cons_of_ne fun here => ?_
  rw [Roster.get?_eq_some_iff.mpr ⟨ha, here⟩] at missing
  cases missing

/-- An adaptor that has taken its step is left alone until its metric comes up again. -/
lemma afterVisits_insert {a : Adaptor} {metric : Nat} (found : as.get? metric = some a)
    (new : metric ∉ order) :
    afterVisits (as.insert (stepped block bank p a)) order block bank p =
      as.afterVisits (metric :: order) block bank p := by
  have filed : as.insert (stepped block bank p a) =
      as.modify metric (stepped block bank p) key_stepped := Roster.insert_of_get? found
  rw [filed, Roster.modify, afterVisits, Roster.map_map]
  refine Roster.map_congr fun d _ => ?_
  dsimp only [Function.comp]
  by_cases here : Keyed.key d = metric
  · have same : Keyed.key (stepped block bank p d) = metric := (key_stepped d).trans here
    have gone : (stepped block bank p d).metric ∉ order := by
      rw [← same] at new
      exact new
    have met : d.metric ∈ metric :: order := List.mem_cons.mpr (.inl here)
    rw [if_pos here, visited, if_neg gone, visited, if_pos met]
  · rw [if_neg here, visited_cons_of_ne here]

/-- **Visits of different metrics do not disturb each other.** -/
lemma foldl_visit (once : order.Nodup) (count : Nat) (as : Adaptors) (events : List Event) :
    order.foldl (visit block bank p) ⟨(count, as), events⟩ =
      ⟨(count + (order.filterMap as.get?).countP fun a => (evaluateAt block bank p a).value.1,
          as.afterVisits order block bank p),
        events ++
          (order.filterMap as.get?).flatMap fun a => (evaluateAt block bank p a).events⟩ := by
  induction order generalizing count as events with
  | nil => simp [afterVisits_nil]
  | cons metric rest ih =>
    obtain ⟨new, once⟩ := List.nodup_cons.mp once
    cases found : as.get? metric with
    | none =>
      have passed : visit block bank p ⟨(count, as), events⟩ metric = ⟨(count, as), events⟩ := by
        simp only [visit, found]
      rw [List.foldl_cons, passed, ih once, List.filterMap_cons_none found,
        afterVisits_of_get?_eq_none found]
    | some a =>
      have step : visit block bank p ⟨(count, as), events⟩ metric =
          ⟨(count + (evaluateAt block bank p a).value.1.toNat, as.insert (stepped block bank p a)),
            events ++ (evaluateAt block bank p a).events⟩ := by
        simp only [visit, found]
        rfl
      -- the adaptors that are yet to be met are the ones that were there before
      have others : rest.filterMap (Roster.get? (as.insert (stepped block bank p a))) =
          rest.filterMap as.get? := by
        refine List.filterMap_congr fun m hm => ?_
        rw [Roster.get?_insert, if_neg]
        rw [key_stepped]
        rintro rfl
        exact new ((Roster.get?_eq_some_iff.mp found).2 ▸ hm)
      rw [List.foldl_cons, step, ih once, others, afterVisits_insert found new,
        List.filterMap_cons_some found, List.countP_cons, List.flatMap_cons, List.append_assoc]
      cases (evaluateAt block bank p a).value.1 <;> simp [Nat.add_assoc, Nat.add_comm]

/-- An evaluation that visits the metrics as they are filed is the one that blocks make. -/
theorem evaluateIn_metrics (as : Adaptors) (block : String) (bank : Bank)
    (p : OperatingPoint kn mn) :
    as.evaluateIn as.metrics block bank p = as.evaluate block bank p := by
  have all : ∀ a ∈ as.items, a.metric ∈ as.metrics := fun a ha => List.mem_map_of_mem ha
  have events (items : List Adaptor) : (Logged.each (evaluateAt block bank p) items).events =
      items.flatMap fun a => (evaluateAt block bank p a).events := by
    induction items with
    | nil => rfl
    | cons a rest ih =>
      rw [List.flatMap_cons, ← ih]
      rfl
  rw [evaluateIn, Logged.quiet, foldl_visit (nodup_of_perm (.refl _)), filterMap_metrics,
    afterVisits_of_mem all, ← events, evaluate, Logged.map, Roster.each_value]
  simp only [List.countP_map, Nat.zero_add, List.nil_append]
  rfl

/-- **Evaluations that visit all metrics in different orders agree** on the adaptors and on the
count, and announce the same events in different orders. -/
theorem evaluateIn_of_perm {order' : List Nat} (perm : order.Perm as.metrics)
    (perm' : order'.Perm as.metrics) :
    (as.evaluateIn order block bank p).value = (as.evaluateIn order' block bank p).value ∧
      (as.evaluateIn order block bank p).events.Perm
        (as.evaluateIn order' block bank p).events := by
  have all {l : List Nat} (perm : l.Perm as.metrics) : ∀ a ∈ as.items, a.metric ∈ l :=
    fun a ha => perm.mem_iff.mpr (List.mem_map_of_mem ha)
  have met : (order.filterMap as.get?).Perm (order'.filterMap as.get?) :=
    (Roster.perm_filterMap_get? perm).trans (Roster.perm_filterMap_get? perm').symm
  rw [evaluateIn, evaluateIn, Logged.quiet, foldl_visit (nodup_of_perm perm),
    foldl_visit (nodup_of_perm perm'), afterVisits_of_mem (all perm),
    afterVisits_of_mem (all perm'), met.countP_eq]
  exact ⟨rfl, (met.flatMap_right _).append_left []⟩

/-! ### Corrections -/

/-- The table that grows while the given metrics are visited. -/
def correctionsIn (as : Adaptors) (order : List Nat) : Corrections :=
  order.foldl
    (fun c metric =>
      match as.get? metric with
      | some a => c.set a.metric a.correction
      | none => c) .none

lemma correctionsIn_eq (as : Adaptors) (order : List Nat) :
    as.correctionsIn order =
      (order.filterMap as.get?).foldl (fun c a => c.set a.metric a.correction) .none := by
  rw [List.foldl_filterMap, correctionsIn]
  congr 1
  funext c metric
  cases as.get? metric <;> rfl

theorem correctionsIn_metrics (as : Adaptors) : as.correctionsIn as.metrics = as.corrections := by
  rw [correctionsIn_eq, filterMap_metrics, corrections]

/-- **Every order of visiting yields the same table of corrections.** -/
theorem correctionsIn_of_perm {order' : List Nat} (perm : order.Perm order') :
    as.correctionsIn order = as.correctionsIn order' := by
  rw [correctionsIn_eq, correctionsIn_eq]
  refine (perm.filterMap _).foldl_eq' (fun a ha d hd c => ?_) _
  by_cases same : a.metric = d.metric
  · have filed {b : Adaptor} (hb : b ∈ order.filterMap as.get?) : b ∈ as.items := by
      obtain ⟨metric, -, found⟩ := List.mem_filterMap.mp hb
      exact (Roster.get?_eq_some_iff.mp found).1
    rw [Roster.eq_of_key_eq (filed ha) (filed hd) same]
  · exact Corrections.set_comm same

/-- **A prediction is corrected by the adaptor of its metric**, and stays as it is without one. -/
theorem correct_corrections (as : Adaptors) (metric : Nat) (predicted : Float) :
    as.corrections.correct metric predicted =
      match as.get? metric with
      | some a => a.correct predicted
      | none => predicted := by
  rw [Corrections.correct, get?_corrections]
  cases as.get? metric <;> rfl

end Adaptors

end Autotune
