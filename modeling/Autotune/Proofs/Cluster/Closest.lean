import Autotune.Proofs.Cluster.Contest
import Mathlib.Data.Prod.Lex

/-!
# The closest admissible cluster

Under the plain distance every cluster has a distance to the input of its own, so the clusters can
be put in order: those that may serve the input come first, and among them the closer ones
(`Clusters.prefers_iff_order`).  The contest is then won by the first cluster of the least order.

* `Clusters.Closest`: what the cluster that serves an input is like;
* `Clusters.closest_of_reachable`: after any commands, selecting under the plain distance ends with
  that cluster, whichever was selected before, and selecting again changes nothing.
-/

namespace Autotune

open Operation Number

namespace Clusters

variable {kn mn fn : Nat} {cs : Clusters kn mn fn} {c : Cluster kn mn fn} {i : Nat}
  {input f g : Vector Float fn}

/-! ### Clusters that may serve an input -/

/-- Every feature of a cluster stands to that feature of the input as its comparison asks. -/
def Admits (cs : Clusters kn mn fn) (f input : Vector Float fn) : Prop :=
  ∀ k (h : k < fn), (cs.comparisons[k] = .lessOrEqual → f[k] ≤ input[k]) ∧
    (cs.comparisons[k] = .greaterOrEqual → input[k] ≤ f[k])

lemma admits_iff (comparison : FeatureComparison) (x y : Float) : comparison.admits x y = true ↔
    (comparison = .lessOrEqual → x ≤ y) ∧ (comparison = .greaterOrEqual → y ≤ x) := by
  cases comparison <;> simp [FeatureComparison.admits]

lemma admissible_iff : cs.admissible f input = true ↔ cs.Admits f input := by
  unfold admissible Admits
  rw [List.all_eq_true, List.forall_mem_iff_getElem]
  simp [admits_iff]

/-! ### The order of the clusters -/

/-- A cluster that may serve the input comes before one that may not, and then the closer one comes
first. -/
def order (cs : Clusters kn mn fn) (input f : Vector Float fn) : Bool ×ₗ Int :=
  toLex (!cs.admissible f input, level (squaredDistance input.toList f.toList))

lemma admissible_of_order_le (least : cs.order input f ≤ cs.order input g)
    (admitted : cs.admissible g input = true) : cs.admissible f input = true := by
  unfold order at least
  rw [Prod.Lex.toLex_le_toLex, admitted] at least
  cases mine : cs.admissible f input with
  | true => rfl
  | false => simp [mine, Bool.lt_iff] at least

/-- Among clusters that may serve the input, and among those that may not, closeness decides. -/
lemma order_lt_iff (finite : Finite input) (hf : Finite f) (hg : Finite g)
    (alike : cs.admissible f input = cs.admissible g input) :
    cs.order input f < cs.order input g ↔
      squaredDistance input.toList f.toList < squaredDistance input.toList g.toList := by
  unfold order
  rw [Prod.Lex.toLex_lt_toLex, alike,
    lt_iff_level (isNaN_squaredDistance finite hf) (isNaN_squaredDistance finite hg)]
  simp

/-- **Under the plain distance, a cluster gives way to those before it in the order.** -/
theorem prefers_iff_order (plain : cs.distance = .euclidean) (finite : Finite input)
    (hf : Finite f) (hg : Finite g) :
    cs.prefers input f g = true ↔ cs.order input g < cs.order input f := by
  unfold prefers
  rw [plain]
  by_cases alike : cs.admissible f input = cs.admissible g input
  · rw [order_lt_iff finite hg hf alike.symm, alike, bne_self_eq_false]
    exact decide_eq_true_iff
  · unfold order
    rw [Prod.Lex.toLex_lt_toLex]
    cases hf : cs.admissible f input <;> cases hg : cs.admissible g input <;>
      simp_all [Bool.lt_iff]

/-- The cluster at a place serves an input best. -/
structure Closest (cs : Clusters kn mn fn) (input : Vector Float fn) (i : Nat)
    (c : Cluster kn mn fn) : Prop where
  here : cs.entries[i]? = some c
  /-- It may serve the input if any cluster may. -/
  admits : (∃ d ∈ cs.entries, cs.Admits d.features input) → cs.Admits c.features input
  /-- None of the clusters like it is closer. -/
  closest : ∀ d ∈ cs.entries, (cs.Admits d.features input ↔ cs.Admits c.features input) →
    ¬ squaredDistance input.toList d.features.toList <
      squaredDistance input.toList c.features.toList
  /-- Those that were added before it are farther. -/
  first : ∀ j d, j < i → cs.entries[j]? = some d →
    (cs.Admits d.features input ↔ cs.Admits c.features input) →
    squaredDistance input.toList c.features.toList <
      squaredDistance input.toList d.features.toList

/-- **Who leads the contest serves best.** -/
theorem closest_of_leads (plain : cs.distance = .euclidean) (filed : cs.Filed)
    (finite : Finite input) (found : cs.entries[i]? = some c)
    (leads : Leads (cs.prefers input) cs.featureVectors i c.features) : cs.Closest input i c := by
  have finites := filed.finite_featureVectors
  have byOrder : ∀ f ∈ cs.featureVectors, ∀ g ∈ cs.featureVectors,
      cs.prefers input f g = true ↔ cs.order input g < cs.order input f :=
    fun f hf g hg => prefers_iff_order plain finite (finites f hf) (finites g hg)
  have hc : Finite c.features := filed.finite c (List.mem_of_getElem? found)
  have alike {d : Cluster kn mn fn}
      (same : cs.Admits d.features input ↔ cs.Admits c.features input) :
      cs.admissible d.features input = cs.admissible c.features input := by
    rw [Bool.eq_iff_iff, admissible_iff, admissible_iff]
    exact same
  have least {d : Cluster kn mn fn} (hd : d ∈ cs.entries) :
      cs.order input c.features ≤ cs.order input d.features :=
    leads.key_le byOrder (List.mem_map_of_mem hd)
  refine ⟨found, fun ⟨d, hd, admitted⟩ => ?_, fun d hd same less => ?_,
    fun j d before there same => ?_⟩
  · rw [← admissible_iff] at admitted ⊢
    exact admissible_of_order_le (least hd) admitted
  · have less := (order_lt_iff finite (filed.finite d hd) hc (alike same)).mpr less
    exact absurd less (not_lt_of_ge (least hd))
  · have later := leads.key_lt byOrder before (getElem?_featureVectors there)
    have hd : Finite d.features := filed.finite d (List.mem_of_getElem? there)
    exact (order_lt_iff finite hc hd (alike same).symm).mp later

/-! ### Selecting -/

lemma checkFeatures_of_not_finite (h : ¬ Finite input) :
    ∃ k, ∃ inside : k < fn, input[k].isFinite = false ∧
      (∀ j (_ : j < k), input[j].isFinite = true) ∧
      checkFeatures input.toList = .error (.invalidFeature k input[k]) := by
  have refused : checkFeatures input.toList ≠ .ok ⟨⟩ := mt checkFeatures_eq_ok.mp h
  unfold checkFeatures at refused ⊢
  cases found : input.toList.zipIdx.find? fun entry => !entry.1.isFinite with
  | none => simp [found] at refused
  | some entry =>
    obtain ⟨bad, k, bound, rfl, before⟩ := List.find?_eq_some_iff_getElem.mp found
    have inside : k < fn := by simpa using bound
    refine ⟨k, inside, by simpa using bad, fun j earlier => ?_, by simp⟩
    simpa using before j earlier

/-- **Selecting under the plain distance.**  After any commands, an input with a number that is not
finite is refused, and so is any input when there are no clusters; a refusal changes nothing.
Otherwise the cluster is selected that serves the input best.  Clusters with the same features that
are compared alike select the same one, so it does not matter which was selected before, and
selecting for the same input again changes nothing and says so. -/
theorem closest_of_reachable {kind : Command kn mn fn → Prop} (h : cs.Reachable kind)
    (plain : cs.distance = .euclidean) (input : Vector Float fn) :
    (¬ Finite input → ∃ k, ∃ inside : k < fn, input[k].isFinite = false ∧
      (∀ j (_ : j < k), input[j].isFinite = true) ∧
      (selectFor input).run cs = ⟨.error (.invalidFeature k input[k]), cs, []⟩) ∧
    (Finite input → cs.entries = [] →
      (selectFor input).run cs = ⟨.error .noCluster, cs, []⟩) ∧
    (Finite input → cs.entries ≠ [] → ∃ i c, cs.Closest input i c ∧
      (∀ other : Clusters kn mn fn, cs.SameRules other → ∃ moved other',
        (selectFor input).Yields other moved other' ∧ other'.selected = some i) ∧
      ∃ moved cs', (selectFor input).Yields cs moved cs' ∧ cs.SameRules cs' ∧
        cs'.selected = some i ∧ (moved = true ↔ cs.selected ≠ some i) ∧
        (selectFor input).run cs' = ⟨.ok false, cs', []⟩) := by
  refine ⟨fun notFinite => ?_, fun finite none => ?_, fun finite some => ?_⟩
  · obtain ⟨k, inside, bad, before, checked⟩ := checkFeatures_of_not_finite notFinite
    exact ⟨k, inside, bad, before, by rw [run_selectFor, checked]⟩
  · have server : cs.server? input = .none := by rw [server?, featureVectors, none, List.map_nil]
    rw [run_selectFor, checkFeatures_eq_ok.mpr finite, server]
  · obtain ⟨i, c, server, found, leads⟩ := exists_server some input
    have best := closest_of_leads plain h.filed finite found leads
    refine ⟨i, c, best, fun other same => ?_, ?_⟩
    · have server' : other.server? input = .some i := (same.server? input).trans server
      obtain ⟨moved, other', ok, -, selected, -⟩ := exists_selected finite server'
      exact ⟨moved, other', ok, selected⟩
    · obtain ⟨moved, cs', ok, rules, selected, flag⟩ := exists_selected finite server
      exact ⟨moved, cs', ok, rules, selected, flag, selectFor_again ok⟩

/-- Three clusters that serve inputs not smaller than they are. -/
def lowerClusters : Clusters 1 1 1 :=
  after ⟨Block.sampleBuilder, .replicate 1 .lessOrEqual, .euclidean, [], .empty, none⟩
    [.add (oneFeature 0) Block.sampleBuilder.points,
      .add (oneFeature 3) Block.sampleBuilder.points,
      .add (oneFeature 1) Block.sampleBuilder.points]

lemma lowerClusters_reachable : lowerClusters.Reachable fun _ => True :=
  ⟨_, _, _, _, _, rfl, fun _ _ => trivial, rfl⟩

/-- The cluster at three is as close to two as the one at one, and it comes earlier, but it may not
serve it. -/
theorem closest_of_reachable_sample :
    lowerClusters.Reachable (fun _ => True) ∧ lowerClusters.distance = .euclidean ∧
      Finite (oneFeature 2) ∧ lowerClusters.entries ≠ [] ∧ lowerClusters.selected = some 0 ∧
      ∃ c cs', lowerClusters.Closest (oneFeature 2) 2 c ∧
        (selectFor (oneFeature 2)).Yields lowerClusters true cs' ∧ cs'.selected = some 2 ∧
        (selectFor (oneFeature 2)).run cs' = ⟨.ok false, cs', []⟩ := by
  have plain : lowerClusters.distance = .euclidean := by decide +kernel
  have finite : Finite (oneFeature 2) := by decide +kernel
  have some : lowerClusters.entries ≠ [] := by
    have first : lowerClusters.entries.isEmpty = false := by decide +kernel
    simpa using first
  have selected : lowerClusters.selected = .some 0 := by decide +kernel
  have third : ((selectFor (oneFeature 2)).run lowerClusters).state.selected = .some 2 := by
    decide +kernel
  obtain ⟨-, -, served⟩ := closest_of_reachable lowerClusters_reachable plain (oneFeature 2)
  obtain ⟨i, c, best, -, moved, cs', ok, -, chosen, flag, again⟩ := served finite some
  rw [ok.2, chosen] at third
  cases third
  have moved : moved = true := flag.mpr (by rw [selected]; decide)
  exact ⟨lowerClusters_reachable, plain, finite, some, selected, c, cs', best, moved ▸ ok, chosen,
    again⟩

end Clusters

end Autotune
