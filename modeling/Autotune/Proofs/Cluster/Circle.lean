import Autotune.Proofs.Cluster.Contest

/-!
# Contests that run in a circle

Under the normalized distance, how far a cluster is from the input depends on the cluster that it is
compared with.  Of two clusters at most one is better than the other (`Clusters.prefers_asymm`), but
of three each may be better than the next, or no worse.  The cluster that leads in the end may then
give way to one that was passed before (`Clusters.exists_better_cluster`).

* `Circle`: two clusters of which the second is better, although there is a way from the second to
  the first along which no cluster is worse than the one before;
* `Clusters.circle_of_better`: after any commands, a cluster that is better than the selected one
  forms such a circle with it, is older, and may serve the input just when the selected one may.  So
  there are at least three clusters.
-/

namespace Autotune

open Operation Relation

/-! ### Circles -/

section

variable {α : Type} {givesWay : α → α → Bool} {all : List α} {a b : α} {i j : Nat}

/-- An element gives way to another one, and from that one, or from one that does not give way to
it, the lead was lost to the first along a chain. -/
structure Circle (givesWay : α → α → Bool) (all : List α) (a b : α) : Prop where
  closes : Loses givesWay all a b
  chain : ∃ c, (c = b ∨ givesWay c b = false) ∧ TransGen (Loses givesWay all) c a

variable (asymm : ∀ a ∈ all, ∀ b ∈ all, givesWay a b = true → givesWay b a = false)

include asymm

lemma ne_of_loses (loses : Loses givesWay all a b) : a ≠ b := by
  rintro rfl
  obtain ⟨here, -, gives⟩ := loses
  have not := asymm a here a here gives
  rw [gives] at not
  cases not

lemma Circle.exists_third (h : Circle givesWay all a b) : ∃ c ∈ all, c ≠ a ∧ c ≠ b := by
  obtain ⟨ha, hb, gives⟩ := h.closes
  obtain ⟨c, passed, chain⟩ := h.chain
  by_cases same : c = b
  · subst same
    obtain ⟨d, loses, -⟩ := TransGen.head'_iff.mp chain
    refine ⟨d, loses.2.1, ?_, (ne_of_loses asymm loses).symm⟩
    -- the way back is not the way there
    rintro rfl
    have not := asymm d ha c hb gives
    rw [loses.2.2] at not
    cases not
  · obtain rfl | keeps := passed
    · exact absurd rfl same
    · refine ⟨c, Leads.mem_of_loses chain, ?_, same⟩
      rintro rfl
      rw [gives] at keeps
      cases keeps

lemma Circle.length (h : Circle givesWay all a b) : 3 ≤ all.length := by
  obtain ⟨c, hc, first, second⟩ := h.exists_third asymm
  have apart : a ≠ b := ne_of_loses asymm h.closes
  have distinct : [a, b, c].Nodup := by simp [apart, first.symm, second.symm]
  have members : [a, b, c] ⊆ all := by
    obtain ⟨ha, hb, -⟩ := h.closes
    simp [ha, hb, hc]
  exact (distinct.subperm members).length_le

/-- **Whoever is better than the leader came earlier and is in a circle with it.** -/
theorem Leads.circle (h : Leads givesWay all i a) (found : all[j]? = some b)
    (gives : givesWay a b = true) : j < i ∧ Circle givesWay all a b := by
  have closes : Loses givesWay all a b :=
    ⟨List.mem_of_getElem? h.here, List.mem_of_getElem? found, gives⟩
  have before : j < i := by
    obtain earlier | rfl | later := Nat.lt_trichotomy j i
    · exact earlier
    · have same : a = b := Option.some_inj.mp (h.here.symm.trans found)
      exact absurd same (ne_of_loses asymm closes)
    · have keeps := h.later j b later found
      rw [gives] at keeps
      cases keeps
  exact ⟨before, closes, h.earlier j b before found⟩

end

namespace Clusters

variable {kn mn fn : Nat} {cs : Clusters kn mn fn} {input f g : Vector Float fn}

/-! ### Which of two clusters is better -/

lemma admissible_of_prefers (better : cs.prefers input f g = true)
    (admitted : cs.admissible f input = true) : cs.admissible g input = true := by
  unfold prefers at better
  by_cases alike : cs.admissible f input = cs.admissible g input
  · rw [← alike, admitted]
  · simpa [alike] using better

lemma admissible_of_loses {all : List (Vector Float fn)}
    (lost : TransGen (Loses (cs.prefers input) all) f g) (admitted : cs.admissible f input = true) :
    cs.admissible g input = true := by
  induction lost with
  | single step => exact admissible_of_prefers step.2.2 admitted
  | tail _ step ih => exact admissible_of_prefers step.2.2 ih

/-- **Of two clusters at most one is better than the other.** -/
theorem prefers_asymm (finite : Finite input) (hf : Finite f) (hg : Finite g)
    (better : cs.prefers input f g = true) : cs.prefers input g f = false := by
  have numbers {v : Vector Float fn} (hv : Finite v) : ∀ x ∈ v.toList, x.isNaN = false :=
    fun x hx => isNaN_of_isFinite (hv x hx)
  have swap := measure_swap cs.distance (numbers finite) (numbers hf) (numbers hg)
  unfold prefers at better ⊢
  by_cases alike : cs.admissible f input = cs.admissible g input
  · simp only [alike, bne_self_eq_false, Bool.false_eq_true, if_false, decide_eq_true_eq] at better
    simp [alike, swap, Number.lt_asymm better]
  · cases hf : cs.admissible f input <;> cases hg : cs.admissible g input <;> simp_all

/-- In a circle both clusters may serve the input, or neither. -/
lemma admissible_of_circle {all : List (Vector Float fn)}
    (h : Circle (cs.prefers input) all f g) : cs.admissible g input = cs.admissible f input := by
  obtain ⟨⟨-, -, better⟩, c, passed, chain⟩ := h
  refine Bool.eq_iff_iff.mpr ⟨fun admitted => admissible_of_loses chain ?_,
    admissible_of_prefers better⟩
  obtain rfl | keeps := passed
  · exact admitted
  · unfold prefers at keeps
    by_cases alike : cs.admissible c input = cs.admissible g input
    · rw [alike, admitted]
    · simp only [admitted] at keeps
      simp_all

/-! ### Selecting -/

/-- **Only a circle keeps the best cluster from being selected.**  After any commands, a finite
input selects a cluster when there are any.  A cluster that is better than the selected one is an
older one, may serve the input just when the selected one may, and forms a circle with it, so that
there are at least three clusters. -/
theorem circle_of_better {kind : Command kn mn fn → Prop} (h : cs.Reachable kind)
    (finite : Finite input) (some : cs.entries ≠ []) :
    ∃ i c moved cs', (selectFor input).Yields cs moved cs' ∧ cs.SameRules cs' ∧
      cs'.selected = .some i ∧ cs.entries[i]? = .some c ∧
      ∀ j d, cs.entries[j]? = .some d → cs.prefers input c.features d.features = true →
        j < i ∧ cs.admissible d.features input = cs.admissible c.features input ∧
        Circle (cs.prefers input) cs.featureVectors c.features d.features ∧
        3 ≤ cs.entries.length := by
  obtain ⟨i, c, server, found, leads⟩ := exists_server some input
  obtain ⟨moved, cs', ok, rules, selected, -⟩ := exists_selected finite server
  have finites := h.filed.finite_featureVectors
  have asymm : ∀ f ∈ cs.featureVectors, ∀ g ∈ cs.featureVectors,
      cs.prefers input f g = true → cs.prefers input g f = false :=
    fun f hf g hg => prefers_asymm finite (finites f hf) (finites g hg)
  refine ⟨i, c, moved, cs', ok, rules, selected, found, fun j d there better => ?_⟩
  obtain ⟨before, circle⟩ := leads.circle asymm (getElem?_featureVectors there) better
  have three := circle.length asymm
  rw [featureVectors, List.length_map] at three
  exact ⟨before, admissible_of_circle circle, circle, three⟩

/-- The features of an input that has two. -/
def twoFeatures (x y : Float) : Vector Float 2 := #v[x, y]

/-- Three clusters around the origin. -/
def circlingClusters : Clusters 1 1 2 :=
  after ⟨Block.sampleBuilder, .replicate 2 .dontCare, .normalized, [], .empty, none⟩
    [.add (twoFeatures (-2) (-1)) Block.sampleBuilder.points,
      .add (twoFeatures 2 1) Block.sampleBuilder.points,
      .add (twoFeatures (-1) 2) Block.sampleBuilder.points]

lemma circlingClusters_reachable : circlingClusters.Reachable fun _ => True :=
  ⟨_, _, _, _, _, rfl, fun _ _ => trivial, rfl⟩

/-- The first two clusters are equally far from the origin, the third is closer than the first, and
the second is closer than the third.  So the third is selected, although the second is better than
it and no other is better than the second. -/
theorem exists_better_cluster :
    circlingClusters.Reachable (fun _ => True) ∧ circlingClusters.distance = .normalized ∧
      Finite (twoFeatures 0 0) ∧
      ∃ cs', (selectFor (twoFeatures 0 0)).Yields circlingClusters true cs' ∧
        cs'.current?.map Cluster.features = some (twoFeatures (-1) 2) ∧
        twoFeatures 2 1 ∈ cs'.featureVectors ∧
        cs'.prefers (twoFeatures 0 0) (twoFeatures (-1) 2) (twoFeatures 2 1) = true ∧
        ∀ f ∈ cs'.featureVectors, cs'.prefers (twoFeatures 0 0) (twoFeatures 2 1) f = false := by
  have finite : Finite (twoFeatures 0 0) := by decide +kernel
  have served : circlingClusters.server? (twoFeatures 0 0) = some 2 := by decide +kernel
  obtain ⟨moved, cs', ok, -, -, flag⟩ := exists_selected finite served
  have other : circlingClusters.selected ≠ some 2 := by decide +kernel
  obtain rfl : moved = true := flag.mpr other
  obtain rfl := ok.2
  exact ⟨circlingClusters_reachable, by decide +kernel, finite, _, ok, by decide +kernel,
    List.mem_of_getElem? (i := 1) (by decide +kernel), by decide +kernel, by decide +kernel⟩

/-- The better cluster is in a circle with the selected one. -/
theorem circle_of_better_sample :
    circlingClusters.Reachable (fun _ => True) ∧ Finite (twoFeatures 0 0) ∧
      circlingClusters.entries ≠ [] ∧
      ∃ moved cs', (selectFor (twoFeatures 0 0)).Yields circlingClusters moved cs' ∧
        cs'.selected = some 2 ∧
        circlingClusters.prefers (twoFeatures 0 0) (twoFeatures (-1) 2) (twoFeatures 2 1) = true ∧
        Circle (circlingClusters.prefers (twoFeatures 0 0)) circlingClusters.featureVectors
          (twoFeatures (-1) 2) (twoFeatures 2 1) := by
  have finite : Finite (twoFeatures 0 0) := by decide +kernel
  have features (i : Fin 3) : circlingClusters.entries[i.val]?.map Cluster.features =
      [twoFeatures (-2) (-1), twoFeatures 2 1, twoFeatures (-1) 2][i] := by
    revert i
    decide +kernel
  have third : ((selectFor (twoFeatures 0 0)).run circlingClusters).state.selected = some 2 := by
    decide +kernel
  have better : circlingClusters.prefers (twoFeatures 0 0) (twoFeatures (-1) 2)
      (twoFeatures 2 1) = true := by decide +kernel
  obtain ⟨d, there, second⟩ := Option.map_eq_some_iff.mp (features 1)
  have some : circlingClusters.entries ≠ [] := List.ne_nil_of_mem (List.mem_of_getElem? there)
  obtain ⟨i, c, moved, cs', ok, -, selected, found, circles⟩ :=
    circle_of_better circlingClusters_reachable finite some
  rw [ok.2, selected] at third
  cases third
  obtain ⟨e, here, last⟩ := Option.map_eq_some_iff.mp (features 2)
  obtain rfl : e = c := Option.some_inj.mp (here.symm.trans found)
  obtain ⟨-, -, circle, -⟩ := circles 1 d there (by rw [last, second]; exact better)
  rw [last, second] at circle
  exact ⟨circlingClusters_reachable, finite, some, moved, cs', ok, selected, better, circle⟩

end Clusters

end Autotune
