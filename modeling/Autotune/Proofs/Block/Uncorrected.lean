import Autotune.Proofs.Block.Sound
import Autotune.Proofs.Feedback.Corrections

/-!
# Ranks that corrections do not reach

A formula is read in two ways: as predicted, when a rank or new knowledge is checked, and under
corrections, when a point is chosen.  Where no correction is for a metric that the formula reads
(`Formula.Uncorrected`), the two agree on the value (`Formula.valueCorrected_eq_value`) and on
whether there is one (`Formula.isDefined_eq`), and the check is the same question asked of every
point (`Formula.validatePoints_eq_ok`).

`Block.defined_of_uncorrected`: so in every run the rank of a state that fits the knowledge stays
defined on all of it, whatever the adaptors of other metrics have learned, and no selection is
degraded for the lack of a rank.
-/

namespace Autotune

variable {kn mn : Nat} {corrections : Corrections}

namespace Selector

variable {s : Selector}

lemma readCorrected_eq_read (kept : s.segment = .metrics → corrections.get? s.index = none)
    (p : OperatingPoint kn mn) : s.readCorrected p corrections = s.read p := by
  unfold readCorrected
  split
  case h_1 => rfl
  case h_2 metrics =>
    rw [read, metrics]
    cases p.field .metrics s.index with
    | error fault => rfl
    | ok reading =>
      dsimp only
      rw [Corrections.correct_of_get?_eq_none (kept metrics)]
      rfl

end Selector

namespace Formula

variable {f : Formula}

section

variable {c c' : Corrections} {p q : OperatingPoint kn mn}

lemma valueCorrected_congr
    (reads : ∀ t ∈ f.terms, t.selector.readCorrected p c = t.selector.readCorrected q c') :
    f.valueCorrected p c = f.valueCorrected q c' := by
  unfold valueCorrected
  congr 1
  refine List.map_congr_left fun t ht => ?_
  rw [reads t ht]

lemma isDefined_congr
    (reads : ∀ t ∈ f.terms, t.selector.readCorrected p c = t.selector.readCorrected q c') :
    f.isDefined p c = f.isDefined q c' := by
  unfold isDefined
  cases f.composer with
  | simple => rfl
  | linear => rfl
  | geometric =>
    rw [Bool.eq_iff_iff, List.all_eq_true, List.all_eq_true]
    refine forall₂_congr fun t ht => ?_
    rw [reads t ht]

end

/-- The formula has a term on the metric. -/
def ReadsMetric (f : Formula) (metric : Nat) : Prop :=
  ∃ t ∈ f.terms, t.selector.segment = .metrics ∧ t.selector.index = metric

instance {metric : Nat} : Decidable (f.ReadsMetric metric) :=
  inferInstanceAs (Decidable (∃ t ∈ f.terms, t.selector.segment = .metrics ∧
    t.selector.index = metric))

/-- No metric that the formula reads has a correction. -/
def Uncorrected (f : Formula) (corrections : Corrections) : Prop :=
  ∀ metric, f.ReadsMetric metric → corrections.get? metric = none

lemma uncorrected_none (f : Formula) : f.Uncorrected .none := fun _ _ => rfl

lemma Uncorrected.readCorrected (h : f.Uncorrected corrections) {t : Term} (ht : t ∈ f.terms)
    (p : OperatingPoint kn mn) : t.selector.readCorrected p corrections = t.selector.read p :=
  Selector.readCorrected_eq_read (fun metrics => h _ ⟨t, ht, metrics, rfl⟩) p

/-- **A formula that corrections do not reach has its predicted value.** -/
theorem valueCorrected_eq_value (h : f.Uncorrected corrections) (p : OperatingPoint kn mn) :
    f.valueCorrected p corrections = f.value p := by
  unfold valueCorrected value
  congr 1
  refine List.map_congr_left fun t ht => ?_
  rw [h.readCorrected ht]

theorem isDefined_eq (h : f.Uncorrected corrections) (p : OperatingPoint kn mn) :
    f.isDefined p corrections = f.isDefined p .none := by
  refine isDefined_congr fun t ht => ?_
  rw [h.readCorrected ht, (uncorrected_none f).readCorrected ht]

lemma validate_term_eq_ok {t : Term} {p : OperatingPoint kn mn} :
    Term.validate t p = .ok ⟨⟩ ↔ undefinedPower (t.selector.read p) t.coefficient = false := by
  unfold Term.validate
  by_cases undefined : undefinedPower (t.selector.read p) t.coefficient = true
  · simp [undefined]
  · simp [undefined]

/-- **A formula is accepted on points exactly when it is defined on each as predicted.** -/
theorem validatePoints_eq_ok {points : List (OperatingPoint kn mn)} :
    f.validatePoints points = .ok ⟨⟩ ↔ ∀ p ∈ points, f.isDefined p .none = true := by
  unfold validatePoints isDefined
  cases f.composer with
  | simple => simp
  | linear => simp
  | geometric =>
    simp only [forM_eq_ok, validate_term_eq_ok, List.all_eq_true, Bool.not_eq_true']
    constructor
    · intro accepted p hp t ht
      rw [(uncorrected_none f).readCorrected ht]
      exact accepted p hp t ht
    · intro defined p hp t ht
      rw [← (uncorrected_none f).readCorrected ht]
      exact defined p hp t ht

end Formula

namespace State

variable {s : State} {k : Knowledge kn mn}

lemma fallback_status {first : Candidate kn mn} {others : List (Candidate kn mn)}
    (running : Option String) (version : Nat)
    (defined : ∀ c ∈ first :: others, c.defined = true) :
    ∃ violation, (s.fallback running version first others).status =
      .degraded (.emptyEligibleSet violation) := by
  have known := defined (leastOf s.compareViolating first others) leastOf_mem
  exact ⟨_, congrArg SelectionStatus.degraded (if_pos known)⟩

/-- Where every point has a rank, no selection is degraded for the lack of one. -/
theorem status_of_defined (running : Option String)
    (defined : ∀ p ∈ k.points, s.rank.isDefined p corrections = true) :
    (s.select k corrections running).status = .optimal ∨
      ∃ violation, (s.select k corrections running).status =
        .degraded (.emptyEligibleSet violation) := by
  by_cases eligible : ∃ p ∈ k.points, s.Eligible corrections running p
  · obtain ⟨i, p, -, selected⟩ := select_eq_bestSelection eligible
    have complete : s.undefinedCount corrections running k.points = 0 := by
      refine List.countP_eq_zero.mpr fun q hq => ?_
      simp [defined q hq]
    rw [selected, bestSelection, if_pos complete]
    exact .inl rfl
  · have none : ∀ p ∈ k.points, ¬ s.Eligible corrections running p :=
      fun p hp h => eligible ⟨p, hp, h⟩
    rw [select_eq_fallback none]
    refine .inr (fallback_status running k.version fun c hc => ?_)
    rw [candidates_eq_cons] at hc
    obtain ⟨i, p, hp, rfl⟩ := mem_candidates.mp hc
    exact defined p (List.mem_of_getElem? hp)

end State

namespace Block

variable {b : Block kn mn}

lemma uncorrected_of_adaptors {f : Formula}
    (elsewhere : ∀ a ∈ b.adaptors.items, ¬ f.ReadsMetric a.metric) :
    f.Uncorrected b.adaptors.corrections := by
  intro metric reads
  rw [Adaptors.get?_corrections, Option.map_eq_none_iff, Option.eq_none_iff_forall_ne_some]
  intro a found
  obtain ⟨ha, rfl⟩ := Roster.get?_eq_some_iff.mp found
  exact elsewhere a ha reads

/-- **Adaptors on other metrics never cost a block its rank.**  If no adaptor is on a metric that the
active rank reads, then in every run that rank is defined on all that is known and has its predicted
value there, and no selection is degraded for the lack of a rank. -/
theorem defined_of_uncorrected (h : b.Reachable)
    (elsewhere : ∀ a ∈ b.adaptors.items, ¬ b.activeState.rank.formula.ReadsMetric a.metric) :
    (∀ p ∈ b.knowledge.points,
        b.activeState.rank.isDefined p b.adaptors.corrections = true ∧
          b.activeState.rank.valueCorrected p b.adaptors.corrections =
            b.activeState.rank.value p) ∧
      ∀ excluded, b.select.value.1.status ≠ .degraded (.undefinedRank excluded) := by
  have sound := h.sound
  have uncorrected := uncorrected_of_adaptors elsewhere
  have fits := sound.fits_of_get? sound.get?_active
  have accepted := Formula.validatePoints_eq_ok.mp (State.validate_eq_ok.mp fits).2
  have defined : ∀ p ∈ b.knowledge.points,
      b.activeState.rank.isDefined p b.adaptors.corrections = true := by
    intro p hp
    rw [Rank.isDefined, Formula.isDefined_eq uncorrected]
    exact accepted p hp
  refine ⟨fun p hp => ⟨defined p hp, Formula.valueCorrected_eq_value uncorrected p⟩, ?_⟩
  intro excluded lacking
  have status : b.select.value.1.status =
      (b.activeState.select b.knowledge b.adaptors.corrections
        (b.running.map OperatingPoint.id)).status := rfl
  rw [status] at lacking
  obtain optimal | ⟨violation, degraded⟩ := State.status_of_defined
    (b.running.map OperatingPoint.id) defined
  · rw [optimal] at lacking
    cases lacking
  · rw [degraded] at lacking
    cases lacking

/-- A block that divides by its knob and has an adaptor on its metric. -/
def reciprocalBuilder : Builder 1 1 :=
  { sampleBuilder with
    states := [.ofRank "sample" ⟨.minimize, ⟨.geometric, [⟨.averageOf .knobs 0, -1⟩]⟩⟩] }

/-- An adaptor that divides every metric by four does not disturb a rank on the knob. -/
theorem defined_of_uncorrected_sample :
    ∃ built, reciprocalBuilder.build = .ok built ∧
      let b := built.value.after [.restore [(0, 4)]]
      b.Reachable ∧ (b.adaptors.corrections.correct 0 20 == 5) = true ∧
        (∀ a ∈ b.adaptors.items, ¬ b.activeState.rank.formula.ReadsMetric a.metric) ∧
        ∀ excluded, b.select.value.1.status ≠ .degraded (.undefinedRank excluded) := by
  have learned : (match (reciprocalBuilder.build).map Logged.value with
      | .ok built =>
        let b := built.after [.restore [(0, 4)]]
        (b.adaptors.corrections.correct 0 20 == 5) &&
          decide (∀ a ∈ b.adaptors.items, ¬ b.activeState.rank.formula.ReadsMetric a.metric)
      | .error _ => false) = true := by decide +kernel
  cases accepted : reciprocalBuilder.build with
  | error fault =>
    rw [accepted] at learned
    cases learned
  | ok built =>
    rw [accepted] at learned
    obtain ⟨corrected, elsewhere⟩ := Bool.and_eq_true_iff.mp learned
    have reachable : (built.value.after [.restore [(0, 4)]]).Reachable :=
      ⟨reciprocalBuilder, built, _, accepted, rfl⟩
    have elsewhere := of_decide_eq_true elsewhere
    obtain ⟨-, status⟩ := defined_of_uncorrected reachable elsewhere
    exact ⟨built, rfl, reachable, corrected, elsewhere, status⟩

end Block

end Autotune
