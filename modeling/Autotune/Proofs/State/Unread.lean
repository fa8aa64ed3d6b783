import Autotune.Proofs.Block.Uncorrected

/-!
# Metrics that a state does not read

A selection sees the table of corrections through the selectors of the state only.  Two tables that
hold the same for every metric among them (`Corrections.AgreeOn`) may differ elsewhere in length, in
modes and in coefficients:

* `State.candidate_congr`: every point is the same candidate under both, that is, it is admitted or
  not, by how much it violates the constraints, whether its rank is defined and which one it is;
* `State.select_congr`: so what is chosen, with what is reported about it, is the same;
* `Adaptors.agreeOn_insert`: an adaptor on a metric that no selector reads makes no difference.

A selector on a knob reads what was predicted, under any corrections
(`Selector.readCorrected_knob`).
-/

namespace Autotune

variable {kn mn : Nat} {c c' : Corrections} {selectors : List Selector}

/-! ### Tables that agree -/

/-- Two tables agree on selectors when each metric among these has the same correction in both, or
none in either. -/
def Corrections.AgreeOn (c c' : Corrections) (selectors : List Selector) : Prop :=
  ∀ s ∈ selectors, s.segment = .metrics → c.get? s.index = c'.get? s.index

namespace Corrections.AgreeOn

lemma readCorrected (h : c.AgreeOn c' selectors) {s : Selector} (hs : s ∈ selectors)
    (p : OperatingPoint kn mn) : s.readCorrected p c = s.readCorrected p c' := by
  unfold Selector.readCorrected
  split
  case h_1 => rfl
  case h_2 metrics =>
    cases p.field .metrics s.index with
    | error fault => rfl
    | ok reading =>
      dsimp only
      rw [correct, correct, h s hs metrics]

end Corrections.AgreeOn

/-- **A selector on a knob reads what was predicted**, whatever the corrections are. -/
lemma Selector.readCorrected_knob {s : Selector} (knob : s.segment = .knobs)
    (p : OperatingPoint kn mn) (c : Corrections) : s.readCorrected p c = s.read p :=
  s.readCorrected_eq_read (fun metric => by rw [knob] at metric; cases metric) p

lemma Adaptors.agreeOn_insert {as : Adaptors} {a : Adaptor}
    (unread : ∀ s ∈ selectors, s.segment = .metrics → s.index ≠ a.metric) :
    (Adaptors.corrections (as.insert a)).AgreeOn as.corrections selectors := by
  intro s hs metrics
  have other : Keyed.key a ≠ s.index := (unread s hs metrics).symm
  rw [get?_corrections, get?_corrections, Roster.get?_insert, if_neg other]

/-! ### States -/

namespace State

variable {s : State}

lemma value_congr (h : c.AgreeOn c' s.selectors) {k : Constraint} (hk : k ∈ s.constraints.items)
    (p : OperatingPoint kn mn) : k.value p c = k.value p c' :=
  h.readCorrected (List.mem_append_right _ (List.mem_map_of_mem hk)) p

lemma admits_congr (h : c.AgreeOn c' s.selectors) (p : OperatingPoint kn mn) :
    s.admits p c = s.admits p c' := by
  unfold admits
  rw [Bool.eq_iff_iff, List.all_eq_true, List.all_eq_true]
  refine forall₂_congr fun k hk => ?_
  rw [Constraint.admits, value_congr h hk, Constraint.admits]

lemma violation_congr (h : c.AgreeOn c' s.selectors) (p : OperatingPoint kn mn) :
    s.violation p c = s.violation p c' := by
  unfold violation
  congr 1
  refine List.map_congr_left fun k hk => ?_
  rw [Constraint.violation, value_congr h hk, Constraint.violation]

/-- **A point is the same candidate under tables that agree on what the state reads.** -/
theorem candidate_congr (h : c.AgreeOn c' s.selectors) (p : OperatingPoint kn mn) (i : Nat) :
    s.candidate c p i = s.candidate c' p i := by
  have terms : ∀ t ∈ s.rank.formula.terms,
      t.selector.readCorrected p c = t.selector.readCorrected p c' := fun t ht =>
    h.readCorrected (List.mem_append_left _ (List.mem_map_of_mem ht)) p
  simp only [candidate, admits_congr h, violation_congr h, Rank.isDefined, Rank.valueCorrected,
    Formula.isDefined_congr terms, Formula.valueCorrected_congr terms]

lemma candidates_congr (h : c.AgreeOn c' s.selectors) (points : List (OperatingPoint kn mn)) :
    s.candidates points c = s.candidates points c' :=
  List.map_congr_left fun ⟨p, i⟩ _ => candidate_congr h p i

lemma select_congr (h : c.AgreeOn c' s.selectors) (k : Knowledge kn mn)
    (running : Option String) : s.select k c running = s.select k c' running := by
  simp only [select, candidates_congr h, candidate_congr h]

/-- Adding or replacing an adaptor on an unread metric changes no selection. -/
theorem select_insert_adaptor {as : Adaptors} {a : Adaptor}
    (unread : ∀ selector ∈ s.selectors, selector.segment = .metrics → selector.index ≠ a.metric)
    (k : Knowledge kn mn) (running : Option String) :
    s.select k (Adaptors.corrections (as.insert a)) running = s.select k as.corrections running :=
  select_congr (Adaptors.agreeOn_insert unread) k running

/-- **What a state chooses does not depend on metrics that it does not read.**  Tables of
corrections that agree on the metrics of the rank and of the constraints, whatever else they hold,
yield the same selection: the same point, rank, status and flag.  And corrections never reach a
knob: a term on a knob reads what was predicted, and a constraint on a knob admits and is violated
as predicted. -/
theorem select_of_agreeOn (s : State) :
    (∀ (k : Knowledge kn mn) (c c' : Corrections) (running : Option String),
      c.AgreeOn c' s.selectors → s.select k c running = s.select k c' running) ∧
    (∀ t ∈ s.rank.formula.terms, t.selector.segment = .knobs →
      ∀ (p : OperatingPoint kn mn) (c : Corrections),
        t.selector.readCorrected p c = t.selector.read p) ∧
    ∀ k ∈ s.constraints.items, k.selector.segment = .knobs →
      ∀ (p : OperatingPoint kn mn) (c : Corrections),
        k.value p c = k.selector.read p ∧
          k.admits p c = k.goal.isMet (k.selector.read p) ∧
          k.violation p c = k.goal.relativeError (k.selector.read p) := by
  refine ⟨fun k c c' running agree => select_congr agree k running,
    fun t _ knob p c => Selector.readCorrected_knob knob p c, fun k _ knob p c => ?_⟩
  have value : k.value p c = k.selector.read p := Selector.readCorrected_knob knob p c
  exact ⟨value, congrArg k.goal.isMet value, congrArg k.goal.relativeError value⟩

/-- Three points with a second metric, which no rank and no constraint below reads. -/
def wideKnowledge : Knowledge 1 2 :=
  let point (p : OperatingPoint 1 1) : OperatingPoint 1 2 :=
    ⟨p.knobs, p.metrics.push (.double (.number 8))⟩
  ⟨.ofPoints [point (samplePoint 1 20), point (samplePoint 2 5), point (samplePoint 3 15)], 0,
    by simp [Table.ofPoints]⟩

/-- The sample state with a limit on its knob. -/
def knobLimited : State :=
  { sampleState .violated with
    constraints := (sampleState .violated).constraints.insert
      (Constraint.on (.averageOf .knobs 0) ⟨.less, 3⟩ 0 0 1) }

/-- A table that divides the second metric, and a longer one that adds to it. -/
theorem select_of_agreeOn_sample :
    let c : Corrections := ⟨[some ⟨.additive, 1⟩, some ⟨.multiplicative, 4⟩]⟩
    let c' : Corrections := ⟨[some ⟨.additive, 1⟩, some ⟨.additive, 4⟩, none]⟩
    (c.AgreeOn c' knobLimited.selectors ∧ (c.correct 1 8 == c'.correct 1 8) = false ∧
      knobLimited.select wideKnowledge c (some "1") =
        knobLimited.select wideKnowledge c' (some "1")) ∧
    (∃ t ∈ knobLimited.rank.formula.terms, t.selector.segment = .knobs ∧
      ∀ p : OperatingPoint 1 2, t.selector.readCorrected p c = t.selector.read p) ∧
    ∃ k ∈ knobLimited.constraints.items, k.selector.segment = .knobs ∧
      ∀ p : OperatingPoint 1 2, k.admits p c = k.goal.isMet (k.selector.read p) := by
  intro c c'
  obtain ⟨chosen, terms, limits⟩ := @select_of_agreeOn 1 2 knobLimited
  have agree : c.AgreeOn c' knobLimited.selectors := by
    have read : ∀ s ∈ knobLimited.selectors, s.segment = .metrics → s.index = 0 := by
      decide +kernel
    intro s hs metrics
    rw [read s hs metrics]
    rfl
  have term : ∃ t ∈ knobLimited.rank.formula.terms, t.selector.segment = .knobs := by
    decide +kernel
  have limit : ∃ k ∈ knobLimited.constraints.items, k.selector.segment = .knobs := by
    decide +kernel
  obtain ⟨t, ht, knob⟩ := term
  obtain ⟨k, hk, knob'⟩ := limit
  exact ⟨⟨agree, by decide +kernel, chosen wideKnowledge c c' (some "1") agree⟩,
    ⟨t, ht, knob, fun p => terms t ht knob p c⟩,
    k, hk, knob', fun p => (limits k hk knob' p c).2.1⟩

end State

end Autotune
