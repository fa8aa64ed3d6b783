import Autotune.Proofs.Block.Ranks

/-!
# When a blueprint can be resolved

A blueprint is `Blueprint.Complete` for some numbers of knobs and metrics when it declares that many,
every name that it uses is declared, every planned rank has as many terms as its composer takes, and
no state plans two constraints of one priority.

* `Blueprint.exists_builder_iff`: these are exactly the blueprints that can be resolved;
* `Blueprint.builder_eq_ok`: the parts that are made then;
* `Blueprint.state_eq_ok`, `Blueprint.forall₂_resolveAdaptors`: what becomes of states and adaptors.
-/

namespace Autotune

open Operation

variable {kn mn : Nat} {d : Blueprint}

lemma Roster.mem_foldl_insert {α κ : Type} [Keyed α κ] [LT κ] [DecidableLT κ] [KeyOrder κ]
    {as : List α} {r : Roster α} {a : α} (h : a ∈ (as.foldl insert r).items) :
    a ∈ as ∨ a ∈ r.items := by
  induction as generalizing r with
  | nil => exact .inr h
  | cons b as ih =>
    obtain ha | ha := ih h
    · exact .inl (List.mem_cons_of_mem _ ha)
    · obtain rfl | ⟨ha, -⟩ := mem_insert.mp ha
      · exact .inl List.mem_cons_self
      · exact .inr ha

namespace Blueprint

variable {field : FieldRef} {i : Nat}

/-! ### Names -/

/-- The names of the fields of a row. -/
def names (d : Blueprint) : Segment → List String
  | .knobs => d.knobs
  | .metrics => d.metrics

/-- The blueprint has a field of that name. -/
def Declares (d : Blueprint) (field : FieldRef) : Prop := field.name ∈ d.names field.segment

lemma indexOf_eq_ok :
    d.indexOf field = .ok i ↔
      (d.names field.segment).findIdx? (fun s => s == field.name) = some i := by
  obtain ⟨segment, name⟩ := field
  cases segment with
  | knobs =>
    unfold indexOf names
    dsimp only
    split <;> simp [*]
  | metrics =>
    unfold indexOf names
    dsimp only
    split <;> simp [*]

lemma exists_indexOf_iff : (∃ i, d.indexOf field = .ok i) ↔ d.Declares field := by
  simp only [indexOf_eq_ok, ← Option.isSome_iff_exists, List.findIdx?_isSome, List.any_eq_true,
    beq_iff_eq, exists_eq_right]
  rfl

lemma lt_of_indexOf (h : d.indexOf field = .ok i) : i < (d.names field.segment).length := by
  obtain ⟨inside, -⟩ := List.findIdx?_eq_some_iff_getElem.mp (indexOf_eq_ok.mp h)
  exact inside

/-- The selector reads the field of that name. -/
structure Selects (d : Blueprint) (field : FieldRef) (selector : Selector) : Prop where
  segment : selector.segment = field.segment
  index : d.indexOf field = .ok selector.index

lemma selector_eq_ok {selector : Selector} :
    d.selector field = .ok selector ↔
      ∃ i, d.indexOf field = .ok i ∧ Selector.averageOf field.segment i = selector :=
  map_eq_ok

section

variable {α : Type} {make : Selector → α} {a : α}

lemma map_selector_eq_ok :
    (d.selector field).map make = .ok a ↔
      ∃ i, d.indexOf field = .ok i ∧ make (.averageOf field.segment i) = a := by
  have step : (d.selector field).map make = .ok a ↔
      ∃ selector, d.selector field = .ok selector ∧ make selector = a := map_eq_ok
  rw [step]
  simp only [selector_eq_ok, exists_exists_and_eq_and]

lemma exists_map_selector_iff :
    (∃ a, (d.selector field).map make = .ok a) ↔ d.Declares field := by
  rw [← exists_indexOf_iff]
  constructor
  · rintro ⟨a, made⟩
    obtain ⟨i, found, -⟩ := map_selector_eq_ok.mp made
    exact ⟨i, found⟩
  · rintro ⟨i, found⟩
    exact ⟨_, map_selector_eq_ok.mpr ⟨i, found, rfl⟩⟩

end

lemma Selects.check {selector : Selector} (h : d.Selects field selector)
    (knobs : d.knobs.length = kn) (metrics : d.metrics.length = mn) :
    selector.check kn mn = .ok ⟨⟩ := by
  have inside := lt_of_indexOf h.index
  rw [State.check_eq_ok, h.segment]
  cases segment : field.segment with
  | knobs => rwa [segment, names, knobs] at inside
  | metrics => rwa [segment, names, metrics] at inside

/-! ### Terms and ranks -/

lemma term_eq_ok {plan : TermPlan} {t : Term} :
    d.term plan = .ok t ↔ ∃ i, d.indexOf plan.field = .ok i ∧
      ⟨(Selector.averageOf plan.field.segment i).withBound plan.bound plan.sigma,
        plan.coefficient⟩ = t :=
  map_selector_eq_ok

lemma selects_term {plan : TermPlan} {t : Term} (h : d.term plan = .ok t) :
    d.Selects plan.field t.selector := by
  obtain ⟨i, found, rfl⟩ := term_eq_ok.mp h
  cases plan.bound <;> exact ⟨rfl, found⟩

lemma rank_eq_ok {objective : Objective} {composer : Composer} {terms : List Term} {r : Rank}
    (h : rank objective composer terms = .ok r) :
    r.formula = ⟨composer, terms⟩ ∧ r.formula.Fits := by
  refine ⟨?_, fits_of_rank h⟩
  unfold rank at h
  split at h
  case isTrue empty =>
    cases h
    obtain ⟨none, linear⟩ := Bool.and_eq_true_iff.mp empty
    rw [List.isEmpty_iff.mp none, of_decide_eq_true linear]
    rfl
  case isFalse =>
    obtain ⟨formula, made, rfl⟩ := map_eq_ok.mp h
    exact Formula.eq_of_ofTerms made

lemma exists_rank_iff (objective : Objective) {composer : Composer} {terms : List Term} :
    (∃ r, rank objective composer terms = .ok r) ↔ (⟨composer, terms⟩ : Formula).Fits := by
  constructor
  · rintro ⟨r, h⟩
    obtain ⟨same, fits⟩ := rank_eq_ok h
    exact same ▸ fits
  · intro fits
    unfold rank
    split
    · exact ⟨_, rfl⟩
    · exact ⟨_, map_eq_ok.mpr ⟨_, fits, rfl⟩⟩

/-! ### Constraints -/

lemma constraint_eq_ok {plan : ConstraintPlan} {c : Constraint} :
    d.constraint plan = .ok c ↔ ∃ i, d.indexOf plan.field = .ok i ∧
      .on (.averageOf plan.field.segment i) ⟨plan.comparison, plan.target⟩ plan.confidence
        plan.inertia plan.priority = c :=
  map_selector_eq_ok

lemma selects_constraint {plan : ConstraintPlan} {c : Constraint} (h : d.constraint plan = .ok c) :
    d.Selects plan.field c.selector := by
  obtain ⟨i, found, rfl⟩ := constraint_eq_ok.mp h
  dsimp only [Constraint.on]
  split <;> exact ⟨rfl, found⟩

lemma priority_constraint {plan : ConstraintPlan} {c : Constraint}
    (h : d.constraint plan = .ok c) : c.priority = plan.priority := by
  obtain ⟨i, found, rfl⟩ := constraint_eq_ok.mp h
  rfl

/-- Adds planned constraints one after the other. -/
def addAll (d : Blueprint) (plans : List ConstraintPlan) : Operation State Unit :=
  plans.forM fun c => do State.addConstraint (← check (d.constraint c))

lemma addAll_yields {plans : List ConstraintPlan} {s s' : State} :
    (d.addAll plans).Yields s ⟨⟩ s' ↔ ∃ cs,
      List.Forall₂ (fun plan c => d.constraint plan = .ok c) plans cs ∧
        (∀ c ∈ cs, ¬ s.constraints.contains c.priority) ∧ (cs.map Constraint.priority).Nodup ∧
          { s with constraints := cs.foldl Roster.insert s.constraints } = s' := by
  induction plans generalizing s with
  | nil =>
    simp only [List.forall₂_nil_left_iff, exists_eq_left]
    simp [addAll, pure_yields, List.forM]
  | cons plan plans ih =>
    have step : d.addAll (plan :: plans) =
        (check (d.constraint plan) >>= State.addConstraint) >>= fun _ => d.addAll plans := rfl
    rw [step, bind_yields]
    constructor
    · rintro ⟨⟨⟩, between, first, rest⟩
      obtain ⟨c, made, added⟩ := check_bind_yields.mp first
      obtain ⟨free, rfl⟩ := State.addConstraint_yields.mp added
      obtain ⟨cs, made', free', distinct, rfl⟩ := ih.mp rest
      refine ⟨c :: cs, .cons made made', ?_, ?_, rfl⟩
      · refine List.forall_mem_cons.mpr ⟨free, fun e he inside => ?_⟩
        exact free' e he (Roster.contains_insert.mpr (.inr inside))
      · refine List.nodup_cons.mpr ⟨fun again => ?_, distinct⟩
        obtain ⟨e, he, same⟩ := List.mem_map.mp again
        exact free' e he (Roster.contains_insert.mpr (.inl same.symm))
    · rintro ⟨_, made, free, distinct, rfl⟩
      obtain ⟨c, cs, here, made', rfl⟩ := List.forall₂_cons_left_iff.mp made
      obtain ⟨free, free'⟩ := List.forall_mem_cons.mp free
      obtain ⟨other, distinct⟩ := List.nodup_cons.mp distinct
      refine ⟨⟨⟩, { s with constraints := s.constraints.insert c }, ?_,
        ih.mpr ⟨cs, made', fun e he inside => ?_, distinct, rfl⟩⟩
      · exact check_bind_yields.mpr ⟨c, here, State.addConstraint_yields.mpr ⟨free, rfl⟩⟩
      · obtain same | inside := Roster.contains_insert.mp inside
        · exact other (List.mem_map.mpr ⟨e, he, same.symm⟩)
        · exact free' e he inside

/-! ### States -/

lemma state_eq_ok {plan : StatePlan} {s : State} :
    d.state plan = .ok s ↔ ∃ terms r cs,
      List.Forall₂ (fun plan t => d.term plan = .ok t) plan.rank terms ∧
        rank plan.objective plan.composer terms = .ok r ∧
          List.Forall₂ (fun plan c => d.constraint plan = .ok c) plan.constraints cs ∧
            (cs.map Constraint.priority).Nodup ∧
              ⟨plan.name, r, cs.foldl Roster.insert .empty⟩ = s := by
  have steps : d.state plan = .ok s ↔ ∃ terms, plan.rank.mapM d.term = .ok terms ∧
      ∃ r, rank plan.objective plan.composer terms = .ok r ∧
        (d.addAll plan.constraints).Yields (.ofRank plan.name r) ⟨⟩ s := by
    simp only [state, bind_eq_ok, finish_eq_ok]
    rfl
  rw [steps]
  simp only [mapM_eq_ok, addAll_yields]
  constructor
  · rintro ⟨terms, made, r, ranked, cs, made', -, distinct, rfl⟩
    exact ⟨terms, r, cs, made, ranked, made', distinct, rfl⟩
  · rintro ⟨terms, r, cs, made, ranked, made', distinct, rfl⟩
    exact ⟨terms, made, r, ranked, cs, made', fun _ _ inside => Bool.false_ne_true inside, distinct,
      rfl⟩

end Blueprint

/-- Everything about a planned state can be resolved. -/
structure StatePlan.Complete (d : Blueprint) (plan : StatePlan) : Prop where
  terms : ∀ t ∈ plan.rank, d.Declares t.field
  constraints : ∀ c ∈ plan.constraints, d.Declares c.field
  simple : plan.composer = .simple → plan.rank.length = 1
  geometric : plan.composer = .geometric → 0 < plan.rank.length
  priorities : (plan.constraints.map ConstraintPlan.priority).Nodup

/-- Everything about a blueprint can be resolved, for the given numbers of knobs and metrics. -/
structure Blueprint.Complete (d : Blueprint) (kn mn : Nat) : Prop where
  knobs : d.knobs.length = kn
  metrics : d.metrics.length = mn
  states : ∀ plan ∈ d.states, plan.Complete d
  adaptors : ∀ plan ∈ d.adaptors, plan.metric ∈ d.metrics

namespace Blueprint

lemma map_priority {plans : List ConstraintPlan} {cs : List Constraint}
    (made : List.Forall₂ (fun plan c => d.constraint plan = .ok c) plans cs) :
    cs.map Constraint.priority = plans.map ConstraintPlan.priority := by
  induction made with
  | nil => rfl
  | cons here _ ih => rw [List.map_cons, List.map_cons, priority_constraint here, ih]

lemma fits_iff_length {composer : Composer} {terms : List Term} {plans : List TermPlan}
    (length : plans.length = terms.length) :
    (⟨composer, terms⟩ : Formula).Fits ↔ (composer = .simple → plans.length = 1) ∧
      (composer = .geometric → 0 < plans.length) := by
  rw [Formula.fits_iff, length, List.length_pos_iff]

lemma exists_term_iff {plan : TermPlan} : (∃ t, d.term plan = .ok t) ↔ d.Declares plan.field :=
  exists_map_selector_iff

lemma exists_constraint_iff {plan : ConstraintPlan} :
    (∃ c, d.constraint plan = .ok c) ↔ d.Declares plan.field :=
  exists_map_selector_iff

/-- **A planned state can be resolved when everything about it can be.** -/
lemma exists_state_iff {plan : StatePlan} : (∃ s, d.state plan = .ok s) ↔ plan.Complete d := by
  constructor
  · rintro ⟨s, h⟩
    obtain ⟨terms, r, cs, made, ranked, made', distinct, -⟩ := state_eq_ok.mp h
    obtain ⟨simple, geometric⟩ :=
      (fits_iff_length made.length_eq).mp ((exists_rank_iff _).mp ⟨r, ranked⟩)
    refine ⟨?_, ?_, simple, geometric, map_priority made' ▸ distinct⟩
    · exact fun t ht => exists_term_iff.mp (exists_mapM_eq_ok.mp ⟨terms, mapM_eq_ok.mpr made⟩ t ht)
    · exact fun c hc =>
        exists_constraint_iff.mp (exists_mapM_eq_ok.mp ⟨cs, mapM_eq_ok.mpr made'⟩ c hc)
  · intro h
    obtain ⟨terms, made⟩ := exists_mapM_eq_ok.mpr fun t ht => exists_term_iff.mpr (h.terms t ht)
    obtain ⟨cs, made'⟩ :=
      exists_mapM_eq_ok.mpr fun c hc => exists_constraint_iff.mpr (h.constraints c hc)
    rw [mapM_eq_ok] at made made'
    have fits := (fits_iff_length made.length_eq).mpr ⟨h.simple, h.geometric⟩
    obtain ⟨r, ranked⟩ := (exists_rank_iff plan.objective).mpr fits
    exact ⟨_, state_eq_ok.mpr ⟨terms, r, cs, made, ranked, made', map_priority made' ▸ h.priorities,
      rfl⟩⟩

/-! ### Adaptors -/

/-- Each planned adaptor becomes a fresh one of its metric. -/
lemma forall₂_resolveAdaptors {plans : List AdaptorPlan} {bank bank' : Bank}
    {adaptors : List Adaptor} (h : d.resolveAdaptors bank plans = .ok (adaptors, bank')) :
    List.Forall₂ (fun plan a => d.metricIndex plan.metric = .ok a.metric ∧
      a = .fresh a.metric a.monitor plan.inertia plan.mode) plans adaptors := by
  induction plans generalizing bank adaptors with
  | nil =>
    cases h
    exact .nil
  | cons plan rest ih =>
    simp only [resolveAdaptors, bind_eq_ok, pure_eq_ok] at h
    obtain ⟨metric, found, ⟨adaptors, _⟩, later, made⟩ := h
    cases made
    exact .cons ⟨found, rfl⟩ (ih later)

lemma exists_resolveAdaptors_iff (bank : Bank) {plans : List AdaptorPlan} :
    (∃ made, d.resolveAdaptors bank plans = .ok made) ↔
      ∀ plan ∈ plans, plan.metric ∈ d.metrics := by
  induction plans generalizing bank with
  | nil => exact iff_of_true ⟨_, rfl⟩ (by simp)
  | cons plan rest ih =>
    have declared : (∃ i, d.metricIndex plan.metric = .ok i) ↔ plan.metric ∈ d.metrics :=
      exists_indexOf_iff
    rw [List.forall_mem_cons, ← declared, ← ih (bank.allocate plan.window).2]
    simp only [resolveAdaptors, bind_eq_ok, pure_eq_ok]
    constructor
    · rintro ⟨_, i, found, made, later, -⟩
      exact ⟨⟨i, found⟩, made, later⟩
    · rintro ⟨⟨i, found⟩, made, later⟩
      exact ⟨_, i, found, made, later, rfl⟩

/-! ### Builders -/

/-- The metrics that some constraint is about, each with the capacity of its monitor. -/
def owners (d : Blueprint) : List (Nat × Nat) :=
  d.constrainedMetrics.map fun metric => (metric, Monitor.defaultCapacity)

lemma builder_eq_ok {bank : Bank} {made : Builder kn mn × Bank} :
    d.builder kn mn bank = .ok made ↔
      d.knobs.length = kn ∧ d.metrics.length = mn ∧ ∃ states resolved,
        List.Forall₂ (fun plan s => d.state plan = .ok s) d.states states ∧
          d.resolveAdaptors bank d.adaptors = .ok resolved ∧
            (⟨d.name, [], states, d.activeState, resolved.1,
              (resolved.2.allocateEach d.owners).1⟩, (resolved.2.allocateEach d.owners).2) = made := by
  simp only [builder, bind_eq_ok, guard_eq_ok, pure_eq_ok, mapM_eq_ok, not_not, exists_and_left]
  rfl

/-- **A blueprint can be resolved exactly when everything about it can be.** -/
theorem exists_builder_iff {bank : Bank} :
    (∃ made : Builder kn mn × Bank, d.builder kn mn bank = .ok made) ↔ d.Complete kn mn := by
  simp only [builder_eq_ok]
  constructor
  · rintro ⟨_, knobs, metrics, states, resolved, planned, adapted, -⟩
    refine ⟨knobs, metrics, fun plan hp => ?_, (exists_resolveAdaptors_iff _).mp ⟨resolved, adapted⟩⟩
    exact exists_state_iff.mp (exists_mapM_eq_ok.mp ⟨states, mapM_eq_ok.mpr planned⟩ plan hp)
  · intro h
    obtain ⟨states, planned⟩ :=
      exists_mapM_eq_ok.mpr fun plan hp => exists_state_iff.mpr (h.states plan hp)
    obtain ⟨resolved, adapted⟩ := (exists_resolveAdaptors_iff bank).mpr h.adaptors
    exact ⟨_, h.knobs, h.metrics, states, resolved, mapM_eq_ok.mp planned, adapted, rfl⟩

end Blueprint

end Autotune
