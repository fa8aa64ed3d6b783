import Autotune.Document.Settings
import Autotune.Proofs.Document.Forms

/-!
# The written forms of settings and reports return

Every field is required, so a value is read exactly when all its fields are (`decode_eq_ok`).  Both
laws of a form follow from those of its fields.
-/

namespace Autotune

open Document

variable {v : Value}

/-! ### Selectors, ranks and goals -/

lemma Selector.decode_eq_ok {s : Selector} : decode v = .ok s ↔
    ∃ fields, fieldsOf ["segment", "index", "bound", "sigma"] v = .ok fields ∧
      required fields "segment" = .ok s.segment ∧ required fields "index" = .ok s.index ∧
      required fields "bound" = .ok s.bound ∧ required fields "sigma" = .ok s.sigma := by
  obtain ⟨segment, index, bound, sigma⟩ := s
  simp [decode, bind_eq_ok, map_eq_ok]

instance : Writable Selector :=
  ⟨fun s => writable s.segment ∧ writable s.index ∧ writable s.bound ∧ writable s.sigma⟩

instance : RoundTrips Selector where
  decode_encode h := by
    obtain ⟨segment, index, bound, sigma⟩ := h
    exact Selector.decode_eq_ok.mpr ⟨_, fieldsOf_object rfl (by decide),
      required_encode rfl segment, required_encode rfl index, required_encode rfl bound,
      required_encode rfl sigma⟩

instance : ReadsWritable Selector where
  writable_of_decode carried read := by
    obtain ⟨fields, object, segment, index, bound, sigma⟩ := Selector.decode_eq_ok.mp read
    have inside := carried_of_fieldsOf carried object
    exact ⟨writable_of_required inside segment, writable_of_required inside index,
      writable_of_required inside bound, writable_of_required inside sigma⟩

lemma Term.decode_eq_ok {t : Term} : decode v = .ok t ↔
    ∃ fields, fieldsOf ["selector", "coefficient"] v = .ok fields ∧
      required fields "selector" = .ok t.selector ∧
      required fields "coefficient" = .ok t.coefficient := by
  obtain ⟨selector, coefficient⟩ := t
  simp [decode, bind_eq_ok, map_eq_ok]

instance : Writable Term := ⟨fun t => writable t.selector ∧ writable t.coefficient⟩

instance : RoundTrips Term where
  decode_encode h := by
    obtain ⟨selector, coefficient⟩ := h
    exact Term.decode_eq_ok.mpr ⟨_, fieldsOf_object rfl (by decide),
      required_encode rfl selector, required_encode rfl coefficient⟩

instance : ReadsWritable Term where
  writable_of_decode carried read := by
    obtain ⟨fields, object, selector, coefficient⟩ := Term.decode_eq_ok.mp read
    have inside := carried_of_fieldsOf carried object
    exact ⟨writable_of_required inside selector, writable_of_required inside coefficient⟩

lemma Formula.decode_eq_ok {f : Formula} : decode v = .ok f ↔
    ∃ fields, fieldsOf ["composer", "terms"] v = .ok fields ∧
      required fields "composer" = .ok f.composer ∧ required fields "terms" = .ok f.terms := by
  obtain ⟨composer, terms⟩ := f
  simp [decode, bind_eq_ok, map_eq_ok]

instance : Writable Formula := ⟨fun f => writable f.composer ∧ writable f.terms⟩

instance : RoundTrips Formula where
  decode_encode h := by
    obtain ⟨composer, terms⟩ := h
    exact Formula.decode_eq_ok.mpr ⟨_, fieldsOf_object rfl (by decide),
      required_encode rfl composer, required_encode rfl terms⟩

instance : ReadsWritable Formula where
  writable_of_decode carried read := by
    obtain ⟨fields, object, composer, terms⟩ := Formula.decode_eq_ok.mp read
    have inside := carried_of_fieldsOf carried object
    exact ⟨writable_of_required inside composer, writable_of_required inside terms⟩

lemma Rank.decode_eq_ok {r : Rank} : decode v = .ok r ↔
    ∃ fields, fieldsOf ["objective", "evaluator"] v = .ok fields ∧
      required fields "objective" = .ok r.objective ∧
      required fields "evaluator" = .ok r.formula := by
  obtain ⟨objective, formula⟩ := r
  simp [decode, bind_eq_ok, map_eq_ok]

instance : Writable Rank := ⟨fun r => writable r.objective ∧ writable r.formula⟩

instance : RoundTrips Rank where
  decode_encode h := by
    obtain ⟨objective, formula⟩ := h
    exact Rank.decode_eq_ok.mpr ⟨_, fieldsOf_object rfl (by decide),
      required_encode rfl objective, required_encode rfl formula⟩

instance : ReadsWritable Rank where
  writable_of_decode carried read := by
    obtain ⟨fields, object, objective, formula⟩ := Rank.decode_eq_ok.mp read
    have inside := carried_of_fieldsOf carried object
    exact ⟨writable_of_required inside objective, writable_of_required inside formula⟩

lemma Goal.decode_eq_ok {g : Goal} : decode v = .ok g ↔
    ∃ fields, fieldsOf ["comparison", "target"] v = .ok fields ∧
      required fields "comparison" = .ok g.comparison ∧
      required fields "target" = .ok g.target := by
  obtain ⟨comparison, target⟩ := g
  simp [decode, bind_eq_ok, map_eq_ok]

instance : Writable Goal := ⟨fun g => writable g.comparison ∧ writable g.target⟩

instance : RoundTrips Goal where
  decode_encode h := by
    obtain ⟨comparison, target⟩ := h
    exact Goal.decode_eq_ok.mpr ⟨_, fieldsOf_object rfl (by decide),
      required_encode rfl comparison, required_encode rfl target⟩

instance : ReadsWritable Goal where
  writable_of_decode carried read := by
    obtain ⟨fields, object, comparison, target⟩ := Goal.decode_eq_ok.mp read
    have inside := carried_of_fieldsOf carried object
    exact ⟨writable_of_required inside comparison, writable_of_required inside target⟩

/-! ### Reports -/

lemma Counters.decode_eq_ok {c : Counters} : decode v = .ok c ↔
    ∃ fields, fieldsOf ["degraded_selections", "undefined_corrections",
        "undefined_ranks", "knowledge_updates", "state_switches", "selections"] v = .ok fields ∧
      required fields "degraded_selections" = .ok c.degradedSelections ∧
      required fields "undefined_corrections" = .ok c.undefinedCorrections ∧
      required fields "undefined_ranks" = .ok c.undefinedRanks ∧
      required fields "knowledge_updates" = .ok c.knowledgeUpdates ∧
      required fields "state_switches" = .ok c.stateSwitches ∧
      required fields "selections" = .ok c.selections := by
  obtain ⟨degradedSelections, undefinedCorrections, undefinedRanks, knowledgeUpdates,
    stateSwitches, selections⟩ := c
  simp [decode, bind_eq_ok, map_eq_ok]

instance : Writable Counters :=
  ⟨fun c => writable c.degradedSelections ∧ writable c.undefinedCorrections ∧
    writable c.undefinedRanks ∧ writable c.knowledgeUpdates ∧ writable c.stateSwitches ∧
    writable c.selections⟩

instance : RoundTrips Counters where
  decode_encode h := by
    obtain ⟨degradedSelections, undefinedCorrections, undefinedRanks, knowledgeUpdates,
      stateSwitches, selections⟩ := h
    exact Counters.decode_eq_ok.mpr ⟨_, fieldsOf_object rfl (by decide),
      required_encode rfl degradedSelections, required_encode rfl undefinedCorrections,
      required_encode rfl undefinedRanks, required_encode rfl knowledgeUpdates,
      required_encode rfl stateSwitches, required_encode rfl selections⟩

instance : ReadsWritable Counters where
  writable_of_decode carried read := by
    obtain ⟨fields, object, degradedSelections, undefinedCorrections, undefinedRanks,
      knowledgeUpdates, stateSwitches, selections⟩ := Counters.decode_eq_ok.mp read
    have inside := carried_of_fieldsOf carried object
    exact ⟨writable_of_required inside degradedSelections,
      writable_of_required inside undefinedCorrections,
      writable_of_required inside undefinedRanks,
      writable_of_required inside knowledgeUpdates, writable_of_required inside stateSwitches,
      writable_of_required inside selections⟩

instance : Writable Degradation where
  writable
    | .emptyEligibleSet violation => writable violation
    | .undefinedCorrection metric => writable metric
    | .undefinedRank excluded => writable excluded

section

variable {α : Type} [Coded α] {field : String} {case : α → Degradation} {c : Degradation}

lemma case_eq_ok : (do return case (← required (← fieldsOf [field] v) field)) = .ok c ↔
    ∃ fields a, fieldsOf [field] v = .ok fields ∧ required fields field = .ok a ∧ case a = c := by
  simp [bind_eq_ok, map_eq_ok]

end

instance : RoundTrips Degradation where
  decode_encode {c} h := by
    cases c with
    | emptyEligibleSet violation =>
      exact case_eq_ok.mpr
        ⟨_, violation, fieldsOf_object rfl (by decide), required_encode rfl h, rfl⟩
    | undefinedCorrection metric =>
      exact case_eq_ok.mpr
        ⟨_, metric, fieldsOf_object rfl (by decide), required_encode rfl h, rfl⟩
    | undefinedRank excluded =>
      exact case_eq_ok.mpr
        ⟨_, excluded, fieldsOf_object rfl (by decide), required_encode rfl h, rfl⟩

instance : ReadsWritable Degradation where
  writable_of_decode {v c} carried read := by
    simp only [decode] at read
    split at read
    case h_4 => cases read
    all_goals
      obtain ⟨fields, a, object, here, rfl⟩ := case_eq_ok.mp read
      cases carried with
      | object inside =>
        have only := inside _ List.mem_cons_self
        have finite := writable_of_required (carried_of_fieldsOf only object) here
        exact finite

-- both notations at once: a rank from the list of its fields, of which one is a case without data
example : decode (.list [.object [("Maximize", .null)],
    .object [("composer", .text "Linear"), ("terms", .list [])]]) =
      .ok (⟨.maximize, ⟨.linear, []⟩⟩ : Rank) := rfl

example : decode (.object [("UndefinedRank", .list [.integer 3])]) =
    .ok (Degradation.undefinedRank 3) := rfl

end Autotune
