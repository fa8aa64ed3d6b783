import Autotune.Blueprint.Codec
import Autotune.Proofs.Document.Forms

/-!
# The written forms of blueprints return

A blueprint is read when its required fields are and none of the others is spoilt (`decode_eq_ok`).
Every default can be written itself, so what was read is writable as a whole, down to the terms and
constraints of the states.
-/

namespace Autotune

open Document

variable {v : Value}

/-! ### States -/

lemma FieldRef.decode_eq_ok {r : FieldRef} : decode v = .ok r ↔
    ∃ fields, fieldsOf ["segment", "name"] v = .ok fields ∧
      required fields "segment" = .ok r.segment ∧ required fields "name" = .ok r.name := by
  obtain ⟨segment, name⟩ := r
  simp [decode, bind_eq_ok, map_eq_ok]

instance : Writable FieldRef := ⟨fun r => writable r.segment ∧ writable r.name⟩

instance : RoundTrips FieldRef where
  decode_encode h := by
    obtain ⟨segment, name⟩ := h
    exact FieldRef.decode_eq_ok.mpr ⟨_, fieldsOf_object rfl (by decide),
      required_encode rfl segment, required_encode rfl name⟩

instance : ReadsWritable FieldRef where
  writable_of_decode carried read := by
    obtain ⟨fields, object, segment, name⟩ := FieldRef.decode_eq_ok.mp read
    have inside := carried_of_fieldsOf carried object
    exact ⟨writable_of_required inside segment, writable_of_required inside name⟩

lemma TermPlan.decode_eq_ok {t : TermPlan} : decode v = .ok t ↔
    ∃ fields, fieldsOf ["field", "bound", "sigma", "coefficient"] v = .ok fields ∧
      required fields "field" = .ok t.field ∧ optional fields "bound" .average = .ok t.bound ∧
      optional fields "sigma" 0 = .ok t.sigma ∧
      optional fields "coefficient" 1 = .ok t.coefficient := by
  obtain ⟨field, bound, sigma, coefficient⟩ := t
  simp [decode, bind_eq_ok, map_eq_ok]

instance : Writable TermPlan :=
  ⟨fun t => writable t.field ∧ writable t.bound ∧ writable t.sigma ∧ writable t.coefficient⟩

instance : RoundTrips TermPlan where
  decode_encode h := by
    obtain ⟨field, bound, sigma, coefficient⟩ := h
    exact TermPlan.decode_eq_ok.mpr ⟨_, fieldsOf_object rfl (by decide),
      required_encode rfl field, optional_encode rfl bound, optional_encode rfl sigma,
      optional_encode rfl coefficient⟩

instance : ReadsWritable TermPlan where
  writable_of_decode carried read := by
    obtain ⟨fields, object, field, bound, sigma, coefficient⟩ := TermPlan.decode_eq_ok.mp read
    have inside := carried_of_fieldsOf carried object
    exact ⟨writable_of_required inside field, writable_of_optional inside trivial bound,
      writable_of_optional inside writable_zero sigma,
      writable_of_optional inside writable_one coefficient⟩

lemma ConstraintPlan.decode_eq_ok {c : ConstraintPlan} : decode v = .ok c ↔
    ∃ fields, fieldsOf ["field", "comparison", "target", "confidence", "inertia",
        "priority"] v = .ok fields ∧
      required fields "field" = .ok c.field ∧
      required fields "comparison" = .ok c.comparison ∧
      required fields "target" = .ok c.target ∧
      optional fields "confidence" 0 = .ok c.confidence ∧
      optional fields "inertia" 0 = .ok c.inertia ∧
      required fields "priority" = .ok c.priority := by
  obtain ⟨field, comparison, target, confidence, inertia, priority⟩ := c
  simp [decode, bind_eq_ok, map_eq_ok]

instance : Writable ConstraintPlan :=
  ⟨fun c => writable c.field ∧ writable c.comparison ∧ writable c.target ∧
    writable c.confidence ∧ writable c.inertia ∧ writable c.priority⟩

instance : RoundTrips ConstraintPlan where
  decode_encode h := by
    obtain ⟨field, comparison, target, confidence, inertia, priority⟩ := h
    exact ConstraintPlan.decode_eq_ok.mpr ⟨_, fieldsOf_object rfl (by decide),
      required_encode rfl field, required_encode rfl comparison, required_encode rfl target,
      optional_encode rfl confidence, optional_encode rfl inertia,
      required_encode rfl priority⟩

instance : ReadsWritable ConstraintPlan where
  writable_of_decode carried read := by
    obtain ⟨fields, object, field, comparison, target, confidence, inertia, priority⟩ :=
      ConstraintPlan.decode_eq_ok.mp read
    have inside := carried_of_fieldsOf carried object
    exact ⟨writable_of_required inside field, writable_of_required inside comparison,
      writable_of_required inside target,
      writable_of_optional inside writable_zero confidence,
      writable_of_optional inside trivial inertia, writable_of_required inside priority⟩

lemma StatePlan.decode_eq_ok {s : StatePlan} : decode v = .ok s ↔
    ∃ fields, fieldsOf ["name", "objective", "composer", "rank", "constraints"] v = .ok fields ∧
      required fields "name" = .ok s.name ∧
      optional fields "objective" .minimize = .ok s.objective ∧
      required fields "composer" = .ok s.composer ∧ optional fields "rank" [] = .ok s.rank ∧
      optional fields "constraints" [] = .ok s.constraints := by
  obtain ⟨name, objective, composer, rank, constraints⟩ := s
  simp [decode, bind_eq_ok, map_eq_ok]

instance : Writable StatePlan :=
  ⟨fun s => writable s.name ∧ writable s.objective ∧ writable s.composer ∧ writable s.rank ∧
    writable s.constraints⟩

instance : RoundTrips StatePlan where
  decode_encode h := by
    obtain ⟨name, objective, composer, rank, constraints⟩ := h
    exact StatePlan.decode_eq_ok.mpr ⟨_, fieldsOf_object rfl (by decide),
      required_encode rfl name, optional_encode rfl objective, required_encode rfl composer,
      optional_encode rfl rank, optional_encode rfl constraints⟩

instance : ReadsWritable StatePlan where
  writable_of_decode carried read := by
    obtain ⟨fields, object, name, objective, composer, rank, constraints⟩ :=
      StatePlan.decode_eq_ok.mp read
    have inside := carried_of_fieldsOf carried object
    exact ⟨writable_of_required inside name, writable_of_optional inside trivial objective,
      writable_of_required inside composer, writable_of_optional inside writable_nil rank,
      writable_of_optional inside writable_nil constraints⟩

/-! ### Adaptors and blocks -/

lemma AdaptorPlan.decode_eq_ok {a : AdaptorPlan} : decode v = .ok a ↔
    ∃ fields, fieldsOf ["metric", "inertia", "mode", "window"] v = .ok fields ∧
      required fields "metric" = .ok a.metric ∧ required fields "inertia" = .ok a.inertia ∧
      optional fields "mode" .multiplicative = .ok a.mode ∧
      optional fields "window" 1 = .ok a.window := by
  obtain ⟨metric, inertia, mode, window⟩ := a
  simp [decode, bind_eq_ok, map_eq_ok]

instance : Writable AdaptorPlan :=
  ⟨fun a => writable a.metric ∧ writable a.inertia ∧ writable a.mode ∧ writable a.window⟩

instance : RoundTrips AdaptorPlan where
  decode_encode h := by
    obtain ⟨metric, inertia, mode, window⟩ := h
    exact AdaptorPlan.decode_eq_ok.mpr ⟨_, fieldsOf_object rfl (by decide),
      required_encode rfl metric, required_encode rfl inertia, optional_encode rfl mode,
      optional_encode rfl window⟩

instance : ReadsWritable AdaptorPlan where
  writable_of_decode carried read := by
    obtain ⟨fields, object, metric, inertia, mode, window⟩ := AdaptorPlan.decode_eq_ok.mp read
    have oneSample : writable 1 := by
      show 1 < UInt64.size
      decide
    have inside := carried_of_fieldsOf carried object
    exact ⟨writable_of_required inside metric, writable_of_required inside inertia,
      writable_of_optional inside trivial mode, writable_of_optional inside oneSample window⟩

lemma Blueprint.decode_eq_ok {d : Blueprint} : decode v = .ok d ↔
    ∃ fields, fieldsOf ["name", "knobs", "metrics", "states", "active_state",
        "adaptors"] v = .ok fields ∧
      required fields "name" = .ok d.name ∧ required fields "knobs" = .ok d.knobs ∧
      required fields "metrics" = .ok d.metrics ∧ optional fields "states" [] = .ok d.states ∧
      optional fields "active_state" none = .ok d.activeState ∧
      optional fields "adaptors" [] = .ok d.adaptors := by
  obtain ⟨name, knobs, metrics, states, activeState, adaptors⟩ := d
  simp [decode, bind_eq_ok, map_eq_ok]

instance : Writable Blueprint :=
  ⟨fun d => writable d.name ∧ writable d.knobs ∧ writable d.metrics ∧ writable d.states ∧
    writable d.activeState ∧ writable d.adaptors⟩

instance : RoundTrips Blueprint where
  decode_encode h := by
    obtain ⟨name, knobs, metrics, states, activeState, adaptors⟩ := h
    exact Blueprint.decode_eq_ok.mpr ⟨_, fieldsOf_object rfl (by decide),
      required_encode rfl name, required_encode rfl knobs, required_encode rfl metrics,
      optional_encode rfl states, optional_encode rfl activeState,
      optional_encode rfl adaptors⟩

instance : ReadsWritable Blueprint where
  writable_of_decode carried read := by
    obtain ⟨fields, object, name, knobs, metrics, states, activeState, adaptors⟩ :=
      Blueprint.decode_eq_ok.mp read
    have inside := carried_of_fieldsOf carried object
    exact ⟨writable_of_required inside name, writable_of_required inside knobs,
      writable_of_required inside metrics, writable_of_optional inside writable_nil states,
      writable_of_optional inside writable_none activeState,
      writable_of_optional inside writable_nil adaptors⟩

end Autotune
