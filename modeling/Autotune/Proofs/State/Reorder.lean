import Autotune.Proofs.Knowledge.Update
import Autotune.Proofs.Rank.Reorder
import Autotune.Proofs.State.Selection

/-!
# Selection with metrics in another order

States and knowledge follow a permutation of the metrics as points and selectors do.  A selection looks
at the points one by one, each with its position, and at no index but through a selector.  So what it
chooses is what it chose before, with its metrics moved.

* `Candidate.reorder`, `State.candidates_reorder`: the candidates are the same but for their points;
* `State.select_reorder`, `State.select_alike`: so is the selection;
* `Knowledge.ofPoints_reorder`: the knowledge of moved points;
* `State.validate_reorder`: a state fits the points that it fitted.
-/

namespace Autotune

open Equiv (Perm)

variable {kn mn : Nat} {σ : Perm (Fin mn)} {p : OperatingPoint kn mn} {c c' : Corrections}

/-! ### Constraints and states -/

namespace Constraint

variable {k : Constraint}

/-- The constraint on the same field at its new index. -/
def reorder (σ : Perm (Fin mn)) (k : Constraint) : Constraint :=
  { k with selector := k.selector.reorder σ }

lemma key_reorder (σ : Perm (Fin mn)) (k : Constraint) :
    Keyed.key (k.reorder σ) = Keyed.key k := rfl

lemma value_reorder (h : c.Reordered σ c') :
    (k.reorder σ).value (p.reorder σ) c' = k.value p c :=
  Selector.readCorrected_reorder h

/-- The constraint with another tracker, which is given for its priority. -/
def tracked (trackers : UInt32 → Debounce) (k : Constraint) : Constraint :=
  { k with tracker := trackers k.priority }

lemma key_tracked (trackers : UInt32 → Debounce) (k : Constraint) :
    Keyed.key (k.tracked trackers) = Keyed.key k := rfl

end Constraint

/-- The candidate with the metrics of its point moved. -/
def Candidate.reorder (σ : Perm (Fin mn)) (c : Candidate kn mn) : Candidate kn mn :=
  { c with point := c.point.reorder σ }

/-- The selection with the metrics of its point moved. -/
def Selection.reorder (σ : Perm (Fin mn)) (s : Selection kn mn) : Selection kn mn :=
  { s with point := s.point.reorder σ }

/-- The table with the metrics of its points moved.  Every point stays in its place. -/
def Table.reorder (σ : Perm (Fin mn)) (t : Table kn mn) : Table kn mn :=
  ⟨t.points.map (OperatingPoint.reorder σ), t.index⟩

namespace Knowledge

lemma map_points_ne_nil (σ : Perm (Fin mn)) (k : Knowledge kn mn) :
    k.points.map (OperatingPoint.reorder σ) ≠ [] :=
  fun none => k.nonempty (List.map_eq_nil_iff.mp none)

/-- The knowledge with the metrics of its points moved. -/
def reorder (σ : Perm (Fin mn)) (k : Knowledge kn mn) : Knowledge kn mn :=
  ⟨k.toTable.reorder σ, k.version, k.map_points_ne_nil σ⟩

end Knowledge

/-- Two selections are alike: their points stand at one position, and rank, status and flag are the
same. -/
structure Selection.Alike (k k' : Knowledge kn mn) (chosen chosen' : Selection kn mn) : Prop where
  position : ∃ i, (k.position? chosen.point.id = some i ∧ k.points[i]? = some chosen.point) ∧
    k'.position? chosen'.point.id = some i ∧ k'.points[i]? = some chosen'.point
  rank : chosen'.rank = chosen.rank
  status : chosen'.status = chosen.status
  changed : chosen'.changed = chosen.changed

namespace State

variable {s : State} {k : Knowledge kn mn} {points : List (OperatingPoint kn mn)}
  {running : Option String}

/-- The state that reads the same fields at their new indices. -/
def reorder (σ : Perm (Fin mn)) (s : State) : State :=
  { s with
    rank := s.rank.reorder σ
    constraints := s.constraints.map (Constraint.reorder σ) (Constraint.key_reorder σ) }

lemma key_reorder (σ : Perm (Fin mn)) (s : State) : Keyed.key (s.reorder σ) = Keyed.key s := rfl

/-- The state with whatever its constraints have seen by now. -/
def tracked (trackers : UInt32 → Debounce) (s : State) : State :=
  { s with
    constraints := s.constraints.map (Constraint.tracked trackers) (Constraint.key_tracked trackers) }

lemma tracked_reorder (trackers : UInt32 → Debounce) :
    (s.reorder σ).tracked trackers = (s.tracked trackers).reorder σ := by
  simp only [tracked, reorder, Roster.map_map]
  rfl

lemma items_reorder : (s.reorder σ).constraints.items = s.constraints.items.map (Constraint.reorder σ) :=
  rfl

lemma anyViolated_reorder : (s.reorder σ).anyViolated = s.anyViolated := by
  rw [anyViolated, items_reorder, List.any_map]
  rfl

/-! ### Selecting -/

lemma candidate_reorder (h : c.Reordered σ c') (position : Nat) :
    (s.reorder σ).candidate c' (p.reorder σ) position = (s.candidate c p position).reorder σ := by
  have value (k : Constraint) : (k.reorder σ).value (p.reorder σ) c' = k.value p c :=
    Constraint.value_reorder h
  have admitted : (s.reorder σ).admits (p.reorder σ) c' = s.admits p c := by
    rw [admits, items_reorder, List.all_map]
    simp only [Function.comp_def, Constraint.admits, value]
    rfl
  have violation : (s.reorder σ).violation (p.reorder σ) c' = s.violation p c := by
    rw [State.violation, items_reorder, List.map_map]
    simp only [Function.comp_def, Constraint.violation, value]
    rfl
  have defined : (s.reorder σ).rank.isDefined (p.reorder σ) c' = s.rank.isDefined p c :=
    Formula.isDefined_reorder h
  have rank : (s.reorder σ).rank.valueCorrected (p.reorder σ) c' = s.rank.valueCorrected p c :=
    Formula.valueCorrected_reorder h
  simp only [candidate, admitted, violation, defined, rank]
  rfl

lemma candidates_reorder (h : c.Reordered σ c') :
    (s.reorder σ).candidates (points.map (OperatingPoint.reorder σ)) c' =
      (s.candidates points c).map (Candidate.reorder σ) := by
  rw [candidates, candidates, List.zipIdx_map, List.map_map, List.map_map]
  exact List.map_congr_left fun entry _ => candidate_reorder h entry.2

lemma allows_reorder (running : Option String) :
    (s.reorder σ).allows running ∘ (Candidate.reorder σ : Candidate kn mn → Candidate kn mn) =
      s.allows running := by
  funext candidate
  simp only [Function.comp_def, allows, anyViolated_reorder]
  rfl

lemma fallback_reorder (version : Nat) (first : Candidate kn mn) (others : List (Candidate kn mn)) :
    (s.reorder σ).fallback running version (first.reorder σ) (others.map (Candidate.reorder σ)) =
      (s.fallback running version first others).reorder σ := by
  have least : leastOf (s.reorder σ).compareViolating (first.reorder σ)
      (others.map (Candidate.reorder σ)) = (leastOf s.compareViolating first others).reorder σ :=
    leastOf_map
  simp only [fallback, least, ← List.map_cons, List.countP_map]
  rfl

lemma first_reorder : (k.reorder σ).first = k.first.reorder σ := List.head_map ..

/-- **What is chosen is what was chosen before, with its metrics moved.** -/
theorem select_reorder (h : c.Reordered σ c') (running : Option String) :
    (s.reorder σ).select (k.reorder σ) c' running = (s.select k c running).reorder σ := by
  have points : (k.reorder σ).points = k.points.map (OperatingPoint.reorder σ) := rfl
  have version : (k.reorder σ).version = k.version := rfl
  have defined : (fun c : Candidate kn mn => c.defined) ∘ Candidate.reorder σ = (·.defined) := rfl
  have undefined : (fun c : Candidate kn mn => !c.defined) ∘ Candidate.reorder σ = (!·.defined) := rfl
  have ranked (cs : List (Candidate kn mn)) :
      least? (s.reorder σ).compareRanked (cs.map (Candidate.reorder σ)) =
        (least? s.compareRanked cs).map (Candidate.reorder σ) := least?_map
  -- the filters, the counts and the choice of the least look at nothing that is moved
  simp only [select, points, version, candidates_reorder h, List.filter_map, allows_reorder, defined,
    List.countP_map, undefined, ranked, first_reorder, candidate_reorder h, ← List.map_drop,
    fallback_reorder]
  cases least? s.compareRanked
      (((s.candidates k.points c).filter (s.allows running)).filter (·.defined)) with
  | none => rfl
  | some best => rfl

/-- **The position, rank, status and flag of a selection do not depend on the order of the
metrics**, whatever the constraints have seen. -/
theorem select_alike (indexed : k.Indexed) (h : c.Reordered σ c') (trackers : UInt32 → Debounce)
    (running : Option String) :
    Selection.Alike k (k.reorder σ) ((s.tracked trackers).select k c running)
      (((s.reorder σ).tracked trackers).select (k.reorder σ) c' running) := by
  rw [tracked_reorder, select_reorder h]
  obtain ⟨i, known⟩ := exists_getElem?_select (s.tracked trackers) k c running
  have named : k.ids[i]? = some ((s.tracked trackers).select k c running).point.id := by
    rw [Table.ids, List.getElem?_map, known]
    rfl
  have found := (indexed _ i).mpr named
  refine ⟨⟨i, ⟨found, known⟩, found, ?_⟩, rfl, rfl, rfl⟩
  have points : (k.reorder σ).points = k.points.map (OperatingPoint.reorder σ) := rfl
  rw [points, List.getElem?_map, known]
  rfl

/-! ### Fitting -/

/-- **A state fits the points that it fitted.** -/
theorem validate_reorder :
    (s.reorder σ).validate (points.map (OperatingPoint.reorder σ)) = .ok ⟨⟩ ↔
      s.validate points = .ok ⟨⟩ := by
  have selectors : (s.reorder σ).selectors = s.selectors.map (Selector.reorder σ) := by
    have terms : (s.reorder σ).rank.formula.terms = s.rank.formula.terms.map (Term.reorder σ) := rfl
    simp only [State.selectors, terms, items_reorder, List.map_append, List.map_map]
    rfl
  have accepted : (s.reorder σ).rank.formula.validatePoints
      (points.map (OperatingPoint.reorder σ)) = .ok ⟨⟩ ↔
        s.rank.formula.validatePoints points = .ok ⟨⟩ := Formula.validatePoints_reorder
  rw [validate_eq_ok, validate_eq_ok, selectors, List.forall_mem_map, accepted]
  simp only [Selector.check_reorder]

end State

/-! ### Knowledge -/

namespace Table

lemma upsertAll_reorder (t : Table kn mn) (new : List (OperatingPoint kn mn)) :
    (t.reorder σ).upsertAll (new.map (OperatingPoint.reorder σ)) = (t.upsertAll new).reorder σ := by
  have upsert (t : Table kn mn) (p : OperatingPoint kn mn) :
      (t.reorder σ).upsert (p.reorder σ) = (t.upsert p).reorder σ := by
    simp only [Table.upsert, reorder, OperatingPoint.id_reorder]
    cases t.index.get? p.id with
    | none => simp
    | some place => simp
  induction new generalizing t with
  | nil => rfl
  | cons p new ih =>
    have step : (t.reorder σ).upsertAll ((p :: new).map (OperatingPoint.reorder σ)) =
        ((t.reorder σ).upsert (p.reorder σ)).upsertAll (new.map (OperatingPoint.reorder σ)) := rfl
    rw [step, upsert, ih]
    rfl

end Table

namespace Knowledge

variable {k k' : Knowledge kn mn} {points : List (OperatingPoint kn mn)}

/-- **The knowledge of moved points is the knowledge with its points moved.** -/
theorem ofPoints_reorder :
    ofPoints (points.map (OperatingPoint.reorder σ)) = .ok k' ↔
      ∃ k, ofPoints points = .ok k ∧ k.reorder σ = k' := by
  have table : Table.empty.upsertAll (points.map (OperatingPoint.reorder σ)) =
      (Table.empty.upsertAll points).reorder σ := Table.upsertAll_reorder .empty points
  have moved {k : Knowledge kn mn} (h : ofPoints points = .ok k) :
      ofPoints (points.map (OperatingPoint.reorder σ)) = .ok (k.reorder σ) := by
    rw [ofPoints, ofTable?_eq_ok] at h ⊢
    rw [table, ← h.1, ← h.2]
    exact ⟨rfl, rfl⟩
  constructor
  · intro h
    cases known : ofPoints points with
    | ok k =>
      rw [moved known] at h
      exact ⟨k, rfl, Except.ok.inj h⟩
    | error fault =>
      obtain ⟨-, rfl⟩ := ofPoints_eq_error.mp known
      rw [List.map_nil, known] at h
      cases h
  · rintro ⟨k, h, rfl⟩
    exact moved h

end Knowledge

end Autotune
