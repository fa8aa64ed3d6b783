import Autotune.Proofs.Knowledge.Update
import Autotune.Proofs.Point.Identity

/-!
# Knowledge tells configurations apart by their knobs

Knowledge looks a configuration up by its name.  Comparing knobs would do as well: a point whose knobs
are numbers takes the place of the first point that configures the application alike, and the end if
there is none (`placed`).

* `Table.Indexed.points_upsertAll_eq`: this is what happens to the points of an indexed table;
* `Knowledge.ByConfiguration`: what it means for the operations of knowledge;
* `Knowledge.identity_of_mem_history`: name, hash and comparison agree, and all knowledge there is
  goes by them.
-/

namespace Autotune

open State (samplePoint)

variable {kn mn : Nat} {p q : OperatingPoint kn mn} {new points : List (OperatingPoint kn mn)}

/-- The points after one more was put, in the place of the first that configures the application
alike or at the end. -/
def placed (points : List (OperatingPoint kn mn)) (p : OperatingPoint kn mn) :
    List (OperatingPoint kn mn) :=
  match points.findIdx? fun q => q.sameConfiguration p with
  | some i => points.set i p
  | none => points ++ [p]

namespace Table

variable {t : Table kn mn}

/-- **The place of a configuration is that of the first point which compares equal.** -/
lemma Indexed.position?_eq (h : t.Indexed) (numbers : p.HasNumbers) :
    t.position? p.id = t.points.findIdx? fun q => q.sameConfiguration p := by
  cases found : t.points.findIdx? fun q => q.sameConfiguration p with
  | none =>
    rw [h.position?_eq_none, ids, List.mem_map]
    rintro ⟨q, hq, same⟩
    have other := List.findIdx?_eq_none_iff.mp found q hq
    rw [(OperatingPoint.id_eq_iff numbers).mp same] at other
    cases other
  | some i =>
    obtain ⟨inside, same, -⟩ := List.findIdx?_eq_some_iff_getElem.mp found
    rw [h p.id i, ids, List.getElem?_map, List.getElem?_eq_getElem inside, Option.map_some,
      (OperatingPoint.id_eq_iff numbers).mpr same]

lemma Indexed.points_upsert_eq (h : t.Indexed) (numbers : p.HasNumbers) :
    (t.upsert p).points = placed t.points p := by
  rw [placed, ← h.position?_eq numbers]
  cases known : t.position? p.id with
  | none => rw [upsert_of_new known]
  | some i => rw [upsert_of_known known]

/-- **Points are put where comparing their knobs would put them.** -/
theorem Indexed.points_upsertAll_eq (h : t.Indexed) (numbers : ∀ p ∈ new, p.HasNumbers) :
    (t.upsertAll new).points = new.foldl placed t.points := by
  induction new generalizing t with
  | nil => rfl
  | cons p new ih =>
    rw [List.forall_mem_cons] at numbers
    have step : t.upsertAll (p :: new) = (t.upsert p).upsertAll new := rfl
    rw [step, ih h.upsert numbers.2, h.points_upsert_eq numbers.1, List.foldl_cons]

end Table

namespace Knowledge

variable {k next start : Knowledge kn mn}

/-- What knowledge makes of points whose knobs are numbers is what comparing their knobs would make
of them. -/
structure ByConfiguration (k : Knowledge kn mn) : Prop where
  /-- No two points configure the application alike. -/
  apart : k.points.Pairwise fun p q => p.sameConfiguration q = false
  found : ∀ p : OperatingPoint kn mn, p.HasNumbers →
    k.position? p.id = k.points.findIdx? fun q => q.sameConfiguration p
  merged : ∀ new, (∀ p ∈ new, p.HasNumbers) → ∀ next, k.apply (.merge new) = .ok next →
    next.points = new.foldl placed k.points
  replaced : ∀ new, (∀ p ∈ new, p.HasNumbers) → ∀ next, k.apply (.replace new) = .ok next →
    next.points = new.foldl placed []
  removed : ∀ gone : List (OperatingPoint kn mn), (∀ p ∈ gone, p.HasNumbers) →
    ∀ next, k.apply (.remove (gone.map OperatingPoint.id)) = .ok next →
      next.points = k.points.filter fun q => gone.all fun p => !q.sameConfiguration p

lemma byConfiguration (h : k.Indexed) : k.ByConfiguration where
  apart := by
    refine (List.pairwise_map.mp h.nodup_ids).imp fun different => ?_
    refine Bool.eq_false_of_not_eq_true fun same => different ?_
    exact (OperatingPoint.id_and_hash_of_sameConfiguration same).1
  found p numbers := h.position?_eq numbers
  merged new numbers next ok := by
    cases ok
    exact h.points_upsertAll_eq numbers
  replaced new numbers next ok := by
    rw [apply_eq_ofTable?, ofTable?_eq_ok] at ok
    rw [ok.1]
    exact Table.indexed_empty.points_upsertAll_eq numbers
  removed gone numbers next ok := by
    rw [(apply_eq_ok h ok).2.1, Update.result]
    refine List.filter_congr fun q _ => ?_
    rw [Bool.eq_iff_iff, decide_eq_true_iff, List.all_eq_true, List.mem_map]
    constructor
    · intro kept p hp
      rw [Bool.not_eq_true']
      refine Bool.eq_false_of_not_eq_true fun same => kept ⟨p, hp, ?_⟩
      exact ((OperatingPoint.id_eq_iff (numbers p hp)).mpr same).symm
    · rintro different ⟨p, hp, name⟩
      have same := (OperatingPoint.id_eq_iff (numbers p hp)).mp name.symm
      simpa [same] using different p hp

/-- **Name, hash and comparison of a configuration agree.**  Points that compare equal have one name
and one hash.  Points of one name have equal numbers, and NaN only where the other one has NaN too.
So for points whose knobs are numbers the name says the same as the comparison, and all knowledge
there is treats such points as if it compared them. -/
theorem identity_of_mem_history (kn mn : Nat) :
    (∀ p q : OperatingPoint kn mn,
      (p.sameConfiguration q = true → p.id = q.id ∧ p.hash = q.hash) ∧
      (p.id = q.id → List.Forall₂ (fun x y => (x == y) = true ∨ x.isNaN = true ∧ y.isNaN = true)
        (averages p.knobs) (averages q.knobs)) ∧
      (q.HasNumbers → (p.id = q.id ↔ p.sameConfiguration q = true))) ∧
    ∀ (points : List (OperatingPoint kn mn)) (start : Knowledge kn mn),
      ofPoints points = .ok start →
        ((∀ p ∈ points, p.HasNumbers) → start.points = points.foldl placed []) ∧
        ∀ updates, ∀ k ∈ start.history updates, k.ByConfiguration := by
  refine ⟨fun p q => ?_, fun points start accepted => ⟨fun numbers => ?_, fun updates k hk => ?_⟩⟩
  · exact ⟨OperatingPoint.id_and_hash_of_sameConfiguration, OperatingPoint.forall₂_of_id_eq,
      OperatingPoint.id_eq_iff⟩
  · rw [(ofTable?_eq_ok.mp accepted).1]
    exact Table.indexed_empty.points_upsertAll_eq numbers
  · exact byConfiguration (indexed_of_mem_history (ofPoints_eq_ok accepted).1 hk)

/-- Knobs that differ in the sign of a zero are one configuration, so the later point counts. -/
theorem identity_of_mem_history_sample :
    (samplePoint 0 5).sameConfiguration (samplePoint (-0) 7) = true ∧
      (samplePoint 0 5).hash = (samplePoint (-0) 7).hash ∧
      ∃ start, ofPoints [samplePoint 0 5, samplePoint 1 5, samplePoint (-0) 7] = .ok start ∧
        start.points = [samplePoint (-0) 7, samplePoint 1 5] := by
  obtain ⟨agree, knowledge⟩ := identity_of_mem_history 1 1
  have same : (samplePoint 0 5).sameConfiguration (samplePoint (-0) 7) = true := by decide +kernel
  obtain ⟨start, accepted⟩ : ∃ start,
      ofPoints [samplePoint 0 5, samplePoint 1 5, samplePoint (-0) 7] = .ok start :=
    exists_eq_ok (by decide +kernel)
  have numbers : ∀ p ∈ [samplePoint 0 5, samplePoint 1 5, samplePoint (-0) 7], p.HasNumbers := by
    decide +kernel
  have other : (samplePoint 0 5).sameConfiguration (samplePoint 1 5) = false := by decide +kernel
  have points := (knowledge _ start accepted).1 numbers
  refine ⟨same, ((agree _ _).1 same).2, start, accepted, ?_⟩
  rw [points]
  simp [placed, List.findIdx?_cons, same, other]

end Knowledge

end Autotune
