import Autotune.Proofs.Knowledge.Table
import Autotune.Proofs.Refusal
import Autotune.Proofs.State.Selection

/-!
# What updates make of the knowledge

Knowledge is an insertion-ordered map from configurations to points: `Update.result` says which
points an update makes of the points that there are, without any index, and `Knowledge.apply_eq_ok`
and `Knowledge.apply_eq_error` that this is what happens to knowledge whose index is right.
`Knowledge.history` lists the knowledge at the start and after each update of a sequence, where a
refused one leaves the knowledge as it is.

* `Knowledge.indexed_of_mem_history`: the index is right throughout;
* `Knowledge.orderedMap_of_mem_history`: hence so is everything else.
-/

namespace Autotune

open State (samplePoint)

variable {kn mn : Nat} {points : List (OperatingPoint kn mn)}

namespace Update

/-- The points that an update makes of some points. -/
def result : Update kn mn → List (OperatingPoint kn mn) → List (OperatingPoint kn mn)
  | .replace new, _ => latestOf new (new.map OperatingPoint.id).eraseDups
  | .merge new, points => Table.merged points new
  | .remove ids, points => points.filter fun p => p.id ∉ ids

/-- The configurations that an update makes of some configurations, each in its place. -/
def resultIds : Update kn mn → List String → List String
  | .replace new, _ => (new.map OperatingPoint.id).eraseDups
  | .merge new, ids => ids ++ ((new.map OperatingPoint.id).filter fun id => id ∉ ids).eraseDups
  | .remove gone, ids => ids.filter fun id => id ∉ gone

/-- The table that an update makes of a table. -/
def table : Update kn mn → Table kn mn → Table kn mn
  | .replace new, _ => Table.empty.upsertAll new
  | .merge new, t => t.upsertAll new
  | .remove ids, t => t.without ids

variable {t : Table kn mn}

lemma indexed_table (h : t.Indexed) (update : Update kn mn) : (update.table t).Indexed := by
  cases update with
  | replace new => exact Table.indexed_empty.upsertAll
  | merge new => exact h.upsertAll
  | remove ids => exact h.without ids

lemma points_empty_upsertAll (new : List (OperatingPoint kn mn)) :
    (Table.empty.upsertAll new).points = latestOf new (new.map OperatingPoint.id).eraseDups := by
  rw [Table.indexed_empty.points_upsertAll]
  simp [Table.merged, Table.newIds, Table.empty]

lemma map_id_latestOf_eraseDups (new : List (OperatingPoint kn mn)) :
    (latestOf new (new.map OperatingPoint.id).eraseDups).map OperatingPoint.id =
      (new.map OperatingPoint.id).eraseDups :=
  map_id_latestOf fun _ => List.mem_eraseDups.mp

lemma map_id_result (update : Update kn mn) (points : List (OperatingPoint kn mn)) :
    (update.result points).map OperatingPoint.id =
      update.resultIds (points.map OperatingPoint.id) := by
  cases update with
  | replace new => exact map_id_latestOf_eraseDups new
  | merge new => exact Table.map_id_merged
  | remove gone =>
    rw [result, resultIds, List.filter_map]
    rfl

lemma points_table (h : t.Indexed) (update : Update kn mn) :
    (update.table t).points = update.result t.points := by
  cases update with
  | replace new => exact points_empty_upsertAll new
  | merge new => exact h.points_upsertAll
  | remove ids => simp [table, result, Table.without, Table.ofPoints]

end Update

namespace Knowledge

variable {k next start : Knowledge kn mn} {t : Table kn mn} {version : Nat} {fault : Fault}
  {update : Update kn mn}

lemma ofTable?_eq_ok : ofTable? t version = .ok k ↔ k.toTable = t ∧ k.version = version := by
  obtain ⟨table, number, nonempty⟩ := k
  unfold ofTable?
  split
  case isTrue none =>
    simp only [reduceCtorEq, false_iff]
    rintro ⟨rfl, -⟩
    exact nonempty none
  case isFalse => simp [eq_comm]

lemma ofTable?_eq_error :
    ofTable? t version = .error fault ↔ fault = .emptyKnowledge ∧ t.points = [] := by
  unfold ofTable?
  split <;> simp [*, eq_comm]

lemma apply_eq_ofTable? (k : Knowledge kn mn) (update : Update kn mn) :
    k.apply update = ofTable? (update.table k.toTable) (k.version + 1) := by
  cases update with
  | replace new =>
    unfold apply ofPoints ofTable? Update.table
    dsimp only
    split <;> rfl
  | merge new =>
    have some : (Update.table (.merge new) k.toTable).points ≠ [] :=
      Table.upsertAll_ne_nil k.nonempty new
    rw [ofTable?, dif_neg some]
    rfl
  | remove ids => rfl

lemma version_of_apply (ok : k.apply update = .ok next) : next.version = k.version + 1 := by
  rw [apply_eq_ofTable?, ofTable?_eq_ok] at ok
  exact ok.2

/-- **An accepted update makes the points that it says, and the next version.** -/
theorem apply_eq_ok (h : k.Indexed) (ok : k.apply update = .ok next) :
    next.Indexed ∧ next.points = update.result k.points ∧ next.version = k.version + 1 := by
  have version := version_of_apply ok
  rw [apply_eq_ofTable?, ofTable?_eq_ok] at ok
  rw [ok.1]
  exact ⟨update.indexed_table h, update.points_table h, version⟩

/-- **An update is refused exactly when it would leave no point.** -/
theorem apply_eq_error (h : k.Indexed) :
    k.apply update = .error fault ↔ fault = .emptyKnowledge ∧ update.result k.points = [] := by
  rw [apply_eq_ofTable?, ofTable?_eq_error, update.points_table h]

lemma ofPoints_eq_ok (ok : ofPoints points = .ok start) :
    start.Indexed ∧ start.points = latestOf points (points.map OperatingPoint.id).eraseDups ∧
      start.version = 0 := by
  obtain ⟨table, version⟩ := ofTable?_eq_ok.mp ok
  rw [table]
  exact ⟨Table.indexed_empty.upsertAll, Update.points_empty_upsertAll points, version⟩

lemma ofPoints_eq_error :
    (ofPoints points : Except Fault (Knowledge kn mn)) = .error fault ↔
      fault = .emptyKnowledge ∧ points = [] := by
  rw [ofPoints, ofTable?_eq_error]
  refine and_congr_right fun _ => ?_
  cases points with
  | nil => exact iff_of_true rfl rfl
  | cons p rest =>
    have one : (Table.empty.upsert p).points ≠ [] := by
      rw [Table.upsert_of_new (Table.indexed_empty.position?_eq_none.mpr List.not_mem_nil)]
      simp
    exact iff_of_false (Table.upsertAll_ne_nil one rest) (List.cons_ne_nil p rest)

/-! ### Sequences of updates -/

/-- The knowledge at the start and after each accepted update. -/
def history (k : Knowledge kn mn) : List (Update kn mn) → List (Knowledge kn mn)
  | [] => [k]
  | update :: rest =>
    match k.apply update with
    | .ok next => k :: next.history rest
    | .error _ => k.history rest

lemma indexed_of_mem_history (h : start.Indexed) {updates : List (Update kn mn)}
    (hk : k ∈ start.history updates) : k.Indexed := by
  induction updates generalizing start with
  | nil =>
    obtain rfl := List.mem_singleton.mp hk
    exact h
  | cons update rest ih =>
    unfold history at hk
    split at hk
    case h_1 next accepted =>
      obtain rfl | hk := List.mem_cons.mp hk
      · exact h
      · exact ih (apply_eq_ok h accepted).1 hk
    -- after a refused update the rest is carried out on the same knowledge
    case h_2 => exact ih h hk

lemma history_eq_cons (k : Knowledge kn mn) (updates : List (Update kn mn)) :
    ∃ later, k.history updates = k :: later := by
  induction updates with
  | nil => exact ⟨[], rfl⟩
  | cons update rest ih =>
    unfold history
    split
    case h_1 next accepted => exact ⟨_, rfl⟩
    case h_2 => exact ih

lemma history_prefix (k : Knowledge kn mn) (updates later : List (Update kn mn)) :
    k.history updates <+: k.history (updates ++ later) := by
  induction updates generalizing k with
  | nil =>
    obtain ⟨after, all⟩ := history_eq_cons k later
    exact ⟨after, all.symm⟩
  | cons update rest ih =>
    rw [List.cons_append]
    unfold history
    split
    case h_1 next accepted => exact (List.prefix_cons_inj k).mpr (ih next)
    case h_2 => exact ih k

/-- **Knowledge is an insertion-ordered map from configurations to points.**  Given any point, it
starts with the configurations of the given points, in the order of their first points and each with
its last one.  Whatever updates follow, no two points are of one configuration, there is some point,
and a configuration is found exactly where its point stands.  An update is refused exactly when it
would leave no point; otherwise it makes the points that it says, of the configurations that it
says, and the next version.  What there has been before stays as it is. -/
theorem orderedMap_of_mem_history (points : List (OperatingPoint kn mn)) :
    (∀ fault, ofPoints points = .error fault ↔ fault = .emptyKnowledge ∧ points = []) ∧
    ∀ start, ofPoints points = .ok start →
      (start.points = latestOf points (points.map OperatingPoint.id).eraseDups ∧
        start.points.map OperatingPoint.id = (points.map OperatingPoint.id).eraseDups ∧
        start.version = 0) ∧
      (∀ updates, ∀ k ∈ start.history updates,
        (k.points.map OperatingPoint.id).Nodup ∧ k.points ≠ [] ∧
        (∀ id i, k.position? id = some i ↔ (k.points[i]?).map OperatingPoint.id = some id) ∧
        (∀ id p, k.get? id = some p ↔ p ∈ k.points ∧ p.id = id) ∧
        (∀ update fault, k.apply update = .error fault ↔
          fault = .emptyKnowledge ∧ update.result k.points = []) ∧
        (∀ update next, k.apply update = .ok next →
          next.points = update.result k.points ∧
          next.points.map OperatingPoint.id = update.resultIds (k.points.map OperatingPoint.id) ∧
          next.version = k.version + 1)) ∧
      ∀ updates later, start.history updates <+: start.history (updates ++ later) := by
  refine ⟨fun _ => ofPoints_eq_error, fun start accepted => ?_⟩
  obtain ⟨indexed, made, version⟩ := ofPoints_eq_ok accepted
  have ids : start.points.map OperatingPoint.id = (points.map OperatingPoint.id).eraseDups := by
    rw [made, Update.map_id_latestOf_eraseDups]
  refine ⟨⟨made, ids, version⟩, fun updates k hk => ?_, history_prefix start⟩
  have indexed : k.Indexed := indexed_of_mem_history indexed hk
  refine ⟨indexed.nodup_ids, k.nonempty, fun id i => ?_, fun _ _ => indexed.get?_eq_some,
    fun _ _ => apply_eq_error indexed, fun update next ok => ?_⟩
  · rw [← List.getElem?_map]
    exact indexed id i
  · obtain ⟨-, made, later⟩ := apply_eq_ok indexed ok
    exact ⟨made, by rw [made, Update.map_id_result], later⟩

/-- The later of two points of a configuration counts, and what is removed is gone. -/
theorem orderedMap_of_mem_history_sample :
    ∃ start, ofPoints [samplePoint 1 5, samplePoint 2 5, samplePoint 1 7] = .ok start ∧
      start.points = latestOf [samplePoint 1 5, samplePoint 2 5, samplePoint 1 7] ["1", "2"] ∧
      ∀ k ∈ start.history [.merge [samplePoint 3 5], .remove ["1"]], k.points ≠ [] := by
  obtain ⟨start, accepted⟩ : ∃ start,
      ofPoints [samplePoint 1 5, samplePoint 2 5, samplePoint 1 7] = .ok start :=
    exists_eq_ok (by decide +kernel)
  obtain ⟨⟨points, -, -⟩, holds, -⟩ := (orderedMap_of_mem_history _).2 start accepted
  have names : (List.map OperatingPoint.id
      [samplePoint 1 5, samplePoint 2 5, samplePoint 1 7]).eraseDups = ["1", "2"] := by
    decide +kernel
  rw [names] at points
  exact ⟨start, accepted, points, fun k hk => (holds _ k hk).2.1⟩

end Knowledge

end Autotune
