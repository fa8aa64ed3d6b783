import Autotune.Proofs.Knowledge.Update

/-!
# Updates that arrive again or in pieces

Whoever sends updates may send one twice, or send in several pieces what belongs together.  Neither
matters to the points or to their places, only to the number of the version.

* `Update.table_table`: an update makes nothing new of a table that it has made;
* `Knowledge.apply_again`: hence an accepted update is accepted again;
* `Knowledge.mergeAll_eq`: merging batches one by one is merging them all at once;
* `Knowledge.resent_of_mem_history`: both, of all knowledge that there is.
-/

namespace Autotune

open State (samplePoint)

variable {kn mn : Nat} {p : OperatingPoint kn mn} {new points : List (OperatingPoint kn mn)}

namespace Table

variable {t : Table kn mn}

/-! ### Points that have been put already -/

lemma newIds_eq_nil (known : ∀ p ∈ new, p.id ∈ points.map OperatingPoint.id) :
    newIds points new = [] := by
  have none : (new.map OperatingPoint.id).filter (fun id => id ∉ points.map OperatingPoint.id) =
      [] := by
    simpa using known
  rw [newIds, none, List.eraseDups_nil]

lemma mem_ids_merged (hp : p ∈ new) : p.id ∈ (merged points new).map OperatingPoint.id := by
  rw [map_id_merged, List.mem_append]
  by_cases known : p.id ∈ points.map OperatingPoint.id
  · exact .inl known
  · refine .inr ?_
    rw [newIds, List.mem_eraseDups, List.mem_filter]
    exact ⟨List.mem_map_of_mem hp, by simpa using known⟩

lemma latest?_of_mem_merged (hp : p ∈ merged points new) : (latest? new p.id).getD p = p := by
  obtain hp | hp := List.mem_append.mp hp
  · obtain ⟨q, -, rfl⟩ := List.mem_map.mp hp
    cases found : latest? new q.id with
    | none => rw [Option.getD_none, found, Option.getD_none]
    | some r =>
      have same : r.id = q.id := by simpa using List.find?_some found
      rw [Option.getD_some, same, found, Option.getD_some]
  · obtain ⟨id, -, found⟩ := List.mem_filterMap.mp hp
    have same : p.id = id := by simpa using List.find?_some found
    rw [same, found, Option.getD_some]

/-- **Points that were put change nothing when they are put again.** -/
lemma merged_merged : merged (merged points new) new = merged points new := by
  rw [merged, newIds_eq_nil fun p hp => mem_ids_merged hp]
  conv_rhs => rw [← List.map_id (merged points new)]
  rw [latestOf, List.filterMap_nil, List.append_nil]
  exact List.map_congr_left fun p hp => latest?_of_mem_merged hp

lemma Indexed.index_upsertAll (h : t.Indexed) (known : ∀ p ∈ new, p.id ∈ t.ids) :
    (t.upsertAll new).index = t.index := by
  induction new generalizing t with
  | nil => rfl
  | cons p new ih =>
    rw [List.forall_mem_cons] at known
    obtain ⟨i, place⟩ : ∃ i, t.position? p.id = some i := by
      refine Option.ne_none_iff_exists'.mp fun missing => ?_
      exact h.position?_eq_none.mp missing known.1
    have step : t.upsertAll (p :: new) =
        Table.upsertAll { t with points := t.points.set i p } new := by
      rw [← upsert_of_known place]
      rfl
    rw [step, ih (h.upsert_known place) (by rw [ids, h.map_set place]; exact known.2)]

lemma Indexed.upsertAll_upsertAll (h : t.Indexed) :
    (t.upsertAll new).upsertAll new = t.upsertAll new := by
  have made : (t.upsertAll new).points = merged t.points new := h.points_upsertAll
  have points : ((t.upsertAll new).upsertAll new).points = (t.upsertAll new).points := by
    rw [h.upsertAll.points_upsertAll, made, merged_merged]
  have index : ((t.upsertAll new).upsertAll new).index = (t.upsertAll new).index := by
    refine h.upsertAll.index_upsertAll fun p hp => ?_
    rw [ids, made]
    exact mem_ids_merged hp
  exact congrArg₂ Table.mk points index

lemma without_without (t : Table kn mn) (ids : List String) :
    (t.without ids).without ids = t.without ids := by
  have points : (t.without ids).points = t.points.filter fun p => !ids.contains p.id := rfl
  rw [without, points, List.filter_filter]
  simp only [Bool.and_self]
  rfl

end Table

/-- **An update makes nothing new of a table that it has made.** -/
theorem Update.table_table {t : Table kn mn} (h : t.Indexed) (update : Update kn mn) :
    update.table (update.table t) = update.table t := by
  cases update with
  | replace new => rfl
  | merge new => exact h.upsertAll_upsertAll
  | remove ids => exact t.without_without ids

namespace Knowledge

variable {k next start : Knowledge kn mn} {update : Update kn mn}

lemma eq_of_toTable (table : k.toTable = next.toTable) (version : k.version = next.version) :
    k = next := by
  obtain ⟨t, number, nonempty⟩ := k
  subst table version
  rfl

/-- **An update that was accepted is accepted again**, and it changes the version only. -/
theorem apply_again (h : k.Indexed) (ok : k.apply update = .ok next) :
    next.apply update = .ok { next with version := next.version + 1 } := by
  rw [apply_eq_ofTable?, ofTable?_eq_ok] at ok
  have same : update.table next.toTable = next.toTable := by rw [ok.1, update.table_table h]
  rw [apply_eq_ofTable?, ofTable?_eq_ok]
  exact ⟨same.symm, rfl⟩

/-! ### Batches -/

lemma upsertAll_nonempty (k : Knowledge kn mn) (new : List (OperatingPoint kn mn)) :
    (k.toTable.upsertAll new).points ≠ [] :=
  Table.upsertAll_ne_nil k.nonempty new

/-- The knowledge after points were merged. -/
def merge (k : Knowledge kn mn) (new : List (OperatingPoint kn mn)) : Knowledge kn mn :=
  ⟨k.toTable.upsertAll new, k.version + 1, k.upsertAll_nonempty new⟩

lemma apply_merge (k : Knowledge kn mn) (new : List (OperatingPoint kn mn)) :
    k.apply (.merge new) = .ok (k.merge new) := rfl

/-- Merges batches one after the other, each as an update of its own. -/
def mergeAll (k : Knowledge kn mn) (batches : List (List (OperatingPoint kn mn))) :
    Except Fault (Knowledge kn mn) :=
  batches.foldlM (fun k new => k.apply (.merge new)) k

/-- **Merging batches one by one is merging them all at once**, but for the version, which counts
them. -/
theorem mergeAll_eq (k : Knowledge kn mn) (batches : List (List (OperatingPoint kn mn))) :
    k.mergeAll batches =
      .ok { k.merge batches.flatten with version := k.version + batches.length } := by
  induction batches generalizing k with
  | nil => rfl
  | cons new rest ih =>
    have step : k.mergeAll (new :: rest) = (k.merge new).mergeAll rest := rfl
    have table : ((k.merge new).merge rest.flatten).toTable =
        (k.merge (new :: rest).flatten).toTable := List.foldl_append.symm
    have number : (k.merge new).version + rest.length = k.version + (new :: rest).length := by
      rw [List.length_cons]
      exact Nat.add_right_comm k.version 1 rest.length
    rw [step, ih]
    exact congrArg Except.ok (eq_of_toTable table number)

/-- **It does not matter whether updates arrive twice or in pieces.**  Whatever knowledge there is
after a sequence of updates, an update that it accepts is accepted once more, and then the points,
their order and the places where they are found stay as they are; only the version goes up.  The same
comes of merging two lists of points together and one after the other, and of merging any number of
batches together and one by one, but for the version. -/
theorem resent_of_mem_history (accepted : ofPoints points = .ok start)
    {updates : List (Update kn mn)} (hk : k ∈ start.history updates) :
    (∀ update next, k.apply update = .ok next →
      next.apply update = .ok { next with version := next.version + 1 }) ∧
    (∀ xs ys, ∃ whole, k.apply (.merge (xs ++ ys)) = .ok whole ∧
      (k.apply (.merge xs) >>= fun next => next.apply (.merge ys)) =
        .ok { whole with version := whole.version + 1 }) ∧
    ∀ batches, ∃ whole, k.apply (.merge batches.flatten) = .ok whole ∧
      k.mergeAll batches = .ok { whole with version := k.version + batches.length } := by
  have indexed : k.Indexed := indexed_of_mem_history (ofPoints_eq_ok accepted).1 hk
  refine ⟨fun update next => apply_again indexed, fun xs ys => ?_, fun batches => ?_⟩
  · refine ⟨k.merge (xs ++ ys), rfl, ?_⟩
    have table : ((k.merge xs).merge ys).toTable = (k.merge (xs ++ ys)).toTable :=
      List.foldl_append.symm
    exact congrArg Except.ok (eq_of_toTable table rfl)
  · exact ⟨k.merge batches.flatten, rfl, k.mergeAll_eq batches⟩

/-- A merge with repeated configurations, of which one is known and one is new, arrives twice. -/
theorem resent_of_mem_history_sample :
    ∃ start next : Knowledge 1 1, ofPoints [samplePoint 1 5, samplePoint 2 5] = .ok start ∧
      start ∈ start.history [] ∧
      start.apply (.merge [samplePoint 3 5, samplePoint 1 7, samplePoint 3 9]) = .ok next ∧
      next.apply (.merge [samplePoint 3 5, samplePoint 1 7, samplePoint 3 9]) =
        .ok { next with version := next.version + 1 } := by
  obtain ⟨start, accepted⟩ : ∃ start, ofPoints [samplePoint 1 5, samplePoint 2 5] = .ok start :=
    exists_eq_ok (by decide +kernel)
  have here : start ∈ start.history [] := List.mem_singleton.mpr rfl
  obtain ⟨again, -⟩ := resent_of_mem_history accepted here
  have merged := start.apply_merge [samplePoint 3 5, samplePoint 1 7, samplePoint 3 9]
  exact ⟨start, _, accepted, here, merged, again _ _ merged⟩

end Knowledge

end Autotune
